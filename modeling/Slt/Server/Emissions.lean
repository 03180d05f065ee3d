import Slt.Server.Session

/-!
# What the server's handlers keep and put out

Most effects of a handler are routine: frames, packets, changes of the preferred
transport. A packet for the tunnel and a registration are not. They come from one
handler each, and only for a message that carries them. Likewise most changes of
the state are routine: what is stable under them is kept by every handler that
neither registers a connection id nor adopts a peer.

The handlers are followed once, for a condition `P` on the state and a condition
`T` on what is put out. Both are left open, up to what a single write to TCP does.
-/

namespace Slt.Server

open Lib Lib.Handler Proto

/-- A condition on states that the changes of most handlers keep. -/
structure Stable (P : ServerSession → Prop) : Prop where
  mark : ∀ {s} interrupted, P s → P { s with tcpWriteInterrupted := interrupted }
  cleared : ∀ {s}, P s → P (clearSendSlab s)
  appended : ∀ {s} message, P s → P (appendToSlab message s)
  transport : ∀ {s} transport, P s → P { s with activeTransport := transport }
  retired : ∀ {s}, P s → P s.retireUdp
  upgrade : ∀ {s} upgrade, P s → P { s with udpUpgrade := upgrade }
  pendingFallback : ∀ {s} pending, P s → P { s with pendingTcpFallback := pending }
  peerFallback : ∀ {s} last, P s → P { s with lastPeerFallbackId := last }
  activity : ∀ {s} time, P s → P { s with lastAuthenticatedUdpActivity := time }
  registry : ∀ {s} registry, P s → P { s with registry := registry }

abbrev ServerTrace := Trace ServerSession ServerEffect SessionError

/-- A write to TCP and a change of the transport keep `P` and meet `T`. -/
structure Routine (env : Env) (P : ServerSession → Prop) (T : ServerTrace) : Prop where
  stable : Stable P
  send : ∀ {s} message, P s → Keeps P T s (sendTcpMessage env message)
  discarded : ∀ session, T.emits (.discardPendingSend session)
  retired : ∀ session, T.emits (.retired session)
  preferred : ∀ transport, T.emits (.preferred transport)
  recovering : ∀ recovery, T.emits (.recovering recovery)

def SendsUdp (P : ServerSession → Prop) (T : ServerTrace) : Prop :=
  ∀ s session message, P s → s.udpSession = some session →
    T.emits (.udp session.params message)

/-- The packet may be delivered where it has the client's address as its source. -/
def Delivers (P : ServerSession → Prop) (T : ServerTrace) (packet : Bytes) : Prop :=
  ∀ s, P s → extractSrcAddr packet = some s.assignedIpv4.val → T.emits (.toTun packet)

/-- A registration may be reported, and its UDP session installed. -/
def Installs (P : ServerSession → Prop) (T : ServerTrace) (register : RegisterCidPayload) : Prop :=
  T.emits (.registered register) ∧ ∀ {s}, P s → P { s with
    udpSession := some ⟨register.serverSession, placeholderPeer, []⟩, udpPeerPacketNumber := none,
    lastAuthenticatedUdpActivity := none, udpUpgrade := .default }

variable {P : ServerSession → Prop} {T : ServerTrace} {s : ServerSession} {env : Env}

/-! ## Handlers that write nothing to TCP -/

section Quiet

variable (hP : Stable P) (hudp : SendsUdp P T) (hs : P s)
include hs

theorem keeps_validateMessage (type : MessageType) (transport : MessageTransport) :
    Keeps P T s (validateMessage type transport) := by
  unfold validateMessage
  split
  · exact .pure _ hs
  · exact .throw _ hs

/-- A packet is delivered only with the client's address as its source. -/
theorem keeps_forwardToTun {packet : Bytes} (htun : Delivers P T packet) :
    Keeps P T s (forwardToTun env packet) := by
  refine .get_bind ?_
  split
  · rename_i hsource
    split
    · exact .emit_bind (htun s hs hsource) (.pure _ hs)
    · exact .pure _ hs
    · exact .throw _ hs
    · exact .throw _ hs
    · exact .drop hs
  · exact .pure _ hs

include hP

theorem keeps_flushIfNeeded (flush : Option (Await IoError)) :
    Keeps P T s (flushIfNeeded flush) := by
  refine .get_bind ?_
  split
  · unfold flushPending
    split
    · exact .pure _ hs
    split
    · exact .modify_bind (.pure _ (hP.cleared hs))
    · exact .pure _ hs
    · exact .drop hs
  · exact .pure _ hs

theorem keeps_flushPendingUdpSessionBestEffort :
    Keeps P T s (flushPendingUdpSessionBestEffort env) := by
  refine .get_bind ?_
  split
  · exact .pure _ hs
  split
  · exact .pure _ hs
  · exact (Keeps.timeout _ (keeps_flushIfNeeded hP hs _)).bind fun _ _ hs => .pure _ hs

include hudp

theorem keeps_queueUdpMessage (message : Message) : Keeps P T s (queueUdpMessage env message) := by
  refine .get_bind ?_
  split
  · exact .pure _ hs
  rename_i session hsession
  split
  · exact .pure _ hs
  have hsent := hudp s session message hs hsession
  refine (keeps_flushIfNeeded hP hs _).bind fun flushed _ hs => ?_
  cases flushed with
  | some source => exact .pure _ hs
  | none =>
    refine .emit_bind hsent (.modify_bind ?_)
    refine (keeps_flushIfNeeded hP (hP.appended _ hs) _).bind fun flushed _ hs => ?_
    cases flushed <;> exact .pure _ hs

theorem keeps_sendCloseOverUdp (code : CloseCode) : Keeps P T s (sendCloseOverUdp env code) := by
  refine .get_bind ?_
  split
  · exact .throw _ hs
  refine (keeps_queueUdpMessage hP hudp hs _).bind fun queued _ hs => ?_
  cases queued with
  | some err => exact .throw _ hs
  | none =>
    refine (keeps_flushIfNeeded hP hs _).bind fun flushed _ hs => ?_
    cases flushed with
    | some source => exact .throw _ hs
    | none => exact .pure _ hs

end Quiet

theorem keeps_tryCloseOverUdp {O : ServerEffect → Prop} (hP : Stable P)
    (hudp : SendsUdp P (.all O)) (hs : P s) (code : CloseCode) :
    Keeps P (.all O) s (tryCloseOverUdp env code) := by
  refine .get_bind ?_
  split
  · exact .pure _ hs
  · refine .bind (.timeout _ (.attempt ?_)) fun _ _ hs => .pure _ hs
    exact keeps_sendCloseOverUdp hP hudp hs code

/-! ## TCP -/

section Tcp

variable (hT : Routine env P T) (hs : P s)
include hT hs

theorem keeps_sendTcpMessage_then {α : Type} (message : Message) (x : α) :
    Keeps P T s (do sendTcpMessage env message; pure x) :=
  (hT.send message hs).bind fun _ _ hs => .pure _ hs

theorem keeps_setActiveTransport (transport : ActiveTransport) :
    Keeps P T s (setActiveTransport transport) := by
  refine .emit_bind (hT.preferred _) (.get_bind ?_)
  split
  · have hdiscard : Keeps P T s discardPendingSend := by
      refine .get_bind ?_
      split
      · exact .pure _ hs
      · exact .emit_bind (hT.discarded _) (.modify (hT.stable.cleared hs))
    exact hdiscard.bind fun _ _ hs => .modify (hT.stable.transport _ hs)
  · exact .modify (hT.stable.transport _ hs)

theorem keeps_retireUdpTransport : Keeps P T s retireUdpTransport :=
  .get_bind (.emit_bind (hT.retired _) (.modify (hT.stable.retired hs)))

theorem keeps_sendTcpFallbackRequest : Keeps P T s (sendTcpFallbackRequest env) := by
  refine .get_bind ?_
  split
  · exact .pure _ hs
  · refine (hT.send _ hs).bind fun _ _ hs => ?_
    exact .modify (hT.stable.pendingFallback _ hs)

theorem keeps_recoverFromUdpError (message : Option Message) (recovery : UdpFailureRecovery)
    (err : UdpQspError) : Keeps P T s (recoverFromUdpError env message recovery err) := by
  refine (keeps_retireUdpTransport hT hs).bind fun _ s' hs => .get_bind ?_
  split
  · refine (keeps_setActiveTransport hT hs .tcp).bind fun _ _ hs => ?_
    refine .emit_bind (hT.recovering _) ?_
    cases recovery with
    | retryMessageOnTcp =>
      refine (keeps_sendTcpFallbackRequest hT hs).bind fun _ _ hs => ?_
      cases message with
      | none => exact .pure _ hs
      | some message => exact hT.send message hs
    | signalTcpFallback => exact keeps_sendTcpFallbackRequest hT hs
    | retireOnly => exact .pure _ hs
  · exact .throw _ hs

theorem keeps_maybeSendSwitchToUdp : Keeps P T s (maybeSendSwitchToUdp env) := by
  refine .get_bind ?_
  dsimp only
  split
  · exact .pure _ hs
  split
  · exact .pure _ hs
  · refine (hT.send _ hs).bind fun _ _ hs => ?_
    exact .modify (hT.stable.upgrade _ hs)

theorem keeps_handleRegisterMessage {decoded : Except PayloadError RegisterCidPayload}
    (hregistered : ∀ payload, decoded = .ok payload → Installs P T payload) :
    Keeps P T s (handleRegisterMessage env decoded) := by
  refine .get_bind ?_
  split
  · exact .throw _ hs
  cases decoded with
  | error err => exact keeps_sendTcpMessage_then hT hs _ _
  | ok register =>
    refine .get_bind ?_
    split
    · exact keeps_sendTcpMessage_then hT hs _ _
    rename_i registry _
    refine .modify_bind ?_
    have hs := hT.stable.registry registry hs
    split
    · exact .throw _ hs
    obtain ⟨hemit, hinstalls⟩ := hregistered register rfl
    have hinstall : Keeps P T _ (installUdpSession register) :=
      .modify_bind (.emit hemit (hinstalls hs))
    exact hinstall.bind fun _ _ hs => keeps_sendTcpMessage_then hT hs _ _

theorem keeps_handleTcpMessage {message : Message}
    (htun : ∀ packet, message = .data packet → Delivers P T packet)
    (hregistered : ∀ payload, message = .registerCid payload →
      Installs P T payload) :
    Keeps P T s (handleTcpMessage env message) := by
  -- A message that is out of place ends the session before any branch runs.
  refine (keeps_validateMessage hs _ _).bind fun _ s hs => ?_
  cases message with
  | udpReady upgradeId =>
    refine .get_bind ?_
    split
    · exact .pure _ hs
    · have hsent {s : ServerSession} (hs : P s) :=
        (keeps_maybeSendSwitchToUdp hT hs).bind fun _ _ hs =>
          Keeps.pure SessionControl.continue hs
      exact .modify_bind (hsent (hT.stable.upgrade _ hs))
  | switchAck upgradeId =>
    refine .get_bind ?_
    -- Without an attempt, with another id and before `switch_to_udp` it is ignored.
    dsimp only
    split
    · exact .pure _ hs
    split
    · exact .pure _ hs
    split
    · exact .pure _ hs
    · refine (keeps_setActiveTransport hT hs .udpQsp).bind fun _ _ hs => ?_
      refine (hT.send _ hs).bind fun _ _ hs => ?_
      exact .modify_bind (.pure _ (hT.stable.upgrade _ hs))
  | data packet => exact keeps_forwardToTun hs (htun packet rfl)
  | ping nonce => exact keeps_sendTcpMessage_then hT hs _ _
  | registerCid payload =>
    refine keeps_handleRegisterMessage hT hs fun register heq => ?_
    cases heq
    exact hregistered payload rfl
  | fallbackToTcp fallbackId =>
    -- The reply goes out in both cases; a repeated request changes nothing else.
    have hyield : Keeps P T s (yieldToFallback fallbackId) := by
      refine .get_bind ?_
      split
      · exact .pure _ hs
      · refine (keeps_setActiveTransport hT hs .tcp).bind fun _ _ hs => ?_
        exact .modify_bind (.modify (hT.stable.peerFallback _ (hT.stable.upgrade _ hs)))
    exact hyield.bind fun _ _ hs => keeps_sendTcpMessage_then hT hs _ _
  | fallbackOk fallbackId =>
    refine .modify_bind (.pure _ ?_)
    split
    · exact hT.stable.pendingFallback _ hs
    · exact hs
  | _ => exact .pure _ hs

theorem keeps_handleMalformedMessage (type : MessageType) (err : PayloadError) :
    Keeps P T s (handleMalformedMessage env type err) := by
  refine (keeps_validateMessage hs _ _).bind fun _ _ hs => ?_
  cases type with
  | registerCid => exact keeps_handleRegisterMessage hT hs fun _ heq => nomatch heq
  | _ => exact .throw _ hs

theorem keeps_sendCloseOverTcp (code : CloseCode) : Keeps P T s (sendCloseOverTcp env code) := by
  refine .get_bind ?_
  split
  · exact .throw _ hs
  · exact hT.send _ hs

end Tcp

/-! ## Events -/

section Events

variable (hT : Routine env P T) (hudp : SendsUdp P T) (hs : P s)
include hT hudp hs

theorem keeps_sendUdpMessage (message : Message) (recovery : UdpFailureRecovery) :
    Keeps P T s (sendUdpMessage env message recovery) := by
  refine (keeps_queueUdpMessage hT.stable hudp hs message).bind fun queued _ hs => ?_
  cases queued with
  | none => exact .pure _ hs
  | some err => exact keeps_recoverFromUdpError hT hs _ recovery err

theorem keeps_sendUdpMessageAndFlush (message : Message) (recovery : UdpFailureRecovery) :
    Keeps P T s (sendUdpMessageAndFlush env message recovery) := by
  refine (keeps_sendUdpMessage hT hudp hs message recovery).bind fun _ _ hs => ?_
  refine (keeps_flushIfNeeded hT.stable hs _).bind fun flushed _ hs => ?_
  cases flushed with
  | none => exact .pure _ hs
  | some source => exact keeps_recoverFromUdpError hT hs _ recovery _

theorem keeps_handleUdpPayload {payload : UdpPayload}
    (htun : ∀ packet, payload = .message (.data packet) → Delivers P T packet) :
    Keeps P T s (handleUdpPayload env payload) := by
  cases payload with
  | message message =>
    refine (keeps_validateMessage hs _ _).bind fun _ s' hs => ?_
    refine .bind (m := dispatchUdpMessage env message) ?_ fun _ _ hs =>
      .modify_bind (.pure _ (hT.stable.activity _ hs))
    cases message with
    | ping nonce =>
      exact (keeps_sendUdpMessageAndFlush hT hudp hs _ _).bind fun _ _ hs => .pure _ hs
    | data packet => exact keeps_forwardToTun hs (htun packet rfl)
    | upgradeProbe upgradeId nonce =>
      refine .get_bind ?_
      split
      · exact .pure _ hs
      refine .modify_bind (.bind ?_ fun _ _ hs => ?_)
      · exact keeps_sendUdpMessageAndFlush hT hudp (hT.stable.upgrade _ hs) _ _
      · exact (keeps_maybeSendSwitchToUdp hT hs).bind fun _ _ hs => .pure _ hs
    | _ => exact .pure _ hs
  | malformed type err => exact (keeps_validateMessage hs _ _).bind fun _ _ hs => .throw _ hs
  | unframed err => exact .throw _ hs
  | incomplete => exact .throw _ hs

theorem keeps_sendClose (code : CloseCode) : Keeps P T s (sendClose env code) := by
  refine .get_bind ?_
  split
  · exact keeps_sendCloseOverTcp hT hs _
  · exact keeps_sendCloseOverUdp hT.stable hudp hs _

/-- The packet that an event carries, where one handler may deliver it. -/
def SessionEvent.packet? : SessionEvent → Option Bytes
  | .tcpMessage (.data packet) => some packet
  | .udp ⟨_, _, _, .message (.data packet)⟩ => some packet
  | _ => none

theorem keeps_handleEvent {event : SessionEvent}
    (hidle : event = .idleTimer → Keeps P T s (attempt (sendClose env .idleTimeout)))
    (hclosed : ∀ {s}, P s → P { s with tcpAlive := false })
    (htun : ∀ packet, event.packet? = some packet → Delivers P T packet)
    (hregistered : ∀ payload, event = .tcpMessage (.registerCid payload) →
      Installs P T payload)
    (hadopted : ∀ claim, event = .udp claim →
      P s → P (adoptUdpPeerIfNewer claim.peer claim.packetNumber s)) :
    Keeps P T s (handleEvent env event) := by
  cases event with
  | tcpMessage message =>
    refine keeps_handleTcpMessage hT hs (fun packet heq => ?_) fun payload heq => ?_
    · subst heq
      exact htun packet rfl
    · subst heq
      exact hregistered payload rfl
  | tcpMalformed type err => exact keeps_handleMalformedMessage hT hs type err
  | tcpUnframed err => exact .throw _ hs
  | tcpClosed =>
    refine .get_bind ?_
    split
    · exact .modify_bind (.pure _ (hclosed hs))
    · exact .pure _ hs
  | tcpFailed source => exact .throw _ hs
  -- The peer is adopted before the payload is looked at, whatever the payload is.
  | udp claim =>
    obtain ⟨sender, peer, packetNumber, payload⟩ := claim
    refine .modify_bind (keeps_handleUdpPayload hT hudp (hadopted _ rfl hs) ?_)
    intro packet heq
    cases heq
    exact htun packet rfl
  | udpDropped => exact .pure _ hs
  | tunPacket packet =>
    refine .get_bind ?_
    split
    · exact .pure _ hs
    split
    · exact keeps_sendTcpMessage_then hT hs _ _
    · exact (keeps_sendUdpMessage hT hudp hs _ _).bind fun _ _ hs => .pure _ hs
  | udpFlush =>
    refine (keeps_flushIfNeeded hT.stable hs _).bind fun flushed _ hs => ?_
    cases flushed with
    | none => exact .pure _ hs
    | some source =>
      exact (keeps_recoverFromUdpError hT hs _ _ _).bind fun _ _ hs => .pure _ hs
  | pingTimer =>
    refine .get_bind ?_
    split
    · exact keeps_sendTcpMessage_then hT hs _ _
    · exact (keeps_sendUdpMessageAndFlush hT hudp hs _ _).bind fun _ _ hs => .pure _ hs
  | udpLivenessTimer =>
    refine .get_bind ?_
    split
    · exact .pure _ hs
    refine (keeps_setActiveTransport hT hs .tcp).bind fun _ _ hs => ?_
    refine (keeps_retireUdpTransport hT hs).bind fun _ _ hs => ?_
    exact (keeps_sendTcpFallbackRequest hT hs).bind fun _ _ hs => .pure _ hs
  -- What a failed close means depends on the trace, so this one is the caller's.
  | idleTimer =>
    exact (hidle rfl).bind fun _ _ hs => .pure _ hs
  | shutdown => exact .drop hs

end Events

/-! ## The closing steps -/

section Close

variable {O : ServerEffect → Prop} (hT : Routine env P (.all O)) (hudp : SendsUdp P (.all O))
  (hs : P s)
include hT hudp hs

theorem keeps_sendCloseBestEffort (code : CloseCode) :
    Keeps P (.all O) s (sendCloseBestEffort env code) := by
  refine .get_bind ?_
  split
  · refine .bind (.timeout _ (.attempt (keeps_sendCloseOverTcp hT hs code))) fun _ _ hs => ?_
    split
    · exact .pure _ hs
    · exact keeps_tryCloseOverUdp hT.stable hudp hs code
  · exact keeps_tryCloseOverUdp hT.stable hudp hs code

theorem keeps_closeSession (outcome : RunOutcome) :
    Keeps P (.all O) s (closeSession env outcome) := by
  have hmanaged : Keeps P (.all O) s (handleManagedShutdown env outcome) := by
    cases outcome with
    | shutdown reason => exact keeps_sendCloseBestEffort hT hudp hs _
    | _ => exact .pure _ hs
  refine hmanaged.bind fun _ s hs => ?_
  have htold : Keeps P (.all O) s (tellPeerAtFault env outcome.result) := by
    unfold tellPeerAtFault
    split
    · exact .pure _ hs
    split
    · exact keeps_sendCloseBestEffort hT hudp hs _
    · exact .pure _ hs
  refine htold.bind fun _ s hs => ?_
  refine (keeps_flushPendingUdpSessionBestEffort hT.stable hs).bind fun _ _ hs => ?_
  exact .modify (hT.stable.registry _ hs)

end Close

/-! ## Conditions on states and on effects -/

/-- A condition on effects that those of a write to TCP and of a change of the
transport satisfy. -/
structure RoutineEffects (O : ServerEffect → Prop) : Prop where
  tcp : ∀ message, O (.tcp message)
  tcpCut : ∀ message written, O (.tcpCut message written)
  discarded : ∀ session, O (.discardPendingSend session)
  retired : ∀ session, O (.retired session)
  preferred : ∀ transport, O (.preferred transport)
  recovering : ∀ recovery, O (.recovering recovery)

theorem RoutineEffects.keeps {O : ServerEffect → Prop} (hO : RoutineEffects O) (hP : Stable P)
    (env : Env) : Routine env P (.all O) where
  stable := hP
  send message hs := by
    refine Keeps.get_bind ?_
    split
    · exact .throw _ hs
    · refine .modify_bind ?_
      unfold writeFrame
      split
      · exact .emit_bind (hO.tcp _) (.modify (hP.mark _ (hP.mark _ hs)))
      · exact .emit_bind (hO.tcpCut _ _) (.modify_bind (.throw _ (hP.mark _ (hP.mark _ hs))))
      · exact .emit_bind (hO.tcpCut _ _) (.drop (hP.mark _ hs))
  discarded := hO.discarded
  retired := hO.retired
  preferred := hO.preferred
  recovering := hO.recovering

theorem routine_any (hP : Stable P) (env : Env) :
    Routine env P (.all fun _ => True) :=
  RoutineEffects.keeps (by constructor <;> intros <;> trivial) hP env

theorem sendsUdp_any : SendsUdp P (.all fun _ => True) := fun _ _ _ _ _ => trivial

theorem stable_true : Stable fun _ => True := by
  constructor <;> intros <;> trivial

/-! ## What holds of the UDP session -/

/-- If there is a UDP session, its parameters, its peer and the number that has
set the peer are related so. -/
def ServerSession.OnUdp (Q : QspSessionParams → SocketAddr → Option Nat → Prop)
    (s : ServerSession) : Prop :=
  ∀ session, s.udpSession = some session → Q session.params session.peer s.udpPeerPacketNumber

section OnUdp

variable {Q : QspSessionParams → SocketAddr → Option Nat → Prop} {s : ServerSession}

theorem ServerSession.OnUdp.slab (h : s.OnUdp Q) (g : List Message → List Message) :
    (s.mapUdp fun session => { session with slab := g session.slab }).OnUdp Q := by
  intro session hsession
  obtain ⟨before, hbefore, rfl⟩ := Option.map_eq_some_iff.mp hsession
  exact h before hbefore

theorem stable_onUdp : Stable (ServerSession.OnUdp Q) where
  mark _ h := h
  cleared h := h.slab fun _ => []
  appended message h := h.slab (· ++ [message])
  transport _ h := h
  retired _ := nofun
  upgrade _ h := h
  pendingFallback _ h := h
  peerFallback _ h := h
  activity _ h := h
  registry _ h := h

theorem ServerSession.OnUdp.adopt (h : s.OnUdp Q) {peer : SocketAddr} {packetNumber : Nat}
    (hnew : ∀ session, s.udpSession = some session → Q session.params peer (some packetNumber)) :
    (adoptUdpPeerIfNewer peer packetNumber s).OnUdp Q := by
  unfold adoptUdpPeerIfNewer
  split
  · exact h
  rename_i session hs
  split
  · exact h
  · rintro _ ⟨⟩
    exact hnew session hs

end OnUdp

/-! ## Whose session it is -/

def ServerSession.identity (s : ServerSession) : ClientId × Ipv4Addr := (s.clientId, s.assignedIpv4)

theorem stable_identity (a : ClientId × Ipv4Addr) : Stable (·.identity = a) := by
  constructor <;> intros <;> assumption

theorem identity_adoptUdpPeerIfNewer (peer : SocketAddr) (packetNumber : Nat) (s : ServerSession) :
    (adoptUdpPeerIfNewer peer packetNumber s).identity = s.identity := by
  unfold adoptUdpPeerIfNewer
  split
  · rfl
  · split <;> rfl

end Slt.Server
