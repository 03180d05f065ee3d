import Slt.Lib.Simulation
import Slt.Proto.View
import Slt.Server.Session

/-!
# The server session as the upgrade protocol sees it

`view` is the server of the upgrade protocol that a session stands for, and
`action` says which effects the protocol knows. Of the send slab it sees only
the echoes of probes. While TCP stays open, a failure of the UDP path comes to
nothing or to a fallback that the client is told of, except for the failure to
send an echo.
-/

namespace Slt.Server

open Lib Lib.Handler Proto

/-! ## The view of a session -/

def ServerSession.view (s : ServerSession) : ServerView where
  udp := s.activeTransport.isUdp
  session := s.udpSession.map (·.params.ofServer)
  upgradeId := s.udpUpgrade.upgradeId
  probeSeen := s.udpUpgrade.probeSeen
  readySeen := s.udpUpgrade.readySeen
  switchSent := s.udpUpgrade.switchToUdpSent
  pending := s.pendingTcpFallback
  lastPeer := s.lastPeerFallbackId

/-- Only echoes matter to the protocol among the packets. -/
def sentEcho (session : QspSessionParams) : Message → Option ServerAction
  | .upgradeProbeAck upgradeId nonce => some (.echo ⟨session.ofServer, upgradeId, nonce⟩)
  | _ => none

def ServerEffect.action : ServerEffect → Option ServerAction
  | .tcp message => message.toClient.map .write
  | .udp session message => sentEcho session message
  | .registered payload => some (.install payload)
  | .retired (some session) => some (.retire session.ofServer)
  | .preferred .udpQsp => some (.prefer true)
  | .recovering .retireOnly => some .silence
  | _ => none

def Causes (effect : ServerEffect) : ServerAction → Prop
  | .write m => ∃ message, effect = .tcp message ∧ message.toClient = some m
  | .echo p => effect = .udp p.registration.serverSession (.upgradeProbeAck p.upgradeId p.nonce)
  | .install r => effect = .registered r
  | .retire r => effect = .retired (some r.serverSession)
  | .prefer _ => effect = .preferred .udpQsp
  | .silence => effect = .recovering .retireOnly

theorem causes_of_action {effect : ServerEffect} {a : ServerAction}
    (h : effect.action = some a) : Causes effect a := by
  cases effect with
  | tcp message =>
    obtain ⟨m, hm, rfl⟩ := Option.map_eq_some_iff.mp h
    exact ⟨message, rfl, hm⟩
  | udp session message =>
    cases message <;> cases h
    rfl
  | registered payload =>
    cases h
    rfl
  | retired session =>
    cases session <;> cases h
    rfl
  | preferred transport =>
    cases transport <;> cases h
    rfl
  | recovering recovery =>
    cases recovery <;> cases h
    rfl
  | _ => cases h

def UdpClaim.input : UdpClaim → ServerInput
  | ⟨_, _, sender, .message (.upgradeProbe upgradeId nonce)⟩ =>
    .packet ⟨sender.ofClient, upgradeId, nonce⟩
  | _ => .tick

def SessionEvent.input : SessionEvent → ServerInput
  | .tcpMessage message => (message.toServer.map .message).getD .tick
  | .udp claim => claim.input
  | _ => .tick

theorem SessionEvent.eq_of_message {event : SessionEvent} {message : Message} {m : ClientMessage}
    (h : event.input = .message m) (hmessage : message.toServer = some m) :
    event = .tcpMessage message := by
  cases event with
  | tcpMessage other =>
    cases hother : other.toServer with
    | none => simp [SessionEvent.input, hother] at h
    | some m' =>
      obtain rfl : m' = m := by simpa [SessionEvent.input, hother] using h
      rw [Message.toServer_inj hmessage hother]
  | udp claim =>
    obtain ⟨peer, packetNumber, sender, payload⟩ := claim
    cases payload with
    | message other => cases other <;> cases h
    | _ => cases h
  | _ => cases h

theorem SessionEvent.eq_of_packet {event : SessionEvent}
    {p : Upgrade.Probe RegisterCidPayload UInt64} (h : event.input = .packet p) :
    ∃ peer packetNumber, event = .udp ⟨peer, packetNumber, p.registration.clientSession,
      .message (.upgradeProbe p.upgradeId p.nonce)⟩ := by
  cases event with
  | tcpMessage message => cases message <;> cases h
  | udp claim =>
    obtain ⟨peer, packetNumber, sender, payload⟩ := claim
    cases payload with
    | message message =>
      cases message <;> cases h
      exact ⟨peer, packetNumber, rfl⟩
    | _ => cases h
  | _ => cases h

def Env.TcpOpen (env : Env) : Prop := ∀ message, env.tcpWrite message = .done

/-- What links the session to its view: the stream can be written, and without an
attempt nothing of one is left. -/
structure ServerSession.Linked (s : ServerSession) : Prop where
  tcpAlive : s.tcpAlive = true
  writable : s.tcpWriteInterrupted = false
  clear : s.udpUpgrade.upgradeId = none →
    s.udpUpgrade.readySeen = false ∧ s.udpUpgrade.switchToUdpSent = false

def party : Abstraction ServerSession ServerEffect ServerView ServerAction :=
  ⟨ServerSession.Linked, ServerSession.view, ServerEffect.action⟩

/-- The steps that the protocol has for a server in the state of the session. -/
abbrev Steps (s : ServerSession) (input : ServerInput) : ServerView → List ServerAction → Prop :=
  Upgrade.ServerStep RegisterCidPayload.clientToServerCid s.view input

theorem ServerSession.linked_new (handle : SessionHandle) (allowedCiphers : List CipherSuite)
    (maxDataLen : Nat) (registry : SessionRegistry) :
    (ServerSession.new handle allowedCiphers maxDataLen registry).Linked :=
  ⟨rfl, rfl, fun _ => ⟨rfl, rfl⟩⟩

theorem ServerSession.view_new (handle : SessionHandle) (allowedCiphers : List CipherSuite)
    (maxDataLen : Nat) (registry : SessionRegistry) :
    (ServerSession.new handle allowedCiphers maxDataLen registry).view = .initial := rfl

/-! ## Parts that the view does not depend on -/

section Frames

variable {s : ServerSession}

theorem view_mapUdp {g : UdpSession → UdpSession} (hg : ∀ session, (g session).params = session.params) :
    (s.mapUdp g).view = s.view := by
  have hsession : (s.udpSession.map g).map (·.params.ofServer) =
      s.udpSession.map (·.params.ofServer) := by
    cases s.udpSession with
    | none => rfl
    | some session => simp [hg]
  simp [ServerSession.view, ServerSession.mapUdp, hsession]

theorem ServerSession.Linked.mapUdp (hs : s.Linked) (g : UdpSession → UdpSession) :
    (s.mapUdp g).Linked :=
  ⟨hs.tcpAlive, hs.writable, hs.clear⟩

theorem hides_clearSendSlab (hs : s.Linked) :
    party.Hides s (modify clearSendSlab : ServerM Unit) :=
  .modify (hs.mapUdp _) (view_mapUdp fun _ => rfl)

end Frames

/-! ## Writes -/

section Writes

variable {env : Env} {s : ServerSession}

theorem takes_sendTcpMessage (h : env.TcpOpen) (hs : s.Linked) (message : Message) :
    party.Takes s s (message.toClient.map .write).toList (sendTcpMessage env message) := by
  have hframe : party.Takes { s with tcpWriteInterrupted := true } s
      (message.toClient.map .write).toList (writeFrame env message) := by
    have hclear : { s with tcpWriteInterrupted := false } = s := by rw [← hs.writable]
    rw [writeFrame, h message]
    refine List.append_nil (message.toClient.map _).toList ▸ .bind .emit fun _ => ?_
    exact hclear ▸ .modify
  refine .get_bind ?_
  rw [if_neg (by simp [hs.writable])]
  exact .bind .modify fun _ => hframe

theorem hides_sendTcpMessage (h : env.TcpOpen) (hs : s.Linked) {message : Message}
    (hplain : message.toClient = none) : party.Hides s (sendTcpMessage env message) := by
  refine (takes_sendTcpMessage h hs message).shows hs ⟨rfl, ?_⟩
  rw [hplain]
  rfl

theorem hides_flushIfNeeded (hs : s.Linked) (flush : Option (Await IoError)) :
    party.Hides s (flushIfNeeded flush) := by
  refine .get_bind ?_
  split
  · unfold flushPending
    split
    · exact .pure hs
    split
    · exact .bind (hides_clearSendSlab hs) fun _ _ hs' => .pure hs'
    · exact .pure hs
    · exact .drop hs
  · exact .pure hs

theorem hides_flushUdpSession (hs : s.Linked) (message : Option Message) :
    party.Hides s (flushUdpSession env message) :=
  hides_flushIfNeeded hs _

theorem hides_appendToSlab (hs : s.Linked) (message : Message) :
    party.Hides s (modify (appendToSlab message) : ServerM Unit) :=
  .modify (hs.mapUdp _) (view_mapUdp fun _ => rfl)

theorem hides_afterAppend (hs : s.Linked) (message : Message) :
    party.Hides s (do
      modify (appendToSlab message)
      match ← flushIfNeeded (env.udpSend message).flushAfter with
      | some source => pure (some (UdpQspError.qsp (.io source)))
      | none => pure none) := by
  refine .bind (hides_appendToSlab hs message) fun _ s' hs' => ?_
  refine .bind (hides_flushIfNeeded hs' _) fun flushed s'' hs'' => ?_
  cases flushed <;> exact .pure hs''

theorem sentEcho_of_isPlain {message : Message} (h : message.isPlain = true)
    (session : QspSessionParams) : sentEcho session message = none := by
  cases message with
  | upgradeProbeAck upgradeId nonce => cases h
  | _ => rfl

theorem hides_queueUdpMessage (hs : s.Linked) {message : Message}
    (hplain : message.isPlain = true) : party.Hides s (queueUdpMessage env message) := by
  refine .get_bind ?_
  split
  · exact .pure hs
  split
  · exact .pure hs
  refine .bind (hides_flushIfNeeded hs _) fun flushed s' hs' => ?_
  cases flushed with
  | some source => exact .pure hs'
  | none =>
    exact .bind (.emit hs' (sentEcho_of_isPlain hplain _)) fun _ _ hs'' =>
      hides_afterAppend hs'' message

end Writes

/-! ## Preferring TCP -/

section PreferTcp

variable {env : Env} {s : ServerSession}

/-- TCP is preferred, and nothing is left to send on UDP. -/
def ServerSession.preferTcp (s : ServerSession) : ServerSession :=
  match s.activeTransport with
  | .tcp => s
  | .udpQsp => { clearSendSlab s with activeTransport := .tcp }

theorem takes_discardPendingSend : party.Takes s (clearSendSlab s) [] discardPendingSend := by
  refine .get_bind ?_
  split
  · next hnone =>
    have hsame : clearSendSlab s = s := by
      rw [clearSendSlab, ServerSession.mapUdp, hnone, Option.map_none, ← hnone]
    rw [hsame]
    exact .pure
  · exact .bind .emit fun _ => .modify

theorem takes_setActiveTransport_tcp :
    party.Takes s s.preferTcp [] (setActiveTransport .tcp) := by
  refine .bind .emit fun _ => .get_bind ?_
  unfold ServerSession.preferTcp
  cases ht : s.activeTransport with
  | tcp =>
    have hsame : { s with activeTransport := .tcp } = s := by rw [← ht]
    exact hsame ▸ .modify
  | udpQsp => exact .bind takes_discardPendingSend fun _ => .modify

theorem view_preferTcp : s.preferTcp.view = { s.view with udp := false } := by
  unfold ServerSession.preferTcp
  split
  · next ht => simp [ServerSession.view, ht]
  · have hslab : (clearSendSlab s).view = s.view := view_mapUdp fun _ => rfl
    exact congrArg (fun v : ServerView => { v with udp := false }) hslab

theorem ServerSession.Linked.preferTcp (hs : s.Linked) : s.preferTcp.Linked := by
  unfold ServerSession.preferTcp
  split
  · exact hs
  · exact ⟨hs.tcpAlive, hs.writable, hs.clear⟩

end PreferTcp

/-! ## Failures of the UDP path -/

/-- What a failure of the UDP path can come to: nothing that the protocol sees,
or the end of the UDP session and a request to fall back. -/
def Fails (f : UInt64) (v v' : ServerView) (acts : List ServerAction) : Prop :=
  Abstraction.Same v v' acts ∨ v' = v.retire.request f ∧ acts = v.retires ++ v.requests f

theorem Fails.step {f : UInt64} {v v' : ServerView} {acts : List ServerAction}
    (h : Fails f v v' acts) :
    Upgrade.ServerStep RegisterCidPayload.clientToServerCid v .tick v' acts := by
  rcases h with ⟨rfl, rfl⟩ | ⟨rfl, rfl⟩
  · exact .skip .tick trivial
  · exact .failed f

theorem steps_of_fails {s : ServerSession} {f : UInt64} {α : Type} {m : ServerM α}
    (hm : party.Shows (Fails f s.view) s m) : party.Shows (Steps s .tick) s m :=
  hm.mono fun _ _ => Fails.step

section Failures

variable {env : Env} {s : ServerSession}

theorem takes_retireUdpTransport :
    party.Takes s s.retireUdp s.view.retires retireUdpTransport := by
  refine .get_bind ?_
  rw [← List.append_nil s.view.retires]
  refine .bind ?_ fun _ => .modify
  have hretires : s.view.retires =
      (party.action (.retired (s.udpSession.map (·.params)))).toList := by
    rw [Upgrade.Server.retires, ServerSession.view]
    cases s.udpSession <;> rfl
  rw [hretires]
  exact .emit

theorem ServerSession.Linked.retireUdp (hs : s.Linked) : s.retireUdp.Linked :=
  ⟨hs.tcpAlive, hs.writable, fun _ => ⟨rfl, rfl⟩⟩

theorem view_retired : s.retireUdp.preferTcp.view = s.view.retire := by
  rw [view_preferTcp]
  rfl

def ServerSession.asked (s : ServerSession) (fallbackId : UInt64) : ServerSession :=
  { s with pendingTcpFallback := some (s.pendingTcpFallback.getD fallbackId) }

section

variable (h : env.TcpOpen) (hs : s.Linked)
include h hs

theorem takes_sendTcpFallbackRequest :
    party.Takes s (s.asked env.fallbackId) (s.view.requests env.fallbackId)
      (sendTcpFallbackRequest env) := by
  refine .get_bind ?_
  split
  · next f hf =>
    have hsame : s.asked env.fallbackId = s := by
      rw [ServerSession.asked, hf, Option.getD_some, ← hf]
    have hnone : (s.view.requests env.fallbackId : List ServerAction) = [] := by
      simp [Upgrade.Server.requests, ServerSession.view, hf]
    rw [hsame, hnone]
    exact .pure
  · next hf =>
    have hone : (s.view.requests env.fallbackId : List ServerAction) =
        [.write (.fallback env.fallbackId)] := by
      simp [Upgrade.Server.requests, ServerSession.view, hf]
    have hasked : s.asked env.fallbackId =
        { s with pendingTcpFallback := some env.fallbackId } := by
      rw [ServerSession.asked, hf, Option.getD_none]
    rw [hone, hasked]
    exact .bind (takes_sendTcpMessage h hs (.fallbackToTcp env.fallbackId)) fun _ => .modify

theorem shows_fallbackRequest {v : ServerView} (hview : s.view = v.retire)
    {acts : List ServerAction} (hacts : acts = v.retires) :
    party.Shows (fun v' acts' => Fails env.fallbackId v v' (acts ++ acts')) s
      (sendTcpFallbackRequest env) := by
  refine (takes_sendTcpFallbackRequest h hs).shows ⟨hs.tcpAlive, hs.writable, hs.clear⟩ (.inr ?_)
  refine ⟨?_, ?_⟩
  · exact congrArg (fun w : ServerView => w.request env.fallbackId) hview
  · rw [hacts, hview]
    rfl

/-- A failure that the client is told of. The message that was to be sent is no
part of the protocol. -/
theorem fails_recoverFromUdpError {message : Option Message}
    (hplain : ∀ m ∈ message, m.toClient = none) {recovery : UdpFailureRecovery}
    (htold : recovery ≠ .retireOnly) (err : UdpQspError) :
    party.Shows (Fails env.fallbackId s.view) s (recoverFromUdpError env message recovery err) := by
  refine .takes_bind takes_retireUdpTransport fun _ => .get_bind ?_
  rw [if_pos hs.retireUdp.tcpAlive]
  refine .takes_bind takes_setActiveTransport_tcp fun _ => .takes_bind .emit fun _ => ?_
  have hrequest := shows_fallbackRequest h hs.retireUdp.preferTcp view_retired rfl
  cases recovery with
  | retireOnly => exact absurd rfl htold
  | signalTcpFallback => exact hrequest
  | retryMessageOnTcp =>
    refine .bind_hides hrequest fun _ s' hs' => ?_
    cases message with
    | none => exact .pure hs'
    | some message => exact hides_sendTcpMessage h hs' (hplain message rfl)

theorem fails_sendUdpMessage {message : Message} (hplain : message.isPlain = true)
    (htcp : message.toClient = none)
    {recovery : UdpFailureRecovery} (htold : recovery ≠ .retireOnly) :
    party.Shows (Fails env.fallbackId s.view) s (sendUdpMessage env message recovery) := by
  refine .hides_bind (hides_queueUdpMessage hs hplain) (.inl ⟨rfl, rfl⟩) fun queued s' hs' hview => ?_
  cases queued with
  | none => exact .pure hs' (.inl ⟨hview, rfl⟩)
  | some err =>
    rw [show s.view = s'.view from hview.symm]
    refine fails_recoverFromUdpError h hs' ?_ htold err
    rintro m ⟨⟩
    exact htcp

end

theorem flushUdpSession_of_none (hnone : s.udpSession = none) (message : Option Message) :
    Triple (flushUdpSession env message) s fun r s' out => r = .ok none ∧ s' = s ∧ out = [] := by
  simp [flushUdpSession, flushIfNeeded, hnone]

theorem fails_sendUdpMessageAndFlush (h : env.TcpOpen) (hs : s.Linked) {message : Message}
    (hplain : message.isPlain = true) (htcp : message.toClient = none)
    {recovery : UdpFailureRecovery} (htold : recovery ≠ .retireOnly) :
    party.Shows (Fails env.fallbackId s.view) s (sendUdpMessageAndFlush env message recovery) := by
  refine .bind (fails_sendUdpMessage h hs hplain htcp htold) (fun _ _ h => h) ?_
  rintro _ s' acts hs' (⟨hview, rfl⟩ | ⟨hview, rfl⟩)
  · refine .hides_bind (hides_flushUdpSession hs' _) (.inl ⟨hview, rfl⟩) fun flushed s'' hs'' hflush => ?_
    rw [show s.view = s''.view from (hflush.trans hview).symm]
    cases flushed with
    | none => exact .pure hs'' (.inl ⟨rfl, rfl⟩)
    | some source =>
      refine fails_recoverFromUdpError h hs'' ?_ htold _
      rintro m ⟨⟩
      exact htcp
  · -- the session is gone after the first failure
    have hnone : s'.udpSession = none := by
      have hsession := congrArg Upgrade.Server.session hview
      simpa [party, ServerSession.view, Upgrade.Server.request, Upgrade.Server.retire] using hsession
    refine Triple.bind (flushUdpSession_of_none hnone _) ?_ ?_
    · rintro _ _ _ ⟨hok, rfl, rfl⟩
      cases hok
      exact ⟨hs', .inr ⟨hview, List.append_nil _⟩⟩
    · rintro e _ _ ⟨hok, -⟩
      cases hok

end Failures

end Slt.Server
