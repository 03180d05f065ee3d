import Slt.Client.Session
import Slt.Lib.Simulation
import Slt.Proto.View

/-!
# The client session as the upgrade protocol sees it

`view` is the client of the upgrade protocol that a session stands for, and
`action` says which effects the protocol knows. While TCP stays open, a failure
of the UDP path comes to nothing or to a fallback, whichever handler it happens
in.
-/

namespace Slt.Client

open Lib Lib.Handler Proto

/-! ## The view of a session -/

def UdpState.view : UdpState → Upgrade.Registration RegisterCidPayload
  | .disabled => .none
  | .needDiscovery => .none
  | .pending _ none => .none
  | .pending _ (some registration) => .inFlight registration.prepared.payload
  | .active transport => .active transport.ofClient

def UdpUpgradeState.view : UdpUpgradeState → Upgrade.Attempt UInt64
  | .disabled => .idle
  | .idle => .idle
  | .upgrading attempt =>
    if attempt.readySent then .ready attempt.upgradeId attempt.probeNonce
    else .probing attempt.upgradeId attempt.probeNonce
  | .awaitingSwitchOk upgradeId _ => .awaiting upgradeId
  | .tcpOnlyBlockedUdp _ => .idle

theorem UdpUpgradeState.view_upgrading_ne (attempt : Upgrading) (upgradeId : UInt64) :
    (upgrading attempt).view ≠ .awaiting upgradeId := by
  cases h : attempt.readySent <;> simp [UdpUpgradeState.view, h]

theorem UdpUpgradeState.view_eq_awaiting {state : UdpUpgradeState} {upgradeId : UInt64}
    (h : state.view = .awaiting upgradeId) :
    ∃ deadline, state = .awaitingSwitchOk upgradeId deadline := by
  cases state with
  | upgrading attempt => exact absurd h (view_upgrading_ne attempt upgradeId)
  | awaitingSwitchOk id deadline =>
    cases h
    exact ⟨deadline, rfl⟩
  | _ => cases h

def ClientSession.view (s : ClientSession) : ClientView where
  udp := s.activeTransport.isUdp
  registration := s.udpState.view
  attempt := s.udpUpgrade.view
  pending := s.pendingTcpFallback
  lastPeer := s.lastPeerFallbackId

/-- Only probes matter to the protocol among the packets. -/
def sentProbe (transport : QspSessionParams) : Message → Option ClientAction
  | .upgradeProbe upgradeId nonce => some (.probe ⟨transport.ofClient, upgradeId, nonce⟩)
  | _ => none

def ClientEventKind.action : ClientEventKind → Option ClientAction
  | .udpUpgradeStarted upgradeId => some (.start upgradeId)
  | _ => none

def ClientEffect.action : ClientEffect → Option ClientAction
  | .tcp message => message.toServer.map .write
  | .udp transport message => sentProbe transport message
  | .observe event => event.action
  | _ => none

def Causes (effect : ClientEffect) : ClientAction → Prop
  | .write m => ∃ message, effect = .tcp message ∧ message.toServer = some m
  | .probe p => effect = .udp p.registration.clientSession (.upgradeProbe p.upgradeId p.nonce)
  | .start upgradeId => effect = .observe (.udpUpgradeStarted upgradeId)

theorem causes_of_action {effect : ClientEffect} {a : ClientAction}
    (h : effect.action = some a) : Causes effect a := by
  cases effect with
  | tcp message =>
    obtain ⟨m, hm, rfl⟩ := Option.map_eq_some_iff.mp h
    exact ⟨message, rfl, hm⟩
  | udp transport message =>
    cases message <;> cases h
    rfl
  | observe event =>
    cases event <;> cases h
    rfl
  | _ => cases h

def SessionEvent.input : SessionEvent → ClientInput
  | .tcpMessage message => (message.toClient.map .message).getD .tick
  | .udpResult (.ok ⟨sender, .upgradeProbeAck upgradeId nonce⟩) =>
    .packet ⟨sender.ofServer, upgradeId, nonce⟩
  | _ => .tick

theorem SessionEvent.eq_of_message {event : SessionEvent} {message : Message} {m : ServerMessage}
    (hm : m ≠ .registerFail) (h : event.input = .message m) (hmessage : message.toClient = some m) :
    event = .tcpMessage message := by
  cases event with
  | tcpMessage other =>
    cases hother : other.toClient with
    | none => simp [SessionEvent.input, hother] at h
    | some m' =>
      obtain rfl : m' = m := by simpa [SessionEvent.input, hother] using h
      rw [Message.toClient_inj hm hmessage hother]
  | udpResult result =>
    cases result with
    | error err => cases h
    | ok packet =>
      obtain ⟨sender, other⟩ := packet
      cases other <;> cases h
  | _ => cases h

theorem SessionEvent.eq_of_packet {event : SessionEvent}
    {p : Upgrade.Probe RegisterCidPayload UInt64} (h : event.input = .packet p) :
    event = .udpResult (.ok ⟨p.registration.serverSession,
      .upgradeProbeAck p.upgradeId p.nonce⟩) := by
  cases event with
  | tcpMessage message => cases message <;> cases h
  | udpResult result =>
    cases result with
    | error err => cases h
    | ok packet =>
      obtain ⟨sender, message⟩ := packet
      cases message <;> cases h
      rfl
  | _ => cases h

theorem UdpState.eq_of_view_active {state : UdpState} {payload : RegisterCidPayload}
    (h : state.view = .active payload) : state = .active payload.clientSession := by
  cases state with
  | active transport =>
    cases h
    rfl
  | pending ids registration => cases registration <;> cases h
  | _ => cases h

def Env.TcpOpen (env : Env) : Prop := ∀ message, env.tcpWrite message = .done

/-- What links the session to its view, besides the invariant of the session: a
registration on its way is the one that its transport is made from, and the path
is validated before it is announced. -/
structure ClientSession.Linked (s : ClientSession) : Prop where
  tcpAlive : s.tcpAlive = true
  enabled : s.udpUpgrade = .disabled → s.udpState = .disabled
  acked : ∀ attempt, s.udpUpgrade = .upgrading attempt → attempt.readySent = true →
    attempt.probeAcked = true
  prepared : ∀ ids registration, s.udpState = .pending ids (some registration) →
    registration.prepared.session = some registration.prepared.payload.clientSession ∧
      registration.prepared.payload.clientToServerCid = ids.dcid

def party : Abstraction ClientSession ClientEffect ClientView ClientAction :=
  ⟨ClientSession.Linked, ClientSession.view, ClientEffect.action⟩

/-- The steps that the protocol has for a client in the state of the session. -/
abbrev Steps (s : ClientSession) (input : ClientInput) : ClientView → List ClientAction → Prop :=
  Upgrade.ClientStep RegisterCidPayload.clientToServerCid s.view input

theorem ClientSession.linked_new (config : ClientConfig) : (ClientSession.new config).Linked := by
  constructor <;> cases h : config.upgradeEnabled <;> simp [ClientSession.new, h]

theorem ClientSession.view_new (config : ClientConfig) :
    (ClientSession.new config).view = .initial := by
  cases h : config.upgradeEnabled <;>
    simp [ClientSession.new, ClientSession.view, h, Upgrade.Client.initial, UdpState.view,
      UdpUpgradeState.view]

/-! ## Parts that the view does not depend on -/

section Frames

variable {s : ClientSession}

theorem ClientSession.Linked.upgrade (h : s.Linked) {state : UdpUpgradeState}
    (hon : state ≠ .disabled)
    (hacked : ∀ attempt, state = .upgrading attempt → attempt.readySent = true →
      attempt.probeAcked = true) :
    { s with udpUpgrade := state }.Linked :=
  ⟨h.tcpAlive, fun hd => absurd hd hon, hacked, h.prepared⟩

end Frames

/-! ## Rescheduling -/

/-- The session is back at discovery, or stays without UDP. -/
structure Reschedules (s s' : ClientSession) : Prop where
  view : s'.view = { s.view with registration := .none, attempt := .idle }
  linked : s.Linked → s'.Linked

section Rescheduling

variable {s : ClientSession}

theorem reschedules_disableUdp : Reschedules s s.disableUdp where
  view := rfl
  linked h := ⟨h.tcpAlive, fun _ => rfl, nofun, nofun⟩

theorem reschedules_needDiscovery (retained : Option QspSessionParams) (activity : Option Nat) :
    Reschedules s { s with udpUpgrade := .idle, udpState := .needDiscovery,
                           retainedUdpTransport := retained,
                           lastAuthenticatedUdpActivity := activity } where
  view := rfl
  linked h := ⟨h.tcpAlive, nofun, nofun, nofun⟩

theorem reschedules_scheduleDiscoveryRetryWithReceivePath (keep : Bool) :
    Reschedules s (s.scheduleDiscoveryRetryWithReceivePath keep) := by
  unfold ClientSession.scheduleDiscoveryRetryWithReceivePath
  split
  · exact reschedules_disableUdp
  · split
    · split <;> exact reschedules_needDiscovery _ _
    · exact reschedules_needDiscovery none none

theorem reschedules_scheduleDiscoveryNow : Reschedules s s.scheduleDiscoveryNow := by
  unfold ClientSession.scheduleDiscoveryNow
  split
  · exact reschedules_disableUdp
  · exact reschedules_needDiscovery none none

end Rescheduling

/-! ## Writes on the stream -/

section Writes

variable {env : Env} {s : ClientSession}

theorem takes_writeTcpMessage (h : env.TcpOpen) (message : Message) :
    party.Takes s s (message.toServer.map .write).toList (writeTcpMessage env message) := by
  rw [writeTcpMessage, h message]
  exact .emit

theorem hides_writeTcpMessage (h : env.TcpOpen) (hs : s.Linked) {message : Message}
    (hplain : message.toServer = none) : party.Hides s (writeTcpMessage env message) := by
  rw [writeTcpMessage, h message]
  exact .emit hs (by simp [party, ClientEffect.action, hplain])

theorem hides_inconsistent {α : Type} (hs : s.Linked) (detail : String) :
    party.Hides s (inconsistent detail : ClientM α) :=
  .bind (.emit hs rfl) fun _ _ hs' => .throw hs'

/-! ## Writes on UDP -/

theorem sentProbe_of_isPlain {message : Message} (h : message.isPlain = true)
    (transport : QspSessionParams) : sentProbe transport message = none := by
  cases message with
  | upgradeProbe upgradeId nonce => cases h
  | _ => rfl

theorem hides_writeUdpMessage (hs : s.Linked) {message : Message} (hplain : message.isPlain = true)
    (transport : QspSessionParams) : party.Hides s (writeUdpMessage env transport message) := by
  refine .bind (.emit hs (sentProbe_of_isPlain hplain transport)) fun _ s' hs' => ?_
  split
  · exact .pure hs'
  · exact .throw hs'
  · exact .drop hs'

theorem hides_flushUdp (hs : s.Linked) (message : Option Message) :
    party.Hides s (flushUdp env message) := by
  unfold flushUdp
  split
  · exact .pure hs
  · exact .throw hs
  · exact .drop hs

theorem hides_writeUdpMessageAndFlush (hs : s.Linked) {message : Message}
    (hplain : message.isPlain = true) : party.Hides s (writeUdpMessageAndFlush env message) := by
  refine .get_bind ?_
  split
  · exact hides_inconsistent hs _
  · exact .bind (hides_writeUdpMessage hs hplain _) fun _ _ hs' => hides_flushUdp hs' _

theorem hides_flushUdpTransport (hs : s.Linked) : party.Hides s (flushUdpTransport env) := by
  refine .get_bind ?_
  split
  · exact hides_inconsistent hs _
  · exact hides_flushUdp hs none

theorem hides_writeActiveMessage (h : env.TcpOpen) (hs : s.Linked) {message : Message}
    (hplain : message.isPlain = true) (htcp : message.toServer = none) :
    party.Hides s (writeActiveMessage env message) := by
  refine .get_bind ?_
  split
  · exact hides_writeTcpMessage h hs htcp
  · split
    · exact hides_inconsistent hs _
    · exact hides_writeUdpMessage hs hplain _

theorem hides_sendToTunOrShutdown (hs : s.Linked) (packet : Bytes) :
    party.Hides s (sendToTunOrShutdown env packet) := by
  unfold sendToTunOrShutdown
  split
  · exact .pure hs
  · exact .pure hs
  · exact .drop hs
  · exact .bind (.emit hs rfl) fun _ _ hs' => .pure hs'

end Writes

/-! ## Falling back -/

/-- What a failure of the UDP path can come to: nothing that the protocol sees,
or a request to fall back and a new discovery. -/
def Recovers (f : UInt64) (v v' : ClientView) (acts : List ClientAction) : Prop :=
  Abstraction.Same v v' acts ∨
    v' = { v.request f with registration := .none, attempt := .idle } ∧ acts = v.requests f

theorem Recovers.step {f : UInt64} {v v' : ClientView} {acts : List ClientAction}
    (h : Recovers f v v' acts) :
    Upgrade.ClientStep RegisterCidPayload.clientToServerCid v .tick v' acts := by
  rcases h with ⟨rfl, rfl⟩ | ⟨rfl, rfl⟩
  · exact .skip .tick trivial
  · exact .fallBack f

theorem steps_of_recovers {s : ClientSession} {f : UInt64} {α : Type} {m : ClientM α}
    (hm : party.Shows (Recovers f s.view) s m) : party.Shows (Steps s .tick) s m :=
  hm.mono fun _ _ => Recovers.step

section FallingBack

variable {env : Env} {s : ClientSession}

theorem takes_discardPendingUdpSendForFallback :
    party.Takes s s [] discardPendingUdpSendForFallback := by
  refine .get_bind ?_
  split
  · exact .pure
  · exact .emit

theorem takes_leaveUdp (reason : TransportChangeReason) :
    party.Takes s { s with activeTransport := .tcp } [] (leaveUdp reason) := by
  refine .get_bind ?_
  split
  · next ht =>
    have hsame : { s with activeTransport := .tcp } = s := by rw [← ht]
    rw [hsame]
    exact .pure
  · exact .bind .modify fun _ => .emit

def ClientSession.asked (s : ClientSession) (fallbackId : UInt64) : ClientSession :=
  { s with pendingTcpFallback := some (s.pendingTcpFallback.getD fallbackId) }

theorem takes_writeFallbackRequest (h : env.TcpOpen) :
    party.Takes s (s.asked env.fallbackId) (s.view.requests env.fallbackId)
      (writeFallbackRequest env) := by
  refine .get_bind ?_
  split
  · next f hf =>
    have hsame : s.asked env.fallbackId = s := by
      rw [ClientSession.asked, hf, Option.getD_some, ← hf]
    have hnone : s.view.requests env.fallbackId = [] := by
      simp [Upgrade.Client.requests, ClientSession.view, hf]
    rw [hsame, hnone]
    exact .pure
  · next hf =>
    have hone : s.view.requests env.fallbackId = [.write (.fallback env.fallbackId)] := by
      simp [Upgrade.Client.requests, ClientSession.view, hf]
    have hasked : s.asked env.fallbackId =
        { s with pendingTcpFallback := some env.fallbackId } := by
      rw [ClientSession.asked, hf, Option.getD_none]
    rw [hone, hasked]
    exact .bind (takes_writeTcpMessage h (.fallbackToTcp env.fallbackId)) fun _ => .modify

theorem takes_requestTcpFallback (h : env.TcpOpen) (hs : s.Linked)
    (reason : TransportChangeReason) :
    party.Takes s { s.asked env.fallbackId with activeTransport := .tcp }
      (s.view.requests env.fallbackId) (requestTcpFallback env reason) := by
  refine .get_bind ?_
  rw [if_pos hs.tcpAlive, ← List.append_nil (s.view.requests _)]
  refine .bind (takes_writeFallbackRequest h) fun _ => ?_
  exact .bind takes_discardPendingUdpSendForFallback fun _ => takes_leaveUdp reason

theorem ClientSession.Linked.requested (hs : s.Linked) (fallbackId : UInt64) :
    { s.asked fallbackId with activeTransport := .tcp }.Linked :=
  ⟨hs.tcpAlive, hs.enabled, hs.acked, hs.prepared⟩

theorem recovers_requestTcpFallback (h : env.TcpOpen) (hs : s.Linked)
    (reason : TransportChangeReason) {g : ClientSession → ClientSession}
    (hg : ∀ s, Reschedules s (g s)) {α : Type} (a : α) :
    party.Shows (Recovers env.fallbackId s.view) s (do
      requestTcpFallback env reason
      modify g
      pure a) := by
  refine .takes_bind (takes_requestTcpFallback h hs reason) fun _ => ?_
  have hresched := hg { s.asked env.fallbackId with activeTransport := .tcp }
  refine .modify_bind (.pure (hresched.linked (hs.requested _)) (.inr ⟨?_, List.append_nil _⟩))
  exact hresched.view

section

variable (h : env.TcpOpen) (hs : s.Linked) (err : SessionError)
include h hs

theorem recovers_handleUdpError :
    party.Shows (Recovers env.fallbackId s.view) s (handleUdpError env err) := by
  refine .get_bind ?_
  split
  · exact .pure hs (.inl ⟨rfl, rfl⟩)
  · split
    · exact .modify_bind (.pure ⟨hs.tcpAlive, hs.enabled, hs.acked, hs.prepared⟩
        (.inl ⟨rfl, rfl⟩))
    · rw [if_neg (by simp [hs.tcpAlive])]
      exact recovers_requestTcpFallback h hs .udpError
        (fun _ => reschedules_scheduleDiscoveryRetryWithReceivePath false) true

theorem recovers_handleUdpEventError :
    party.Shows (Recovers env.fallbackId s.view) s (handleUdpEventError env err) := by
  refine .bind_hides (recovers_handleUdpError h hs err) fun alive s' hs' => ?_
  cases alive <;> exact .pure hs'

theorem recovers_recoverFromUdpWrite :
    party.Shows (Recovers env.fallbackId s.view) s (recoverFromUdpWrite env err) := by
  unfold recoverFromUdpWrite
  split
  · refine .bind_hides (recovers_handleUdpError h hs err) fun alive s' hs' => ?_
    cases alive with
    | true => exact .pure hs'
    | false => exact .throw hs'
  · exact .throw hs (.inl ⟨rfl, rfl⟩)

end

theorem recovers_of_attempt {α β : Type} {m : ClientM α}
    (hm : party.Hides s m) {f : Except SessionError α → ClientM β}
    (hok : ∀ a s', s'.Linked → party.Hides s' (f (.ok a)))
    (herror : ∀ err s', s'.Linked →
      party.Shows (Recovers env.fallbackId s'.view) s' (f (.error err))) :
    party.Shows (Recovers env.fallbackId s.view) s (attempt m >>= f) := by
  refine .hides_bind (.attempt hm) (.inl ⟨rfl, rfl⟩) fun result s' hs' hview => ?_
  rw [show s.view = s'.view from hview.symm]
  cases result with
  | ok a => exact (hok a s' hs').shows (.inl ⟨rfl, rfl⟩)
  | error err => exact herror err s' hs'

theorem recovers_writeControlMessage (h : env.TcpOpen) (hs : s.Linked) {message : Message}
    (hplain : message.isPlain = true) (htcp : message.toServer = none) :
    party.Shows (Recovers env.fallbackId s.view) s (writeControlMessage env message) := by
  refine .get_bind ?_
  split
  · exact (hides_writeTcpMessage h hs htcp).shows (.inl ⟨rfl, rfl⟩)
  · refine recovers_of_attempt (hides_writeUdpMessageAndFlush hs hplain) ?_ ?_
    · exact fun _ _ hs' => .pure hs'
    · intro err s' hs'
      exact .bind_hides (recovers_recoverFromUdpWrite h hs' err) fun _ _ hs'' =>
        hides_writeTcpMessage h hs'' htcp

theorem recovers_sendCloseBestEffort (h : env.TcpOpen) (hs : s.Linked) (code : CloseCode) :
    party.Shows (Recovers env.fallbackId s.view) s (sendCloseBestEffort env code) := by
  have hclose : party.Shows (Recovers env.fallbackId s.view) s
      (writeControlMessage env (.close code)) := recovers_writeControlMessage h hs rfl rfl
  exact .bind_hides (.timeout _ (.attempt hclose)) fun _ _ hs' => .pure hs'

theorem recovers_handleTunPacket (h : env.TcpOpen) (hs : s.Linked) (packet : Bytes) :
    party.Shows (Recovers env.fallbackId s.view) s (handleTunPacket env packet) := by
  have hdata (s' : ClientSession) (hs' : s'.Linked) :
      party.Hides s' (writeTcpMessage env (.data packet)) := hides_writeTcpMessage h hs' rfl
  refine .get_bind ?_
  split
  · exact .pure hs (.inl ⟨rfl, rfl⟩)
  · split
    · exact .pure hs (.inl ⟨rfl, rfl⟩)
    · refine recovers_of_attempt (hides_writeActiveMessage h hs rfl rfl) ?_ ?_
      · exact fun _ _ hs' => .pure hs'
      · intro err s' hs'
        cases s.activeTransport with
        | tcp => exact .throw hs' (.inl ⟨rfl, rfl⟩)
        | udpQsp =>
          refine .bind_hides (recovers_recoverFromUdpWrite h hs' err) fun _ s'' hs'' => ?_
          exact .bind (hdata s'' hs'') fun _ _ hs''' => .pure hs'''

end FallingBack

end Slt.Client
