import Slt.Client.Invariant
import Slt.Client.View

/-!
# The client session refines the client of the protocol

Each event of the session loop is one step of the client of the upgrade
protocol, as long as TCP stays open and packets open only under the keys they
were protected with. `Inv` is used where the session has to be in a state for
an event to matter.
-/

namespace Slt.Client

open Lib Lib.Handler Proto

variable {env : Env} {s : ClientSession}

/-! ## Registration -/

theorem prepareUdpQspRegistration_ok {ids : QuicIds} {cipher : CipherSuite}
    {prepared : PreparedUdpQspRegistration}
    (h : prepareUdpQspRegistration env ids cipher = .ok prepared) :
    prepared.session = some prepared.payload.clientSession ∧
      prepared.payload.clientToServerCid = ids.dcid := by
  unfold prepareUdpQspRegistration at h
  dsimp only at h
  split at h
  · cases h
  · split at h <;> cases h
    exact ⟨rfl, rfl⟩

theorem ClientSession.Linked.setPending (h : s.Linked) (hon : s.udpState ≠ .disabled)
    (ids : QuicIds) (registration : Option PendingUdpQspRegistration)
    (hprepared : ∀ r ∈ registration, r.prepared.session = some r.prepared.payload.clientSession ∧
      r.prepared.payload.clientToServerCid = ids.dcid) :
    { s with udpState := .pending ids registration }.Linked where
  tcpAlive := h.tcpAlive
  enabled hd := absurd (h.enabled hd) hon
  acked := h.acked
  prepared _ r hr := by
    cases hr
    exact hprepared r rfl

theorem ClientSession.Linked.scheduleRegistrationRetry (h : s.Linked) :
    s.scheduleRegistrationRetry.Linked := by
  unfold ClientSession.scheduleRegistrationRetry
  split
  · next ids r hu =>
    refine h.setPending (by rw [hu]; exact nofun) ids none ?_
    exact fun _ hr => nomatch hr
  · exact h

theorem view_scheduleRegistrationRetry {ids : QuicIds}
    {registration : Option PendingUdpQspRegistration}
    (hu : s.udpState = .pending ids registration) :
    s.scheduleRegistrationRetry.view = { s.view with registration := .none } := by
  simp [ClientSession.scheduleRegistrationRetry, hu, ClientSession.view, UdpState.view]

theorem hides_handleRegistrationSetupFailure (hs : s.Linked) {ids : QuicIds}
    (hu : s.udpState = .pending ids none) (err : SessionError) :
    party.Hides s (handleRegistrationSetupFailure err) := by
  have hview : s.scheduleRegistrationRetry.view = s.view := by
    rw [view_scheduleRegistrationRetry hu]
    simp [ClientSession.view, hu, UdpState.view]
  refine .get_bind ?_
  split
  · exact .pure hs
  · refine .takes_bind .emit fun _ => ?_
    exact .modify_bind (.pure hs.scheduleRegistrationRetry ⟨hview, rfl⟩)

theorem steps_attemptUdpRegistration (h : env.TcpOpen) (hs : s.Linked) :
    party.Shows (Steps s .tick) s (attemptUdpRegistration env) := by
  refine .get_bind ?_
  split
  · next ids hu =>
    split
    · next err _ =>
      exact (hides_handleRegistrationSetupFailure hs hu err).shows (.skip .tick trivial)
    · next prepared hp =>
      have htrack (r : PendingUdpQspRegistration) :
          s.trackRegistration r = { s with udpState := .pending ids (some r) } := by
        simp [ClientSession.trackRegistration, hu]
      refine .takes_bind (takes_writeTcpMessage h _) fun _ => .modify_bind ?_
      rw [htrack]
      refine .takes_bind .emit fun _ => .pure ?_ ?_
      · refine hs.setPending (by rw [hu]; exact nofun) ids _ ?_
        rintro r ⟨⟩
        exact prepareUdpQspRegistration_ok hp
      · exact .register prepared.payload (by simp [ClientSession.view, hu, UdpState.view])
  · exact .pure hs (.skip .tick trivial)

theorem steps_handleRegistrationTimeout (hs : s.Linked) :
    party.Shows (Steps s .tick) s handleRegistrationTimeout := by
  refine .get_bind ?_
  split
  · next ids r hu =>
    split
    · exact .pure hs (.skip .tick trivial)
    · refine .takes_bind .emit fun _ => .modify_bind (.pure hs.scheduleRegistrationRetry ?_)
      rw [show party.view s.scheduleRegistrationRetry = _ from view_scheduleRegistrationRetry hu]
      exact .expire r.prepared.payload (by simp [ClientSession.view, hu, UdpState.view])
  · exact .pure hs (.skip .tick trivial)

theorem shows_startUdpUpgradeAttempt (hs : s.Linked) {transport : QspSessionParams}
    (hu : s.udpState = .active transport) (ht : s.activeTransport = .tcp)
    (hon : s.udpUpgrade ≠ .disabled) :
    party.Shows (fun v acts =>
        v = { s.view with attempt := .probing env.upgradeId env.probeNonce } ∧
          acts = [.start env.upgradeId]) s (startUdpUpgradeAttempt env) := by
  refine .get_bind ?_
  split
  · contradiction
  · refine .modify_bind (Abstraction.Takes.emit.shows ?_ ⟨rfl, rfl⟩)
    exact hs.upgrade nofun (by rintro _ ⟨⟩ hr; cases hr)
  · simp_all
  · simp_all

theorem ClientSession.Linked.setActive (h : s.Linked) (hon : s.udpState ≠ .disabled)
    (transport : QspSessionParams) :
    { s with udpState := .active transport, retainedUdpTransport := none,
             lastAuthenticatedUdpActivity := none }.Linked :=
  ⟨h.tcpAlive, fun hd => absurd (h.enabled hd) hon, h.acked, nofun⟩

theorem steps_handleRegisterOk (hs : s.Linked) (hinv : s.Inv) (clientToServerCid : Cid) :
    party.Shows (Steps s (.message (.registerOk clientToServerCid))) s
      (handleRegisterOk env clientToServerCid) := by
  refine .get_bind ?_
  split
  · next ids r hu =>
    obtain ⟨hsession, hcid⟩ := hs.prepared ids r hu
    have hdisabled : s.udpState ≠ .disabled := by rw [hu]; exact nofun
    have htcp : s.activeTransport = .tcp := by
      refine hinv.tcp_of_not_active ?_
      rintro ⟨_, ha⟩
      cases hu.symm.trans ha
    split
    · exact .throw hs (.skip _ trivial)
    · next hsame =>
      rw [hsession]
      refine .modify_bind (.takes_bind .emit fun _ => ?_)
      have hstart := @shows_startUdpUpgradeAttempt env _
        (hs.setActive hdisabled r.prepared.payload.clientSession) _ rfl htcp
        fun hd => hdisabled (hs.enabled hd)
      refine .bind_hides (hstart.mono ?_) fun _ _ hs' => .pure hs'
      rintro _ _ ⟨rfl, rfl⟩
      obtain rfl : clientToServerCid = r.prepared.payload.clientToServerCid := by
        rw [hcid, not_not.mp hsame]
      exact .registered r.prepared.payload env.upgradeId env.probeNonce
        (by simp [ClientSession.view, hu, UdpState.view])
  · exact .pure hs (.skip _ trivial)

theorem steps_retryRejectedRegistration (hs : s.Linked) {ids : QuicIds}
    {r : PendingUdpQspRegistration} (hu : s.udpState = .pending ids (some r))
    (code : RegisterFailCode) :
    party.Shows (Steps s (.message .registerFail)) s (retryRejectedRegistration code) := by
  refine .takes_bind .emit fun _ => .modify_bind (.pure hs.scheduleRegistrationRetry ?_)
  rw [show party.view s.scheduleRegistrationRetry = _ from view_scheduleRegistrationRetry hu]
  exact .refused r.prepared.payload (by simp [ClientSession.view, hu, UdpState.view])

theorem steps_handleRegisterFail (hs : s.Linked) (code : RegisterFailCode) :
    party.Shows (Steps s (.message .registerFail)) s (handleRegisterFail env code) := by
  refine .get_bind ?_
  split
  · next ids r hu =>
    split
    · have hs' : { s with udpCipherPolicy := autoFallbackPolicy env }.Linked :=
        ⟨hs.tcpAlive, hs.enabled, hs.acked, hs.prepared⟩
      exact .modify_bind (steps_retryRejectedRegistration hs' hu code)
    · split
      · exact .pure hs (.skip _ trivial)
      · exact steps_retryRejectedRegistration hs hu code
  · exact .pure hs (.skip _ trivial)

theorem ClientSession.Inv.view_idle (hinv : s.Inv) (hn : ¬ s.udpState.IsActive) :
    s.udpUpgrade.view = .idle := by
  have hnone := hinv.no_attempt hn
  cases hup : s.udpUpgrade with
  | disabled => rfl
  | idle => rfl
  | _ => exact absurd (by rw [hup]; trivial) hnone

theorem hides_handleDiscoveryResult (hs : s.Linked) (hattempt : s.udpUpgrade.view = .idle)
    (hu : s.udpState = .needDiscovery) (ids : Option QuicIds) :
    party.Hides s (handleDiscoveryResult ids) := by
  cases ids with
  | some ids =>
    refine .modify_bind (.pure ?_ ⟨?_, rfl⟩)
    · refine hs.setPending (by rw [hu]; exact nofun) ids none ?_
      exact fun _ hr => nomatch hr
    · simp [party, ClientSession.view, hu, UdpState.view]
  | none =>
    refine .takes_bind .emit fun _ => .get_bind ?_
    split
    · exact .pure hs ⟨rfl, rfl⟩
    · have hresched : Reschedules s s.scheduleDiscoveryRetry :=
        reschedules_scheduleDiscoveryRetryWithReceivePath true
      refine .modify_bind (.pure (hresched.linked hs) ⟨hresched.view.trans ?_, rfl⟩)
      simp [party, ClientSession.view, hu, hattempt, UdpState.view]

theorem steps_handleUdpReconnectTick (h : env.TcpOpen) (hs : s.Linked) :
    party.Shows (Steps s .tick) s (handleUdpReconnectTick env) := by
  refine .get_bind ?_
  split
  · refine .takes_bind .emit fun _ => .modify_bind (.pure ?_ (.skip .tick trivial))
    exact ⟨hs.tcpAlive, hs.enabled, hs.acked, hs.prepared⟩
  · exact steps_attemptUdpRegistration h hs
  · exact .pure hs (.skip .tick trivial)

/-! ## The upgrade handshake -/

theorem ClientSession.Linked.blocked (h : s.Linked) (retryAt : Nat) :
    { s with udpUpgrade := .tcpOnlyBlockedUdp retryAt }.Linked :=
  h.upgrade nofun nofun

theorem steps_handleUdpUpgradeTimeout (hs : s.Linked)
    (hquiet : ∀ upgradeId, s.udpUpgrade.view ≠ .awaiting upgradeId) :
    party.Shows (Steps s .tick) s (handleUdpUpgradeTimeout env) := by
  refine .get_bind ?_
  split
  · exact .pure hs (.skip .tick trivial)
  · exact .modify_bind (.pure (hs.blocked _) (.giveUp hquiet))

theorem steps_abandon (h : env.TcpOpen) (hs : s.Linked) {upgradeId : UInt64} {deadline : Nat}
    (hup : s.udpUpgrade = .awaitingSwitchOk upgradeId deadline)
    (hoptional : s.config.requireUdp = false) :
    party.Shows (Steps s .tick) s (do
      requestTcpFallback env .udpError
      handleUdpUpgradeTimeout env) := by
  refine .takes_bind (takes_requestTcpFallback h hs .udpError) fun _ => .get_bind ?_
  rw [if_neg (by simp [ClientSession.asked, hoptional])]
  refine .modify_bind (.pure ((hs.requested _).blocked _) ?_)
  rw [List.append_nil]
  exact .abandon upgradeId env.fallbackId (by simp [ClientSession.view, hup, UdpUpgradeState.view])

/-- A probe is handed to the UDP path, whether or not the write succeeds. -/
theorem shows_writeProbe (hs : s.Linked) {transport : QspSessionParams}
    (hu : s.udpState = .active transport) (upgradeId nonce : UInt64) :
    party.Shows (fun v acts => v = s.view ∧
        acts = [.probe ⟨transport.ofClient, upgradeId, nonce⟩]) s
      (writeUdpMessageAndFlush env (.upgradeProbe upgradeId nonce)) := by
  have hreceive : s.udpReceiveTransport = some transport := by
    simp [ClientSession.udpReceiveTransport, hu, UdpState.asActive]
  have hwrite : party.Shows (fun v acts => v = s.view ∧
        acts = [.probe ⟨transport.ofClient, upgradeId, nonce⟩]) s
      (writeUdpMessage env transport (.upgradeProbe upgradeId nonce)) := by
    refine .takes_bind .emit fun _ => ?_
    split
    · exact .pure hs ⟨rfl, rfl⟩
    · exact .throw hs ⟨rfl, rfl⟩
    · exact .drop hs ⟨rfl, rfl⟩
  refine .get_bind ?_
  rw [hreceive]
  exact .bind_hides hwrite fun _ _ hs' => hides_flushUdp hs' _

theorem steps_sendUpgradeProbe (h : env.TcpOpen) (hs : s.Linked) (hinv : s.Inv) :
    party.Shows (Steps s .tick) s (sendUpgradeProbe env) := by
  refine .get_bind ?_
  split
  · next attempt hup =>
    split
    · exact .pure hs (.skip .tick trivial)
    next hgo =>
    simp only [Bool.or_eq_true, decide_eq_true_eq, not_or, Bool.not_eq_true] at hgo
    have hready : attempt.readySent = false := by
      by_contra hne
      have hacked := hs.acked attempt hup (by simpa using hne)
      rw [hgo.1] at hacked
      cases hacked
    obtain ⟨transport, hu⟩ := (hinv.attempt (by rw [hup]; trivial)).1
    have hprobing : s.view.attempt = .probing attempt.upgradeId attempt.probeNonce := by
      simp [ClientSession.view, hup, hready, UdpUpgradeState.view]
    have hactive : s.view.registration = .active transport.ofClient := by
      simp [ClientSession.view, hu, UdpState.view]
    -- counting the probe is not visible
    have hcounted (next : Upgrading) (hid : next.upgradeId = attempt.upgradeId)
        (hnonce : next.probeNonce = attempt.probeNonce) (hnext : next.readySent = false) :
        { s with udpUpgrade := .upgrading next }.Linked ∧
          { s with udpUpgrade := .upgrading next }.view = s.view := by
      refine ⟨hs.upgrade (by simp) ?_, ?_⟩
      · rintro _ ⟨⟩ hr
        cases hnext.symm.trans hr
      · simp [ClientSession.view, hup, hready, hid, hnonce, hnext, UdpUpgradeState.view]
    obtain ⟨hlinked, hview⟩ := hcounted
      { attempt with attempts := attempt.attempts + 1, nextProbeAt := env.now + env.probeDelay }
      rfl rfl hready
    refine .modify_bind (.bind (.attempt (shows_writeProbe hlinked hu _ _)) ?_ ?_)
    · rintro v acts ⟨rfl, rfl⟩
      rw [hview]
      exact .probe _ _ _ hprobing hactive
    · rintro (err | _) s' acts hs' ⟨hsame, rfl⟩
      · have hwas : s'.view = s.view := hsame.trans hview
        refine (recovers_recoverFromUdpWrite h hs' err).mono ?_
        rintro v acts (⟨rfl, rfl⟩ | ⟨rfl, rfl⟩)
        · rw [hwas]
          exact .probe _ _ _ hprobing hactive
        · rw [hwas]
          exact .unsent _ _ _ _ hprobing hactive
      · refine .pure hs' ?_
        rw [show party.view s' = s.view from hsame.trans hview]
        exact .probe _ _ _ hprobing hactive
  · exact .pure hs (.skip .tick trivial)

theorem steps_startUdpUpgradeAttempt (hs : s.Linked) {retryAt : Nat}
    (hup : s.udpUpgrade = .tcpOnlyBlockedUdp retryAt) (hinv : s.Inv) :
    party.Shows (Steps s .tick) s (startUdpUpgradeAttempt env) := by
  obtain ⟨⟨transport, hu⟩, ht⟩ := hinv.attempt (by rw [hup]; trivial)
  refine (shows_startUdpUpgradeAttempt hs hu ht (by rw [hup]; exact nofun)).mono ?_
  rintro _ _ ⟨rfl, rfl⟩
  refine .retry transport.ofClient env.upgradeId env.probeNonce ?_ ?_ ?_
  · simp [ClientSession.view, hup, UdpUpgradeState.view]
  · simp [ClientSession.view, hu, UdpState.view]
  · simp [ClientSession.view, ht]

theorem steps_handleUdpUpgradeTick (h : env.TcpOpen) (hs : s.Linked) (hinv : s.Inv) :
    party.Shows (Steps s .tick) s (handleUdpUpgradeTick env) := by
  refine .get_bind ?_
  split
  · exact .pure hs (.skip .tick trivial)
  · exact .pure hs (.skip .tick trivial)
  · next upgradeId deadline hup =>
    split
    · exact .pure hs (.skip .tick trivial)
    split
    · next hrequired =>
      -- the session ends instead of falling back
      refine .get_bind ?_
      rw [if_pos hrequired]
      exact .pure hs (.skip .tick trivial)
    · next hoptional => exact steps_abandon h hs hup (by simpa using hoptional)
  · next retryAt hup =>
    split
    · exact .pure hs (.skip .tick trivial)
    · exact .bind_hides (steps_startUdpUpgradeAttempt hs hup hinv) fun _ _ hs' => .pure hs'
  · next attempt hup =>
    have hquiet (upgradeId : UInt64) : s.udpUpgrade.view ≠ .awaiting upgradeId := by
      rw [hup]
      exact UdpUpgradeState.view_upgrading_ne attempt upgradeId
    split
    · exact steps_handleUdpUpgradeTimeout hs hquiet
    split
    · exact .pure hs (.skip .tick trivial)
    split
    · exact steps_handleUdpUpgradeTimeout hs hquiet
    · exact .bind_hides (steps_sendUpgradeProbe h hs hinv) fun _ _ hs' => .pure hs'

/-- The echo of the session's own probe; `hkeys` says that the packet belongs to
the registration of the session. -/
theorem steps_handleUpgradeProbeAck (h : env.TcpOpen) (hs : s.Linked) (hinv : s.Inv)
    {r : RegisterCidPayload}
    (hkeys : ∀ transport, s.udpState = .active transport → transport.ofClient = r)
    (upgradeId nonce : UInt64) :
    party.Shows (Steps s (.packet ⟨r, upgradeId, nonce⟩)) s
      (handleUpgradeProbeAck env upgradeId nonce) := by
  refine .get_bind ?_
  split
  · next attempt hup =>
    split
    · exact .pure hs (.skip _ trivial)
    next hid =>
    split
    · exact .pure hs (.skip _ trivial)
    next hnonce =>
    obtain rfl := not_not.mp hid
    obtain rfl := not_not.mp hnonce
    obtain ⟨transport, hu⟩ := (hinv.attempt (by rw [hup]; trivial)).1
    have hlinked (next : Upgrading) (hacked : next.probeAcked = true) :
        { s with udpUpgrade := .upgrading next }.Linked := by
      refine hs.upgrade nofun ?_
      rintro _ ⟨⟩ -
      exact hacked
    split
    · next hready =>
      refine .modify_bind (.pure (hlinked _ rfl) ?_)
      have hsame : { s with udpUpgrade := .upgrading { attempt with probeAcked := true } }.view =
          s.view := by
        simp [ClientSession.view, hup, UdpUpgradeState.view]
      rw [show party.view _ = s.view from hsame]
      exact .skip _ trivial
    · next hready =>
      refine .modify_bind (.takes_bind (takes_writeTcpMessage h _) fun _ => .modify_bind ?_)
      refine .takes_bind .emit fun _ => .pure (hlinked _ rfl) ?_
      refine .echoed r attempt.upgradeId attempt.probeNonce ?_ ?_
      · simp [ClientSession.view, hup, hready, UdpUpgradeState.view]
      · simp [ClientSession.view, hu, hkeys transport hu, UdpState.view]
  · exact .pure hs (.skip _ trivial)

theorem completes_handleUpgradeProbeAck (h : env.TcpOpen) (upgradeId nonce : UInt64) :
    Abstraction.Completes s (handleUpgradeProbeAck env upgradeId nonce) := by
  refine .get_bind ?_
  split
  · split
    · exact .pure
    split
    · exact .pure
    split
    · exact .modify_bind .pure
    · refine .modify_bind (.takes_bind (takes_writeTcpMessage h _) fun _ => ?_)
      exact .modify_bind (.emit_bind .pure)
  · exact .pure

theorem steps_handleSwitchToUdp (h : env.TcpOpen) (hs : s.Linked) (upgradeId : UInt64) :
    party.Shows (Steps s (.message (.switchTo upgradeId))) s (handleSwitchToUdp env upgradeId) := by
  refine .get_bind ?_
  split
  · next attempt hup =>
    split
    · exact .pure hs (.skip _ trivial)
    next hid =>
    obtain rfl := not_not.mp hid
    split
    · exact .pure hs (.skip _ trivial)
    next hready =>
    simp only [Bool.or_eq_true, Bool.not_eq_true', not_or, Bool.not_eq_false] at hready
    refine .takes_bind (takes_writeTcpMessage h _) fun _ => .modify_bind (.pure ?_ ?_)
    · exact hs.upgrade nofun nofun
    · exact .accept attempt.upgradeId attempt.probeNonce
        (by simp [ClientSession.view, hup, hready, UdpUpgradeState.view])
  · exact .pure hs (.skip _ trivial)

theorem takes_enterUdp : party.Takes s { s with activeTransport := .udpQsp } [] enterUdp := by
  refine .get_bind ?_
  split
  · next ht =>
    have hsame : { s with activeTransport := .udpQsp } = s := by rw [← ht]
    rw [hsame]
    exact .pure
  · exact .bind .modify fun _ => .emit

theorem steps_handleSwitchOk (hs : s.Linked) (upgradeId : UInt64) :
    party.Shows (Steps s (.message (.switchOk upgradeId))) s (handleSwitchOk upgradeId) := by
  refine .get_bind ?_
  split
  · next expected deadline hup =>
    split
    · next hne =>
      refine .pure hs (.skip _ ?_)
      simpa [Upgrade.Client.Ignores, ClientSession.view, hup, UdpUpgradeState.view] using
        Ne.symm hne
    next hid =>
    obtain rfl := not_not.mp hid
    refine .takes_bind takes_enterUdp fun _ => .modify_bind (.takes_bind .emit fun _ => ?_)
    refine .pure ⟨hs.tcpAlive, by simp, by simp, hs.prepared⟩ ?_
    exact .commit upgradeId (by simp [ClientSession.view, hup, UdpUpgradeState.view])
  · next hup =>
    refine .pure hs (.skip _ fun hv => ?_)
    obtain ⟨deadline, hawait⟩ := UdpUpgradeState.view_eq_awaiting hv
    exact hup _ _ hawait

/-! ## Fallback -/

theorem takes_acceptServerFallback (fallbackId : UInt64) :
    party.Takes s { { s with activeTransport := .tcp }.scheduleDiscoveryRetry with
        lastPeerFallbackId := some fallbackId } [] (acceptServerFallback fallbackId) := by
  refine .bind takes_discardPendingUdpSendForFallback fun _ => ?_
  refine .bind (takes_leaveUdp .serverInitiated) fun _ => ?_
  exact .bind .modify fun _ => .modify

theorem steps_handleFallbackToTcp (h : env.TcpOpen) (hs : s.Linked) (fallbackId : UInt64) :
    party.Shows (Steps s (.message (.fallback fallbackId))) s
      (handleFallbackToTcp env fallbackId) := by
  by_cases hseen : s.lastPeerFallbackId = some fallbackId
  · have hyield : party.Takes s s [] (yieldToFallback fallbackId) := by
      refine .get_bind ?_
      rw [if_pos hseen]
      exact .pure
    refine .takes_bind hyield fun _ => .takes_bind (takes_writeTcpMessage h _) fun _ => ?_
    exact .pure hs (.yielded fallbackId hseen)
  · have hyield : party.Takes s { { s with activeTransport := .tcp }.scheduleDiscoveryRetry with
        lastPeerFallbackId := some fallbackId } [] (yieldToFallback fallbackId) := by
      refine .get_bind ?_
      rw [if_neg hseen]
      exact takes_acceptServerFallback fallbackId
    have hresched : Reschedules { s with activeTransport := .tcp }
        { s with activeTransport := .tcp }.scheduleDiscoveryRetry :=
      reschedules_scheduleDiscoveryRetryWithReceivePath true
    have hlinked := hresched.linked ⟨hs.tcpAlive, hs.enabled, hs.acked, hs.prepared⟩
    refine .takes_bind hyield fun _ => .takes_bind (takes_writeTcpMessage h _) fun _ => ?_
    refine .pure ⟨hlinked.tcpAlive, hlinked.enabled, hlinked.acked, hlinked.prepared⟩ ?_
    have hview : { { s with activeTransport := .tcp }.scheduleDiscoveryRetry with
          lastPeerFallbackId := some fallbackId }.view =
        { s.view with udp := false, registration := .none, attempt := .idle,
                      lastPeer := some fallbackId } :=
      congrArg (fun v : ClientView => { v with lastPeer := some fallbackId }) hresched.view
    rw [show party.view _ = _ from hview]
    exact .yield fallbackId hseen

theorem steps_handleFallbackOk (hs : s.Linked) (fallbackId : UInt64) :
    party.Shows (Steps s (.message (.fallbackOk fallbackId))) s (handleFallbackOk fallbackId) := by
  refine .modify_bind ?_
  split
  · next hp =>
    exact .pure ⟨hs.tcpAlive, hs.enabled, hs.acked, hs.prepared⟩ (.settled fallbackId hp)
  · next hp => exact .pure hs (.skip _ hp)

theorem recovers_handleUdpLivenessTimeout (h : env.TcpOpen) (hs : s.Linked) :
    party.Shows (Recovers env.fallbackId s.view) s (handleUdpLivenessTimeout env) := by
  refine .get_bind ?_
  split
  · exact .pure hs (.inl ⟨rfl, rfl⟩)
  · exact recovers_requestTcpFallback h hs .udpLivenessTimeout
      (fun _ => reschedules_scheduleDiscoveryRetryWithReceivePath true) SessionControl.continue

/-! ## Refreshing the UDP path -/

theorem ClientSession.Linked.refresh (hs : s.Linked) (refresh : Option Refresh) :
    { s with refresh := refresh }.Linked :=
  ⟨hs.tcpAlive, hs.enabled, hs.acked, hs.prepared⟩

theorem hides_noteAuthenticatedUdpActivity (hs : s.Linked) :
    party.Hides s (noteAuthenticatedUdpActivity env) :=
  .modify ⟨hs.tcpAlive, hs.enabled, hs.acked, hs.prepared⟩ rfl

theorem hides_noted (hs : s.Linked) (control : SessionControl) :
    party.Hides s (do
      noteAuthenticatedUdpActivity env
      pure control) :=
  .bind (hides_noteAuthenticatedUdpActivity hs) fun _ _ hs' => .pure hs'

theorem hides_notedAtEnd (hs : s.Linked) (control : SessionControl) :
    party.Hides s (do
      noteAuthenticatedUdpActivity env
      modify fun s => { s with refresh := none }
      pure control) := by
  refine .bind (hides_noteAuthenticatedUdpActivity hs) fun _ s' hs' => ?_
  exact .modify_bind (.pure (hs'.refresh none) ⟨rfl, rfl⟩)

theorem hides_startRefresh (hs : s.Linked) (replaced : Bool) :
    party.Hides s (startRefresh env replaced) :=
  .bind (hides_writeUdpMessageAndFlush hs rfl) fun _ _ hs' => .modify (hs'.refresh _) rfl

theorem hides_recreateUdpIo (hs : s.Linked) : party.Hides s (recreateUdpIo env) := by
  refine .get_bind ?_
  split
  · exact hides_inconsistent hs _
  · split
    · exact .throw hs
    · split
      · exact .drop hs
      · exact .emit hs rfl

section

variable (h : env.TcpOpen) (hs : s.Linked)
include h hs

theorem recovers_failRefresh (err : SessionError) :
    party.Shows (Recovers env.fallbackId s.view) s (failRefresh env err) := by
  have hs' := hs.refresh none
  refine .modify_bind (.takes_bind .emit fun _ => ?_)
  split
  · exact .throw hs' (.inl ⟨rfl, rfl⟩)
  · refine .get_bind ?_
    rw [if_neg (by simp [hs.tcpAlive])]
    exact recovers_requestTcpFallback h hs' .udpError
      (fun _ => reschedules_scheduleDiscoveryNow) SessionControl.continue

theorem recovers_refreshReplacedSocket (err : SessionError) :
    party.Shows (Recovers env.fallbackId s.view) s (refreshReplacedSocket env err) := by
  unfold refreshReplacedSocket
  split
  · refine recovers_of_attempt ?_ (fun _ _ hs' => .pure hs') fun err s' hs' =>
      recovers_failRefresh h hs' err
    exact .bind (hides_recreateUdpIo hs) fun _ _ hs' => hides_startRefresh hs' true
  · exact recovers_failRefresh h hs err

theorem recovers_handleRefreshError (refresh : Refresh) (err : SessionError) :
    party.Shows (Recovers env.fallbackId s.view) s (handleRefreshError env refresh err) := by
  unfold handleRefreshError
  split
  · exact recovers_failRefresh h hs err
  · exact recovers_refreshReplacedSocket h hs err

theorem recovers_handleNetworkChanged :
    party.Shows (Recovers env.fallbackId s.view) s (handleNetworkChanged env) := by
  refine .get_bind ?_
  split
  · refine .takes_bind .emit fun _ => ?_
    exact recovers_of_attempt (hides_startRefresh hs false) (fun _ _ hs' => .pure hs')
      fun err s' hs' => recovers_refreshReplacedSocket h hs' err
  · exact .takes_bind .emit fun _ => .pure hs (.inl ⟨rfl, rfl⟩)

end

/-! ## Messages -/

theorem hides_validateMessage (hs : s.Linked) (type : MessageType) (transport : MessageTransport) :
    party.Hides s (validateMessage type transport) := by
  unfold validateMessage
  split
  · exact .pure hs
  · exact .throw hs

theorem hides_rejectMalformed (hs : s.Linked) (type : MessageType) (err : PayloadError)
    (transport : MessageTransport) : party.Hides s (rejectMalformed type err transport) :=
  .bind (hides_validateMessage hs type transport) fun _ _ hs' => .throw hs'

theorem validateMessage_bind {type : MessageType} {transport : MessageTransport}
    (h : validateMessageType type (serverContext transport) = .ok ())
    (m : ClientM SessionControl) : (do validateMessage type transport; m) = m := by
  rw [validateMessage, h]
  rfl

theorem steps_handleTcpMessage (h : env.TcpOpen) (hs : s.Linked) (hinv : s.Inv)
    (message : Message) :
    party.Shows (Steps s (SessionEvent.tcpMessage message).input) s
      (handleTcpMessage env message) := by
  unfold handleTcpMessage
  cases message with
  | registerOk cid =>
    rw [validateMessage_bind rfl]
    exact steps_handleRegisterOk hs hinv cid
  | registerFail code =>
    rw [validateMessage_bind rfl]
    exact steps_handleRegisterFail hs code
  | switchToUdp upgradeId =>
    rw [validateMessage_bind rfl]
    exact steps_handleSwitchToUdp h hs upgradeId
  | switchOk upgradeId =>
    rw [validateMessage_bind rfl]
    exact steps_handleSwitchOk hs upgradeId
  | fallbackToTcp fallbackId =>
    rw [validateMessage_bind rfl]
    exact steps_handleFallbackToTcp h hs fallbackId
  | fallbackOk fallbackId =>
    rw [validateMessage_bind rfl]
    exact steps_handleFallbackOk hs fallbackId
  | data packet =>
    rw [validateMessage_bind rfl]
    exact (hides_sendToTunOrShutdown hs packet).shows (.skip .tick trivial)
  | ping nonce =>
    rw [validateMessage_bind rfl]
    refine Abstraction.Hides.shows (.bind (hides_writeTcpMessage h hs rfl) ?_) (.skip .tick trivial)
    exact fun _ _ hs' => .pure hs'
  -- the others change nothing, or are rejected
  | _ =>
    refine Abstraction.Hides.shows (.bind (hides_validateMessage hs _ _) ?_) (.skip .tick trivial)
    exact fun _ _ hs' => .pure hs'

theorem hides_handleUdpMessage (hs : s.Linked) {message : Message}
    (hplain : ∀ upgradeId nonce, message ≠ .upgradeProbeAck upgradeId nonce) :
    party.Hides s (handleUdpMessage env message) := by
  refine .bind (hides_validateMessage hs _ _) fun _ s' hs' => ?_
  cases message with
  | upgradeProbeAck upgradeId nonce => exact absurd rfl (hplain upgradeId nonce)
  | data packet => exact hides_sendToTunOrShutdown hs' packet
  | ping nonce =>
    exact .bind (hides_writeUdpMessageAndFlush hs' rfl) fun _ _ hs'' => .pure hs''
  | _ => exact .pure hs'

/-- The protocol sees nothing of a packet that is not the echo of a probe. -/
theorem SessionEvent.input_udpResult {packet : Packet}
    (hplain : ∀ upgradeId nonce, packet.message ≠ .upgradeProbeAck upgradeId nonce) :
    (SessionEvent.udpResult (.ok packet)).input = .tick := by
  obtain ⟨sender, message⟩ := packet
  cases message with
  | upgradeProbeAck upgradeId nonce => exact absurd rfl (hplain upgradeId nonce)
  | _ => rfl

/-- The packet was protected by the other end of the session's registration, if
it has one. -/
def ClientSession.Expects (s : ClientSession) (packet : Packet) : Prop :=
  ∀ transport, s.udpState = .active transport → transport.ofClient = packet.sender.ofServer

theorem handleUdpMessage_upgradeProbeAck (upgradeId nonce : UInt64) :
    handleUdpMessage env (.upgradeProbeAck upgradeId nonce) =
      handleUpgradeProbeAck env upgradeId nonce :=
  validateMessage_bind rfl _

theorem steps_handleUdpResult (h : env.TcpOpen) (hs : s.Linked) (hinv : s.Inv)
    {result : Except UdpQspError Packet} (hkeys : ∀ packet, result = .ok packet → s.Expects packet) :
    party.Shows (Steps s (SessionEvent.udpResult result).input) s (handleUdpResult env result) := by
  cases result with
  | error err =>
    refine steps_of_recovers (f := env.fallbackId) ?_
    simp only [handleUdpResult]
    split
    · exact recovers_handleUdpEventError h hs _
    · exact .throw hs (.inl ⟨rfl, rfl⟩)
  | ok packet =>
    by_cases hplain : ∀ upgradeId nonce, packet.message ≠ .upgradeProbeAck upgradeId nonce
    · rw [SessionEvent.input_udpResult hplain]
      refine steps_of_recovers (f := env.fallbackId) ?_
      refine recovers_of_attempt (hides_handleUdpMessage hs hplain) (fun _ s' hs' => ?_)
        fun err s' hs' => ?_
      · exact hides_noted hs' _
      · dsimp only
        split
        · exact recovers_handleUdpEventError h hs' err
        · exact .throw hs' (.inl ⟨rfl, rfl⟩)
    · obtain ⟨sender, message⟩ := packet
      obtain ⟨upgradeId, nonce, rfl⟩ : ∃ upgradeId nonce,
          message = .upgradeProbeAck upgradeId nonce := by
        simpa using hplain
      have hsteps := steps_handleUpgradeProbeAck h hs hinv (hkeys _ rfl) upgradeId nonce
      rw [handleUdpResult, handleUdpMessage_upgradeProbeAck]
      refine .attempt_bind hsteps (completes_handleUpgradeProbeAck h upgradeId nonce) ?_
      intro control s' acts hs' hstep
      refine .hides_bind (hides_noteAuthenticatedUdpActivity hs') ?_ fun _ s'' hs'' hview => ?_
      · rw [List.append_nil]
        exact hstep
      · refine .pure hs'' ?_
        rw [List.append_nil, hview]
        exact hstep

/-! ## Events of a refresh -/

theorem recovers_handleRefreshMessage (h : env.TcpOpen) (hs : s.Linked) (refresh : Refresh)
    {message : Message} (hplain : ∀ upgradeId nonce, message ≠ .upgradeProbeAck upgradeId nonce) :
    party.Shows (Recovers env.fallbackId s.view) s
      (handleRefreshMessage env refresh message) := by
  refine recovers_of_attempt (hides_handleUdpMessage hs hplain) ?_ ?_
  · intro control s' hs'
    cases control with
    | «continue» => exact hides_noted hs' _
    | close exit => exact hides_notedAtEnd hs' _
  · intro err s' hs'
    dsimp only
    split
    · exact .pure hs' (.inl ⟨rfl, rfl⟩)
    · exact recovers_handleRefreshError h hs' refresh err

/-- During a refresh the session makes no attempt that could be echoed. -/
theorem hides_handleRefreshMessage_upgradeProbeAck (hs : s.Linked) (hidle : s.udpUpgrade = .idle)
    (refresh : Refresh) (upgradeId nonce : UInt64) :
    party.Hides s (handleRefreshMessage env refresh (.upgradeProbeAck upgradeId nonce)) := by
  have hnothing : party.Hides s (handleUpgradeProbeAck env upgradeId nonce) := by
    refine .get_bind ?_
    rw [hidle]
    exact .pure hs
  have hcompletes : Abstraction.Completes s (handleUpgradeProbeAck env upgradeId nonce) := by
    refine .get_bind ?_
    rw [hidle]
    exact .pure
  rw [handleRefreshMessage, handleUdpMessage_upgradeProbeAck]
  refine .attempt_bind hnothing hcompletes ?_
  rintro control s' _ hs' ⟨hview, rfl⟩
  rw [show party.view s = party.view s' from hview.symm]
  cases control with
  | «continue» => exact hides_noted hs' _
  | close exit => exact hides_notedAtEnd hs' _

variable (h : env.TcpOpen) (hs : s.Linked)
include h hs

theorem recovers_handleRefreshResult (refresh : Refresh)
    {event : SessionEvent} (hplain : ∀ sender upgradeId nonce,
      event ≠ .udpResult (.ok ⟨sender, .upgradeProbeAck upgradeId nonce⟩)) :
    party.Shows (Recovers env.fallbackId s.view) s (handleRefreshResult env refresh event) := by
  have hquiet (control : SessionControl) :
      party.Shows (Recovers env.fallbackId s.view) s (pure control : ClientM SessionControl) :=
    .pure hs (.inl ⟨rfl, rfl⟩)
  cases event with
  | shutdown => exact .modify_bind (.pure (hs.refresh none) (.inl ⟨rfl, rfl⟩))
  | tunFault => exact hquiet _
  | udpResult result =>
    cases result with
    | error err =>
      simp only [handleRefreshResult]
      split
      · exact hquiet _
      · exact recovers_handleRefreshError h hs refresh _
    | ok packet =>
      simp only [handleRefreshResult]
      split
      · refine .hides_bind (hides_noteAuthenticatedUdpActivity hs) (.inl ⟨rfl, rfl⟩) ?_
        intro _ s' hs' hview
        exact .modify_bind (.takes_bind .emit fun _ => .pure (hs'.refresh none) (.inl ⟨hview, rfl⟩))
      · refine recovers_handleRefreshMessage h hs refresh fun upgradeId nonce hmessage => ?_
        refine hplain packet.sender upgradeId nonce ?_
        rw [← hmessage]
  | udpMalformed type err =>
    exact recovers_of_attempt (hides_rejectMalformed hs type err .udpQsp)
      (fun _ _ hs' => .pure hs') fun err s' hs' => recovers_handleRefreshError h hs' refresh err
  | refreshTimeout => exact recovers_handleRefreshError h hs refresh _
  | _ => exact hquiet _

theorem recovers_handleRefreshEvent (refresh : Refresh)
    {event : SessionEvent} (hplain : ∀ sender upgradeId nonce,
      event ≠ .udpResult (.ok ⟨sender, .upgradeProbeAck upgradeId nonce⟩)) :
    party.Shows (Recovers env.fallbackId s.view) s (handleRefreshEvent env refresh event) := by
  refine .get_bind ?_
  split
  · exact recovers_handleRefreshResult h hs refresh hplain
  · exact recovers_of_attempt (hides_inconsistent hs _) (fun _ _ hs' => .pure hs')
      fun err s' hs' => recovers_handleRefreshError h hs' refresh err

/-- While a refresh lasts, an event is a failure of the UDP path or nothing. -/
theorem steps_handleRefreshEvent (hloop : s.AtLoop) {refresh : Refresh}
    (hrefresh : s.refresh = some refresh) {event : SessionEvent} (hpolls : s.polls event = true) :
    party.Shows (Steps s event.input) s (handleRefreshEvent env refresh event) := by
  obtain ⟨⟨transport, hu⟩, hidle, -⟩ := hloop.inv.udp (hloop.refresh (by rw [hrefresh]; rfl))
  by_cases hplain : ∀ sender upgradeId nonce,
      event ≠ .udpResult (.ok ⟨sender, .upgradeProbeAck upgradeId nonce⟩)
  · have htick : event.input = .tick := by
      cases event with
      | tcpMessage message => simp [ClientSession.polls, hrefresh] at hpolls
      | udpResult result =>
        cases result with
        | error err => rfl
        | ok packet =>
          refine SessionEvent.input_udpResult fun upgradeId nonce hmessage => ?_
          refine hplain packet.sender upgradeId nonce ?_
          rw [← hmessage]
      | _ => rfl
    rw [htick]
    exact steps_of_recovers (recovers_handleRefreshEvent h hs refresh hplain)
  · obtain ⟨sender, upgradeId, nonce, rfl⟩ : ∃ sender upgradeId nonce,
        event = .udpResult (.ok ⟨sender, .upgradeProbeAck upgradeId nonce⟩) := by
      simpa using hplain
    refine Abstraction.Hides.shows (.get_bind ?_) (.skip _ trivial)
    rw [hu]
    exact hides_handleRefreshMessage_upgradeProbeAck hs hidle refresh upgradeId nonce

/-! ## Events of the loop -/

theorem recovers_handleUdpFlushReady :
    party.Shows (Recovers env.fallbackId s.view) s (handleUdpFlushReady env) := by
  refine recovers_of_attempt (hides_flushUdpTransport hs) (fun _ _ hs' => .pure hs') ?_
  intro err s' hs'
  dsimp only
  split
  · exact recovers_handleUdpEventError h hs' err
  · exact .pure hs' (.inl ⟨rfl, rfl⟩)

/-- One round of the loop is one step, as long as the stream is not closed. -/
theorem steps_handleLoopEvent (hinv : s.Inv) (hcalm : s.refresh = none) {event : SessionEvent}
    (hpolls : s.polls event = true) (hopen : event ≠ .tcpClosed)
    (hkeys : ∀ packet, event = .udpResult (.ok packet) → s.Expects packet) :
    party.Shows (Steps s event.input) s (handleLoopEvent env event) := by
  have hskip (m : ClientM SessionControl) (hm : party.Hides s m) :
      party.Shows (Steps s .tick) s m := hm.shows (.skip .tick trivial)
  cases event with
  | tcpMessage message => exact steps_handleTcpMessage h hs hinv message
  | udpResult result =>
    refine steps_handleUdpResult h hs hinv ?_
    rintro packet rfl
    exact hkeys packet rfl
  | tcpClosed => exact absurd rfl hopen
  | control command =>
    cases command with
    | stop => exact hskip _ (.pure hs)
    | networkChanged => exact steps_of_recovers (recovers_handleNetworkChanged h hs)
  | tcpMalformed type err => exact hskip _ (hides_rejectMalformed hs type err .tcp)
  | udpMalformed type err => exact hskip _ (hides_rejectMalformed hs type err .udpQsp)
  | tcpUnframed err => exact hskip _ (.throw hs)
  | tcpFailed source => exact hskip _ (.throw hs)
  | tunPacket packet =>
    cases packet with
    | none => exact hskip _ (.pure hs)
    | some packet => exact steps_of_recovers (recovers_handleTunPacket h hs packet)
  | udpFlushReady => exact steps_of_recovers (recovers_handleUdpFlushReady h hs)
  | pingTick =>
    have hping : party.Shows (Recovers env.fallbackId s.view) s
        (writeControlMessage env (.ping env.pingNonce)) := recovers_writeControlMessage h hs rfl rfl
    exact steps_of_recovers (.bind_hides hping fun _ _ hs' => .pure hs')
  | idleTimeout =>
    exact steps_of_recovers
      (.bind_hides (recovers_sendCloseBestEffort h hs .idleTimeout) fun _ _ hs' => .pure hs')
  | udpLivenessTimeout => exact steps_of_recovers (recovers_handleUdpLivenessTimeout h hs)
  | udpReconnectTick => exact steps_handleUdpReconnectTick h hs
  | registerTimeout => exact steps_handleRegistrationTimeout hs
  | discoveryResult ids =>
    have hu : s.udpState = .needDiscovery := by
      refine hinv.discovery ?_
      simpa [ClientSession.polls, hcalm] using hpolls
    have hattempt : s.udpUpgrade.view = .idle := by
      refine hinv.view_idle ?_
      rintro ⟨_, ha⟩
      cases hu.symm.trans ha
    have hs' : { s with discoveryTask := false }.Linked :=
      ⟨hs.tcpAlive, hs.enabled, hs.acked, hs.prepared⟩
    refine .modify_bind (Abstraction.Hides.shows ?_ (.skip .tick trivial))
    exact hides_handleDiscoveryResult hs' hattempt hu ids
  | udpUpgradeTick => exact steps_handleUdpUpgradeTick h hs hinv
  | shutdown => exact hskip _ (.pure hs)
  | refreshTimeout => exact hskip _ (.pure hs)
  | tunFault => exact hskip _ (.pure hs)

theorem steps_handleEvent (hloop : s.AtLoop) {event : SessionEvent} (hpolls : s.polls event = true)
    (hopen : event ≠ .tcpClosed)
    (hkeys : ∀ packet, event = .udpResult (.ok packet) → s.Expects packet) :
    party.Shows (Steps s event.input) s (handleEvent env event) := by
  refine .get_bind ?_
  split
  · next hcalm => exact steps_handleLoopEvent h hs hloop.inv hcalm hpolls hopen hkeys
  · next refresh hrefresh => exact steps_handleRefreshEvent h hs hloop hrefresh hpolls

theorem steps_closeSession (exit : SessionExit) :
    party.Shows (Steps s .tick) s (closeSession env exit) := by
  have hs' := hs.refresh none
  refine steps_of_recovers (f := env.fallbackId) (.modify_bind ?_)
  unfold tellServer
  split
  case h_5 => exact .pure hs' (.inl ⟨rfl, rfl⟩)
  all_goals exact recovers_sendCloseBestEffort h hs' _

end Slt.Client
