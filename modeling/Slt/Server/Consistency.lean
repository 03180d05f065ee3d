import Slt.Server.Emissions
import Slt.Server.Invariant

/-!
# Every handler of the server keeps the invariant

`Kept` says that a run of a handler that completes keeps the invariant. A
handler that stops ends the session, so nothing is said of it. The lemmas follow
the handlers, from the sends up to the events.
-/

namespace Slt.Server

open Lib Lib.Handler Proto

variable {noted : Prop} {s : ServerSession}

/-- A run that completes ends in a session with the invariant. -/
abbrev Kept {α : Type} (noted : Prop) (s : ServerSession)
    (m : ServerM α) : Prop :=
  Yields (fun _ s' => s'.Inv noted) s m

/-! ## Sends -/

section Sends

variable (env : Env)

theorem same_sendTcpMessage (message : Message) :
    Yields (fun _ s' => s' = s) s (sendTcpMessage env message) := by
  refine .get_bind ?_
  split
  · exact .throw _
  · rename_i hclear
    refine .modify_bind ?_
    unfold writeFrame
    split
    · refine .emit_bind (.modify ?_)
      rw [Bool.not_eq_true] at hclear
      rw [← hclear]
    · exact .emit_bind (.modify_bind (.throw _))
    · exact .emit_bind .drop

section

variable (h : s.Inv noted)
include h

theorem kept_flushIfNeeded (flush : Option (Await IoError)) :
    Yields (fun _ s' => s'.Inv noted ∧ s'.activeTransport = s.activeTransport) s
      (flushIfNeeded flush) := by
  refine .get_bind ?_
  split
  · unfold flushPending
    split
    · exact .pure ⟨h, rfl⟩
    split
    · exact .modify_bind (.pure ⟨h.cleared, rfl⟩)
    · exact .pure ⟨h, rfl⟩
    · exact .drop
  · exact .pure ⟨h, rfl⟩

theorem kept_flushUdpSession (message : Option Message) :
    Kept noted s (flushUdpSession env message) :=
  (kept_flushIfNeeded h _).mono fun _ _ hkept => hkept.1

theorem kept_appendPacket {message : Message}
    (hdata : ∀ packet, message = .data packet → s.activeTransport = .udpQsp)
    (session : UdpSession) : Kept noted s (appendPacket env session message) := by
  refine .emit_bind (.modify_bind ?_)
  refine .bind (kept_flushIfNeeded (h.appended hdata) _) fun flushed s' hkept => ?_
  cases flushed <;> exact .pure hkept.1

theorem kept_queueUdpMessage {message : Message}
    (hdata : ∀ packet, message = .data packet → s.activeTransport = .udpQsp) :
    Kept noted s (queueUdpMessage env message) := by
  refine .get_bind ?_
  split
  · exact .pure h
  split
  · exact .pure h
  refine .bind (kept_flushIfNeeded h _) fun flushed s' hkept => ?_
  cases flushed with
  | some source => exact .pure hkept.1
  | none => exact kept_appendPacket env hkept.1 (fun packet hm => hkept.2.trans (hdata packet hm)) _

theorem setActiveTransport_tcp (halive : s.tcpAlive = true) :
    Yields (fun _ s' => s'.Inv noted ∧ s'.activeTransport = .tcp) s
      (setActiveTransport .tcp) := by
  refine .emit_bind (.get_bind ?_)
  cases htransport : s.activeTransport with
  | tcp =>
    refine .modify ⟨?_, rfl⟩
    rw [← htransport]
    exact h
  | udpQsp =>
    have hdiscard : Yields (fun _ s' => s' = clearSendSlab s) s discardPendingSend := by
      refine .get_bind ?_
      split
      · rename_i hnone
        refine .pure ?_
        rw [clearSendSlab, ServerSession.mapUdp, hnone, Option.map_none, ← hnone]
      · exact .emit_bind (.modify rfl)
    refine .bind hdiscard fun _ s' hs' => .modify ⟨?_, rfl⟩
    rw [hs']
    exact h.toTcp halive

theorem kept_sendTcpFallbackRequest : Kept noted s (sendTcpFallbackRequest env) := by
  refine .get_bind ?_
  split
  · exact .pure h
  · exact .same_bind (same_sendTcpMessage env _) fun _ => .modify (h.unrelated _ _)

theorem kept_recoverOn (message : Option Message) (recovery : UdpFailureRecovery) :
    Kept noted s (recoverOn env message recovery) := by
  cases recovery with
  | retryMessageOnTcp =>
    refine .bind (kept_sendTcpFallbackRequest env h) fun _ s' h' => ?_
    cases message with
    | none => exact .pure h'
    | some message => exact (same_sendTcpMessage env message).mono fun _ _ hs => hs ▸ h'
  | signalTcpFallback => exact kept_sendTcpFallbackRequest env h
  | retireOnly => exact .pure h

end

theorem yields_retireUdpTransport :
    Yields (fun _ s' => s' = s.retireUdp) s retireUdpTransport :=
  .get_bind (.emit_bind (.modify rfl))

theorem kept_recoverFromUdpError (h : s.Inv noted) (message : Option Message)
    (recovery : UdpFailureRecovery) (err : UdpQspError) :
    Kept noted s (recoverFromUdpError env message recovery err) := by
  refine .bind yields_retireUdpTransport fun _ s' hs' => ?_
  subst hs'
  refine .get_bind ?_
  split
  · rename_i halive
    -- the session has no slab left to discard
    have hretired : Kept noted s.retireUdp (setActiveTransport .tcp) := by
      refine .emit_bind (.get_bind ?_)
      split
      · have hdiscard : Yields (fun _ s' => s' = s.retireUdp) s.retireUdp discardPendingSend :=
          .get_bind (.pure rfl)
        exact .same_bind hdiscard fun _ => .modify (h.retire halive)
      · exact .modify (h.retire halive)
    exact .bind hretired fun _ s' h' => .emit_bind (kept_recoverOn env h' message recovery)
  · exact .throw _

theorem kept_sendUdpMessage (h : s.Inv noted) {message : Message}
    (hdata : ∀ packet, message = .data packet → s.activeTransport = .udpQsp)
    (recovery : UdpFailureRecovery) :
    Kept noted s (sendUdpMessage env message recovery) := by
  refine .bind (kept_queueUdpMessage env h hdata) fun queued s' h' => ?_
  cases queued with
  | none => exact .pure h'
  | some err => exact kept_recoverFromUdpError env h' _ recovery err

theorem kept_sendUdpMessageAndFlush (h : s.Inv noted) {message : Message}
    (hdata : ∀ packet, message = .data packet → s.activeTransport = .udpQsp)
    (recovery : UdpFailureRecovery) :
    Kept noted s (sendUdpMessageAndFlush env message recovery) := by
  refine .bind (kept_sendUdpMessage env h hdata recovery) fun _ s' h' => ?_
  refine .bind (kept_flushUdpSession env h' _) fun flushed s'' h'' => ?_
  cases flushed with
  | none => exact .pure h''
  | some source => exact kept_recoverFromUdpError env h'' _ recovery _

end Sends

/-! ## Registration -/

section Registration

variable (env : Env)

theorem admitRegistration_ok (h : s.Inv noted) {register : RegisterCidPayload}
    {registry : SessionRegistry} (hforeign : ∀ call ∈ env.foreign, call.Foreign s.sessionId)
    (hadmitted : admitRegistration env s register = .ok registry) :
    ∃ dcidPrefix, register.clientToServerCid.prefixOf = .ok dcidPrefix ∧
      registry.Serves s.sessionId s.clientId (· = dcidPrefix) (some dcidPrefix) := by
  obtain ⟨-, dcidPrefix, inserted, hroutedBy, hinsert, rfl⟩ := admitRegistration_eq_ok hadmitted
  refine ⟨dcidPrefix, hroutedBy, ?_⟩
  exact ((h.routes.insertCid hinsert).foreignCalls hforeign).removeCidsForSessionExcept

theorem kept_handleRegisterMessage (h : s.Inv noted)
    (hforeign : ∀ call ∈ env.foreign, call.Foreign s.sessionId)
    (decoded : Except PayloadError RegisterCidPayload) :
    Kept noted s (handleRegisterMessage env decoded) := by
  have hfail : ∀ code, Kept noted s (sendRegisterFail env code) := fun code =>
    .same_bind (same_sendTcpMessage env _) fun _ => .pure h
  refine .get_bind ?_
  split
  · exact .throw _
  rename_i htcp
  cases decoded with
  | error err => exact hfail _
  | ok register =>
    refine .get_bind ?_
    split
    · exact hfail _
    rename_i registry hadmitted
    obtain ⟨dcidPrefix, hroutedBy, hroutes⟩ := admitRegistration_ok env h hforeign hadmitted
    refine .modify_bind ?_
    split
    · exact .throw _
    have hinstall : Kept noted { s with registry := registry }
        (installUdpSession register) :=
      .modify_bind (.emit (h.registered htcp hroutedBy hroutes))
    refine .bind hinstall fun _ s' h' => ?_
    exact .same_bind (same_sendTcpMessage env _) fun _ => .pure h'

end Registration

/-! ## The upgrade handshake -/

section Upgrade

variable (env : Env)

/-- An identifier that is taken goes on with the attempt or starts a new one. -/
theorem noteUpgradeId_some {u u' : UdpUpgradeState} {upgradeId : UInt64} {source : UpgradeSource}
    (h : u.noteUpgradeId upgradeId source = some u') :
    u'.upgradeId = some upgradeId ∧
      (u' = { u with upgradeId := some upgradeId } ∨
        u'.probeSeen = false ∧ u'.readySeen = false ∧ u'.switchToUdpSent = false) := by
  unfold UdpUpgradeState.noteUpgradeId at h
  split at h
  · cases h
  split at h
  · cases h
    exact ⟨rfl, .inl rfl⟩
  rename_i existing hexisting
  split at h
  · rename_i heq
    cases h
    rw [heq] at hexisting
    refine ⟨hexisting, .inl ?_⟩
    rw [← hexisting]
  · split at h
    · cases h
    · cases h
      exact ⟨rfl, .inr ⟨rfl, rfl, rfl⟩⟩

theorem kept_maybeSendSwitchToUdp (h : s.Inv noted) :
    Kept noted s (maybeSendSwitchToUdp env) := by
  refine .get_bind ?_
  dsimp only
  split
  · exact .pure h
  rename_i hready
  split
  · exact .pure h
  rename_i upgradeId hid
  simp only [Bool.or_eq_true, Bool.not_eq_true', not_or, Bool.not_eq_false] at hready
  refine .same_bind (same_sendTcpMessage env _) fun _ => .modify (h.upgrade h.probe fun _ => ?_)
  exact ⟨by rw [hid]; rfl, hready.1.2, hready.2⟩

theorem kept_handleUdpReady (h : s.Inv noted) (upgradeId : UInt64) :
    Kept noted s (handleUdpReady env upgradeId) := by
  refine .get_bind ?_
  split
  · exact .pure h
  rename_i u hu
  obtain ⟨hid, hu⟩ := noteUpgradeId_some hu
  have hready : { s with udpUpgrade := { u with readySeen := true } }.Inv noted := by
    rcases hu with rfl | ⟨hprobe, -, hsent⟩
    · exact h.upgrade h.probe fun hs => ⟨rfl, (h.sent hs).2.1, rfl⟩
    · refine h.upgrade (fun hp => ?_) fun hs => ?_
      · exact absurd (hprobe.symm.trans hp) Bool.false_ne_true
      · exact absurd (hsent.symm.trans hs) Bool.false_ne_true
  refine .modify_bind (.bind (kept_maybeSendSwitchToUdp env hready) fun _ _ h' => .pure h')

theorem kept_handleUpgradeProbe (h : s.Inv noted) (husable : s.UdpUsable noted)
    (upgradeId nonce : UInt64) : Kept noted s (handleUpgradeProbe env upgradeId nonce) := by
  refine .get_bind ?_
  split
  · exact .pure h
  rename_i u hu
  obtain ⟨hid, hu⟩ := noteUpgradeId_some hu
  have hprobed : { s with udpUpgrade := { u with probeSeen := true } }.Inv noted := by
    refine h.upgrade (fun _ => husable) ?_
    rcases hu with rfl | ⟨-, -, hsent⟩
    · exact fun hs => ⟨rfl, rfl, (h.sent hs).2.2⟩
    · exact fun hs => absurd (hsent.symm.trans hs) Bool.false_ne_true
  refine .modify_bind (.bind (kept_sendUdpMessageAndFlush env hprobed
    (by intro _ hm; cases hm) _) ?_)
  exact fun _ _ h' => .bind (kept_maybeSendSwitchToUdp env h') fun _ _ h'' => .pure h''

theorem kept_handleSwitchAck (h : s.Inv noted) (upgradeId : UInt64) :
    Kept noted s (handleSwitchAck env upgradeId) := by
  refine .get_bind ?_
  dsimp only
  split
  · exact .pure h
  split
  · exact .pure h
  split
  · exact .pure h
  rename_i hsent
  rw [Bool.not_eq_true, Bool.not_eq_false'] at hsent
  have husable := h.probe (h.sent hsent).2.1
  have hset : Yields (fun _ s' => s' = { s with activeTransport := .udpQsp }) s
      (setActiveTransport .udpQsp) := by
    refine .emit_bind (.get_bind ?_)
    cases s.activeTransport <;> exact .modify rfl
  refine .bind hset fun _ s' hs' => ?_
  subst hs'
  refine .same_bind (same_sendTcpMessage env _) fun _ => .modify_bind (.pure ?_)
  exact (h.toUdp husable).upgrade (fun hp => nomatch hp) fun hs => nomatch hs

end Upgrade

/-! ## Messages -/

section Messages

variable (env : Env)

theorem same_validateMessage (type : MessageType) (transport : MessageTransport) :
    Yields (fun _ s' => s' = s) s (validateMessage type transport) := by
  unfold validateMessage
  split
  · exact .pure rfl
  · exact .throw _

section

variable (h : s.Inv noted)
include h

theorem kept_forwardToTun (packet : Bytes) : Kept noted s (forwardToTun env packet) := by
  refine .get_bind ?_
  split
  · split
    · exact .emit_bind (.pure h)
    · exact .pure h
    · exact .throw _
    · exact .throw _
    · exact .drop
  · exact .pure h

theorem kept_yieldToFallback (halive : s.tcpAlive = true) (fallbackId : UInt64) :
    Kept noted s (yieldToFallback fallbackId) := by
  refine .get_bind ?_
  split
  · exact .pure h
  · refine .bind (setActiveTransport_tcp h halive) fun _ s' h' => .modify_bind (.modify ?_)
    have hreset : { s' with udpUpgrade := .default }.Inv noted :=
      h'.1.upgrade (fun hp => nomatch hp) fun hs => nomatch hs
    exact hreset.unrelated _ _

theorem kept_handleFallbackOk (fallbackId : UInt64) :
    Kept noted s (handleFallbackOk fallbackId) := by
  refine .modify_bind (.pure ?_)
  split
  · exact h.unrelated _ _
  · exact h

theorem kept_handleTcpMessage (hforeign : ∀ call ∈ env.foreign, call.Foreign s.sessionId)
    (halive : s.tcpAlive = true) (message : Message) :
    Kept noted s (handleTcpMessage env message) := by
  refine .same_bind (same_validateMessage _ _) fun _ => ?_
  cases message with
  | udpReady upgradeId => exact kept_handleUdpReady env h upgradeId
  | switchAck upgradeId => exact kept_handleSwitchAck env h upgradeId
  | data packet => exact kept_forwardToTun env h packet
  | ping nonce => exact .same_bind (same_sendTcpMessage env _) fun _ => .pure h
  | registerCid payload => exact kept_handleRegisterMessage env h hforeign _
  | fallbackToTcp fallbackId =>
    refine .bind (kept_yieldToFallback h halive fallbackId) fun _ s' h' => ?_
    exact .same_bind (same_sendTcpMessage env _) fun _ => .pure h'
  | fallbackOk fallbackId => exact kept_handleFallbackOk h fallbackId
  | _ => exact .pure h

theorem kept_handleMalformedMessage (hforeign : ∀ call ∈ env.foreign, call.Foreign s.sessionId)
    (type : MessageType)
    (err : PayloadError) : Kept noted s (handleMalformedMessage env type err) := by
  refine .same_bind (same_validateMessage _ _) fun _ => ?_
  cases type with
  | registerCid => exact kept_handleRegisterMessage env h hforeign _
  | _ => exact .throw _

theorem kept_dispatchUdpMessage (husable : s.UdpUsable noted) (message : Message) :
    Kept noted s (dispatchUdpMessage env message) := by
  cases message with
  | ping nonce =>
    refine .bind (kept_sendUdpMessageAndFlush env h (by intro _ hm; cases hm) _) ?_
    exact fun _ _ h' => .pure h'
  | data packet => exact kept_forwardToTun env h packet
  | upgradeProbe upgradeId nonce => exact kept_handleUpgradeProbe env h husable upgradeId nonce
  | _ => exact .pure h

end

theorem adopt_usable {session : UdpSession} (hs : s.udpSession = some session) (peer : SocketAddr)
    (packetNumber : Nat) : (adoptUdpPeerIfNewer peer packetNumber s).UdpUsable False := by
  unfold adoptUdpPeerIfNewer
  rw [hs]
  dsimp only
  split
  · rename_i hnewer
    refine ⟨by rw [hs]; rfl, ?_, False.elim⟩
    cases hn : s.udpPeerPacketNumber with
    | none => simp [hn] at hnewer
    | some n => rfl
  · exact ⟨rfl, rfl, False.elim⟩

theorem polls_udp {claim : UdpClaim} (hpolls : s.polls (.udp claim) = true) :
    ∃ session, s.udpSession = some session ∧ session.params.Opens claim.sender := by
  cases hs : s.udpSession with
  | none => simp [ServerSession.polls, hs] at hpolls
  | some session => exact ⟨session, rfl, by simpa [ServerSession.polls, hs] using hpolls⟩

theorem kept_handleUdpClaim (h : s.Inv True) {claim : UdpClaim}
    (hpolls : s.polls (.udp claim) = true) : Kept True s (handleUdpClaim env claim) := by
  obtain ⟨session, hs, -⟩ := polls_udp hpolls
  have hadopted := h.unnoted.adopt claim
  refine .modify_bind ?_
  cases claim.payload with
  | message message =>
    refine .same_bind (same_validateMessage _ _) fun _ => ?_
    refine .bind (kept_dispatchUdpMessage env hadopted (adopt_usable hs _ _) message) ?_
    exact fun _ _ h' => .modify_bind (.pure (h'.note env.now))
  | malformed type err => exact .same_bind (same_validateMessage _ _) fun _ => .throw _
  | unframed err => exact .throw _
  | incomplete => exact .throw _

end Messages

/-! ## Events -/

section Events

variable (env : Env)

section

variable (h : s.Inv noted)
include h

theorem kept_handleTunPacket (packet : Bytes) :
    Kept noted s (handleTunPacket env packet) := by
  refine .get_bind ?_
  split
  · exact .pure h
  split
  · exact .same_bind (same_sendTcpMessage env _) fun _ => .pure h
  · rename_i hudp
    exact .bind (kept_sendUdpMessage env h (fun _ _ => hudp) _) fun _ _ h' => .pure h'

theorem kept_handlePingTick : Kept noted s (handlePingTick env) := by
  refine .get_bind ?_
  split
  · exact .same_bind (same_sendTcpMessage env _) fun _ => .pure h
  · refine .bind (kept_sendUdpMessageAndFlush env h (by intro _ hm; cases hm) _) ?_
    exact fun _ _ h' => .pure h'

theorem kept_handleTcpClosed : Kept noted s handleTcpClosed := by
  refine .get_bind ?_
  split
  · rename_i hudp
    exact .modify_bind (.pure (h.closed hudp))
  · exact .pure h

theorem kept_handleUdpFlush : Kept noted s (handleUdpFlush env) := by
  refine .bind (kept_flushUdpSession env h none) fun flushed s' h' => ?_
  cases flushed with
  | none => exact .pure h'
  | some source => exact .bind (kept_recoverFromUdpError env h' _ _ _) fun _ _ h'' => .pure h''

theorem kept_handleUdpLivenessTimeout (halive : s.tcpAlive = true) :
    Kept noted s (handleUdpLivenessTimeout env) := by
  refine .get_bind ?_
  split
  · exact .pure h
  refine .bind (setActiveTransport_tcp h halive) fun _ s' h' => ?_
  have hretired : s'.retireUdp.Inv noted := by
    have hretired := h'.1.retire (h'.1.alive h'.2)
    rwa [← h'.2] at hretired
  refine .bind yields_retireUdpTransport fun _ retired hr => ?_
  subst hr
  exact .bind (kept_sendTcpFallbackRequest env hretired) fun _ _ h' => .pure h'

end

theorem kept_handleEvent (h : s.Inv True) {event : SessionEvent}
    (hpolls : s.polls event = true)
    (hforeign : ∀ call ∈ env.foreign, call.Foreign s.sessionId) :
    Yields (fun control s' => control = .continue → s'.Inv True) s
      (handleEvent env event) := by
  have hkept {m : ServerM SessionControl} (hm : Kept True s m) :
      Yields (fun control s' => control = .continue → s'.Inv True) s m :=
    hm.mono fun _ _ h' _ => h'
  cases event with
  | tcpMessage message => exact hkept (kept_handleTcpMessage env h hforeign hpolls message)
  | tcpMalformed type err => exact hkept (kept_handleMalformedMessage env h hforeign type err)
  | tcpUnframed err => exact .throw _
  | tcpClosed => exact hkept (kept_handleTcpClosed h)
  | tcpFailed source => exact .throw _
  | udp claim => exact hkept (kept_handleUdpClaim env h hpolls)
  | udpDropped => exact .pure fun _ => h
  | tunPacket packet => exact hkept (kept_handleTunPacket env h packet)
  | udpFlush => exact hkept (kept_handleUdpFlush env h)
  | pingTimer => exact hkept (kept_handlePingTick env h)
  | udpLivenessTimer =>
    have halive : s.tcpAlive = true := by
      simp only [ServerSession.polls, Bool.and_eq_true] at hpolls
      exact hpolls.1.2
    exact hkept (kept_handleUdpLivenessTimeout env h halive)
  | idleTimer => exact .after fun _ _ => .pure fun hclose => nomatch hclose
  | shutdown => exact .drop

end Events

/-! ## Runs -/

theorem inv_new {tun : TunConfig} {clients : List ServerClient} {registry : SessionRegistry}
    {issued : List SessionHandle} (hvalid : validateClients tun clients = .ok ())
    (reach : SessionRegistry.Reachable clients registry issued)
    (hcount : issued.length + 1 < 2 ^ 64 - 1) {clientId : ClientId} {addr : Ipv4Addr}
    (hassigned : Assigned clients clientId addr) (tx : SessionTx)
    (allowedCiphers : List CipherSuite) (maxDataLen : Nat) :
    (ServerSession.new (registry.registerSession clientId addr tx).1 allowedCiphers maxDataLen
      (registry.registerSession clientId addr tx).2).Inv True := by
  have inv := reach.consistent hvalid (by omega)
  have inv' : SessionRegistry.Consistent clients (registry.registerSession clientId addr tx).2
      ((registry.registerSession clientId addr tx).1 :: issued) :=
    inv.register hvalid hassigned hcount
  have hmem := List.mem_cons_self (a := (registry.registerSession clientId addr tx).1) (l := issued)
  constructor
  case routes =>
    constructor
    case issued =>
      show (registry.registerSession clientId addr tx).1.sessionId.toNat <
        (registry.registerSession clientId addr tx).2.nextSessionId.toNat
      have hbelow := inv'.below _ hmem
      rw [inv'.next]
      omega
    case client =>
      intro c handle hc hid
      obtain ⟨hissued, hclient⟩ := inv'.sessions c handle hc
      rw [← hclient, inv'.unique handle hissued _ hmem hid]
      rfl
    case own =>
      intro dcidPrefix route hroute hid
      -- the routes that are left are those of sessions with older ids
      obtain ⟨-, handle, hactive, -, hother⟩ := inv.register_cidRoutes hroute
      exact absurd (hother.trans hid) (inv.fresh (inv.active_mem hactive))
    case active => exact fun _ hnone => nomatch hnone
  case udp => exact fun hu => nomatch hu
  case probe => exact fun hp => nomatch hp
  case sent => exact fun hs => nomatch hs
  case slab => exact fun _ _ hs => nomatch hs
  case prefixed => exact fun hs => nomatch hs
  case whole => rfl
  case preferred => exact fun hclosed => nomatch hclosed

def ServerSession.ownedPrefixes (s : ServerSession) : Set CidPrefix :=
  { dcidPrefix | ∃ route, s.registry.cidRoutes dcidPrefix = some route ∧
    route.sessionId = s.sessionId }

namespace ServerRun

theorem afterEvent_running {w : ServerRun} {env : Env} {event : SessionEvent}
    {P : ServerSession → Prop}
    (hkept : Yields (fun control s' => control = .continue → P s') w.session
      (handleEvent env event))
    (hrunning : (w.afterEvent env event).phase = .running) : P (w.afterEvent env event).session := by
  unfold Yields Triple at hkept
  unfold ServerRun.afterEvent at hrunning ⊢
  generalize (handleEvent env event).run w.session = ran at hkept hrunning
  obtain ⟨r, s', out⟩ := ran
  cases r with
  | ok control =>
    cases control with
    | «continue» => exact hkept _ rfl rfl
    | close => cases hrunning
  | error stop =>
    cases stop with
    | error err => cases hrunning
    | dropped =>
      simp only [outcomeOf] at hrunning
      cases hsignal : env.shutdown <;> simp [hsignal] at hrunning

theorem Reachable.inv {start : ServerSession} {w : ServerRun} (h : Reachable start w)
    (hstart : start.Inv True) (hrunning : w.phase = .running) : w.session.Inv True := by
  induction h with
  | initial => exact hstart
  | foreign call _ hcall ih => exact (ih hrunning).foreign hcall
  | event env event _ hbefore hpolls hforeign ih =>
    exact afterEvent_running (kept_handleEvent env (ih hbefore) hpolls hforeign) hrunning
  | close env outcome _ _ _ => cases hrunning

/-- The packets that have been handled account for the peer. -/
def Adopted (handled : List SessionEvent) : ServerSession → Prop :=
  ServerSession.OnUdp fun params peer packetNumber => ∀ n, packetNumber = some n →
    ∃ claim, .udp claim ∈ handled ∧ params.Opens claim.sender ∧ claim.peer = peer ∧
      claim.packetNumber = n

theorem Adopted.facing {handled : List SessionEvent} {s : ServerSession} (h : Adopted handled s)
    {claim : UdpClaim} (hmem : .udp claim ∈ handled) (hpolls : s.polls (.udp claim) = true) :
    Adopted handled (adoptUdpPeerIfNewer claim.peer claim.packetNumber s) := by
  obtain ⟨session, hs, hopens⟩ := polls_udp hpolls
  refine ServerSession.OnUdp.adopt h fun session' hs' n hn => ?_
  cases hs.symm.trans hs'
  exact ⟨claim, hmem, hopens, rfl, Option.some.inj hn⟩

theorem Adopted.mono {handled handled' : List SessionEvent} {s : ServerSession}
    (h : Adopted handled s) (hmem : handled ⊆ handled') : Adopted handled' s := by
  intro session hs n hn
  obtain ⟨claim, hhandled, hrest⟩ := h session hs n hn
  exact ⟨claim, hmem hhandled, hrest⟩

/-- However a handler ends, so also after the loop. -/
theorem Reachable.adopted {start : ServerSession} {w : ServerRun} (h : Reachable start w)
    (hstart : start.udpSession = none) : Adopted w.handled w.session := by
  induction h with
  | initial => exact fun _ hs => nomatch hstart.symm.trans hs
  | foreign call _ _ ih => exact ih
  | @event w env event _ _ hpolls _ ih =>
    have hbefore : Adopted (w.handled ++ [event]) w.session := ih.mono (by simp)
    have hT := routine_any (P := Adopted (w.handled ++ [event])) stable_onUdp env
    have hclose := keeps_sendClose hT sendsUdp_any hbefore .idleTimeout
    refine (keeps_handleEvent hT sendsUdp_any hbefore (fun _ => .attempt hclose) id
      (fun _ _ _ _ _ => trivial) (fun payload _ => ⟨trivial, fun _ => ?_⟩) fun claim heq h => ?_).1
    -- A new session has adopted no packet yet.
    · rintro session - n hn
      cases hn
    · subst heq
      exact Adopted.facing h (by simp) hpolls
  | close env outcome _ _ ih =>
    exact (keeps_closeSession (routine_any (P := Adopted _) stable_onUdp env) sendsUdp_any ih
      outcome).1

/-- Whatever a session handles without ending, and whatever others do to the
registry meanwhile, at every point of its loop the preferred transport, the UDP
session, the upgrade attempt, the routes and the send slab fit together. -/
theorem server_session_consistent {tun : TunConfig} {clients : List ServerClient}
    {registry : SessionRegistry} {issued : List SessionHandle}
    (hvalid : validateClients tun clients = .ok ())
    (reach : SessionRegistry.Reachable clients registry issued)
    (hcount : issued.length + 1 < 2 ^ 64 - 1) {clientId : ClientId} {addr : Ipv4Addr}
    (hassigned : Assigned clients clientId addr) {tx : SessionTx}
    {allowedCiphers : List CipherSuite} {maxDataLen : Nat} {w : ServerRun}
    (h : Reachable (.new (registry.registerSession clientId addr tx).1 allowedCiphers maxDataLen
      (registry.registerSession clientId addr tx).2) w)
    (hrunning : w.phase = .running) :
    -- While UDP is preferred its session has the peer of an authentic packet.
    (w.session.activeTransport = .udpQsp → ∃ session, w.session.udpSession = some session ∧
      (∃ claim, .udp claim ∈ w.handled ∧ session.params.Opens claim.sender ∧
        claim.peer = session.peer ∧ w.session.udpPeerPacketNumber = some claim.packetNumber) ∧
      w.session.lastAuthenticatedUdpActivity.isSome ∧
      (w.session.tcpAlive = true → w.session.polls .udpLivenessTimer = true)) ∧
    (w.session.udpUpgrade.switchToUdpSent = true → w.session.udpUpgrade.upgradeId.isSome ∧
      w.session.udpUpgrade.probeSeen = true ∧ w.session.udpUpgrade.readySeen = true ∧
      w.session.udpSession.isSome) ∧
    -- The routes of the active session are those of its UDP session.
    (∀ session, w.session.udpSession = some session →
      (w.session.registry.sessions w.session.clientId).map (·.sessionId) =
        some w.session.sessionId →
      ∃ dcidPrefix, session.params.scid.prefixOf = .ok dcidPrefix ∧
        w.session.ownedPrefixes = {dcidPrefix}) ∧
    (w.session.udpSession = none → w.session.ownedPrefixes = ∅) ∧
    -- While TCP is preferred no data waits to be sent over UDP.
    (w.session.activeTransport = .tcp → ∀ session, w.session.udpSession = some session →
      ∀ packet, .data packet ∉ session.slab) := by
  have hinv := h.inv (inv_new hvalid reach hcount hassigned tx allowedCiphers maxDataLen) hrunning
  refine ⟨fun hudp => ?_, fun hsent => ?_, fun session hs hactive => ?_, fun hnone => ?_, hinv.slab⟩
  · have husable := hinv.udp hudp
    obtain ⟨session, hs⟩ := Option.isSome_iff_exists.mp husable.session
    obtain ⟨n, hn⟩ := Option.isSome_iff_exists.mp husable.peer
    obtain ⟨claim, hhandled, hopens, hpeer, hnumber⟩ := h.adopted rfl session hs n hn
    refine ⟨session, hs, ⟨claim, hhandled, hopens, hpeer, hnumber ▸ hn⟩, husable.activity trivial,
      fun halive => ?_⟩
    simp [ServerSession.polls, hudp, halive, husable.activity trivial]
  · obtain ⟨hid, hprobe, hready⟩ := hinv.sent hsent
    exact ⟨hid, hprobe, hready, (hinv.probe hprobe).session⟩
  · obtain ⟨dcidPrefix, hroutedBy⟩ := Option.isSome_iff_exists.mp
      (hinv.prefixed (by rw [hs]; rfl))
    obtain ⟨route, hroute, hid⟩ := hinv.routes.active dcidPrefix hroutedBy hactive
    refine ⟨dcidPrefix, ?_, ?_⟩
    · rw [ServerSession.routePrefix, hs, Option.bind_some] at hroutedBy
      cases hof : session.params.scid.prefixOf with
      | error _ => simp [hof, Except.toOption] at hroutedBy
      | ok p =>
        simp only [hof, Except.toOption, Option.some.injEq] at hroutedBy
        rw [hroutedBy]
    · ext p
      constructor
      · rintro ⟨other, hother, howner⟩
        have hp := hinv.routes.own p other hother howner
        exact Option.some.inj (hp.symm.trans hroutedBy)
      · rintro rfl
        exact ⟨route, hroute, hid⟩
  · refine Set.eq_empty_iff_forall_notMem.mpr fun p => ?_
    rintro ⟨route, hroute, howner⟩
    have hp := hinv.routes.own p route hroute howner
    rw [ServerSession.routePrefix, hnone] at hp
    cases hp

def somePayload : RegisterCidPayload where
  clientToServerCid := .filled 1
  serverToClientCid := .filled 2
  cipher := .aes128Gcm
  secretTx := .replicate _ 3
  secretRx := .replicate _ 4
  pnStart := 0
  pnStartRx := 0
  keyPhase := false

def someProbe : UdpClaim :=
  ⟨⟨[192, 0, 2, 7], 40000⟩, 0, somePayload.clientSession, .message (.upgradeProbe 9 1)⟩

def connected : ServerRun :=
  initial (.new firstConnection.1 [.aes128Gcm] 1400 firstConnection.2)

def registered : ServerRun := connected.afterEvent .quiet (.tcpMessage (.registerCid somePayload))

def probed : ServerRun := registered.afterEvent .quiet (.udp someProbe)

def ready : ServerRun := probed.afterEvent .quiet (.tcpMessage (.udpReady 9))

def switched : ServerRun := ready.afterEvent .quiet (.tcpMessage (.switchAck 9))

/-- A session that has switched to UDP sends to where the probe came from. -/
theorem server_session_consistent_switched :
    switched.session.activeTransport = .udpQsp ∧
      ∃ session, switched.session.udpSession = some session ∧
        session.peer = ⟨[192, 0, 2, 7], 40000⟩ ∧
        switched.session.ownedPrefixes = {FixedBytes.replicate _ 1} := by
  have hnone : ∀ call ∈ Env.quiet.foreign, ForeignCall.Foreign 1 call :=
    fun _ hcall => nomatch hcall
  have hregistered : Reachable connected.session registered := .event _ _ .initial rfl rfl hnone
  have hprobed : Reachable connected.session probed := .event _ _ hregistered rfl rfl hnone
  have hready : Reachable connected.session ready := .event _ _ hprobed rfl rfl hnone
  have hswitched : Reachable connected.session switched := .event _ _ hready rfl rfl hnone
  have hconsistent := server_session_consistent reconnecting_valid .new (by decide)
    reconnecting_assigned hswitched rfl
  have hsession : switched.session.udpSession =
      some ⟨somePayload.serverSession, ⟨[192, 0, 2, 7], 40000⟩, []⟩ := rfl
  obtain ⟨dcidPrefix, hroutedBy, howned⟩ := hconsistent.2.2.1 _ hsession rfl
  have hscid : somePayload.serverSession.scid.prefixOf = .ok (.replicate _ 1) := rfl
  cases hscid.symm.trans hroutedBy
  exact ⟨rfl, _, hsession, rfl, howned⟩

end ServerRun

end Slt.Server
