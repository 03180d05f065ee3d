import Slt.Server.View

/-!
# The server session refines the server of the protocol

Each event of the session loop is one step of the server of the upgrade
protocol, as long as TCP stays open and packets open only under the keys they
were protected with. A probe is the hard case: the send of its echo may fail
or be cut off, before or after the packet is out.
-/

namespace Slt.Server

open Lib Lib.Handler Proto

variable {env : Env} {s : ServerSession}

/-! ## Registration -/

def ServerSession.withRegistration (s : ServerSession) (registry : SessionRegistry)
    (register : RegisterCidPayload) : ServerSession :=
  { s with registry := registry
           udpSession := some ⟨register.serverSession, placeholderPeer, []⟩
           udpPeerPacketNumber := none
           lastAuthenticatedUdpActivity := none
           udpUpgrade := .default }

theorem ServerSession.Linked.withRegistration (hs : s.Linked) (registry : SessionRegistry)
    (register : RegisterCidPayload) : (s.withRegistration registry register).Linked :=
  ⟨hs.tcpAlive, hs.writable, fun _ => ⟨rfl, rfl⟩⟩

theorem steps_handleRegisterMessage (h : env.TcpOpen) (hs : s.Linked)
    (register : RegisterCidPayload) :
    party.Shows (Steps s (.message (.register register))) s
      (handleRegisterMessage env (.ok register)) := by
  refine .get_bind ?_
  split
  · exact .throw hs (.skip _ trivial)
  next htcp =>
  refine .get_bind ?_
  split
  · refine .takes_bind (takes_sendTcpMessage h hs _) fun _ => ?_
    exact .pure hs (.refuse register)
  next registry _ =>
  have hs' : { s with registry := registry }.Linked := ⟨hs.tcpAlive, hs.writable, hs.clear⟩
  refine .modify_bind ?_
  split
  · exact .throw hs' (.skip _ trivial)
  · have hinstall : party.Takes { s with registry := registry }
        (s.withRegistration registry register) [.install register] (installUdpSession register) :=
      .bind .modify fun _ => .emit
    have hlinked := hs.withRegistration registry register
    refine .takes_bind hinstall fun _ => ?_
    refine .takes_bind (takes_sendTcpMessage h hlinked _) fun _ => .pure hlinked ?_
    exact .install register (by simp [ServerSession.view, htcp])

/-! ## The upgrade handshake -/

/-- The switch is offered once both the probe and the announcement are in. -/
theorem shows_maybeSendSwitchToUdp (h : env.TcpOpen) (hs : s.Linked) {upgradeId : UInt64}
    (hid : s.udpUpgrade.upgradeId = some upgradeId) :
    party.Shows (fun v acts => v = s.view.offer ∧ acts = s.view.offers upgradeId) s
      (maybeSendSwitchToUdp env) := by
  refine .get_bind ?_
  dsimp only
  split
  · next hwait =>
    refine .pure hs ⟨?_, ?_⟩
    · have hkeep : (s.udpUpgrade.switchToUdpSent ||
          (s.udpUpgrade.probeSeen && s.udpUpgrade.readySeen)) = s.udpUpgrade.switchToUdpSent := by
        revert hwait
        cases s.udpUpgrade.switchToUdpSent <;> cases s.udpUpgrade.probeSeen <;>
          cases s.udpUpgrade.readySeen <;> simp
      simp [party, Upgrade.Server.offer, ServerSession.view, hkeep]
    · rw [Upgrade.Server.offers, if_neg]
      revert hwait
      simp only [ServerSession.view]
      cases s.udpUpgrade.switchToUdpSent <;> cases s.udpUpgrade.probeSeen <;>
        cases s.udpUpgrade.readySeen <;> simp
  · next hgo =>
    simp only [Bool.or_eq_true, Bool.not_eq_true', not_or, Bool.not_eq_true,
      Bool.not_eq_false] at hgo
    obtain ⟨⟨hsent, hprobe⟩, hready⟩ := hgo
    rw [hid]
    refine .takes_bind (takes_sendTcpMessage h hs _) fun _ => .modify ?_ ⟨?_, ?_⟩
    · exact ⟨hs.tcpAlive, hs.writable, fun hnone => by cases hid.symm.trans hnone⟩
    · simp [party, Upgrade.Server.offer, ServerSession.view, hprobe, hready]
    · simp [Upgrade.Server.offers, ServerSession.view, hprobe, hready, hsent, Message.toClient]

theorem hides_maybeSendSwitchToUdp_of_not_probeSeen (hs : s.Linked)
    (hprobe : s.udpUpgrade.probeSeen = false) : party.Hides s (maybeSendSwitchToUdp env) := by
  refine .get_bind ?_
  dsimp only
  rw [if_pos (by simp [hprobe])]
  exact .pure hs

theorem noteUpgradeId_udpReady {u u' : UdpUpgradeState} {upgradeId : UInt64}
    (h : u.noteUpgradeId upgradeId .udpReady = some u') :
    (u.upgradeId = none ∨ u.upgradeId = some upgradeId) ∧
      u' = { u with upgradeId := some upgradeId } := by
  unfold UdpUpgradeState.noteUpgradeId at h
  rw [if_neg (by simp)] at h
  split at h
  · next hnone =>
    cases h
    exact ⟨.inl hnone, rfl⟩
  · next existing hsome =>
    split at h
    · next heq =>
      cases h
      rw [heq] at hsome
      exact ⟨.inr hsome, by rw [← hsome]⟩
    · cases h

theorem steps_handleUdpReady (h : env.TcpOpen) (hs : s.Linked) (upgradeId : UInt64) :
    party.Shows (Steps s (.message (.ready upgradeId))) s (handleUdpReady env upgradeId) := by
  refine .get_bind ?_
  split
  · exact .pure hs (.skip _ trivial)
  next u hu =>
  obtain ⟨hfree, rfl⟩ := noteUpgradeId_udpReady hu
  have hs' : { s with udpUpgrade :=
      { s.udpUpgrade with upgradeId := some upgradeId, readySeen := true } }.Linked :=
    ⟨hs.tcpAlive, hs.writable, fun hnone => nomatch hnone⟩
  refine .modify_bind (.bind_hides ((shows_maybeSendSwitchToUdp h hs' rfl).mono ?_) ?_)
  case refine_2 => exact fun _ _ hs'' => .pure hs''
  rintro _ _ ⟨rfl, rfl⟩
  exact .announced upgradeId hfree

theorem takes_setActiveTransport_udpQsp :
    party.Takes s { s with activeTransport := .udpQsp } [.prefer true]
      (setActiveTransport .udpQsp) := by
  refine .bind .emit fun _ => .get_bind ?_
  cases s.activeTransport <;> exact .modify

theorem steps_handleSwitchAck (h : env.TcpOpen) (hs : s.Linked) (upgradeId : UInt64) :
    party.Shows (Steps s (.message (.ack upgradeId))) s (handleSwitchAck env upgradeId) := by
  refine .get_bind ?_
  dsimp only
  split
  · next hnone => exact .pure hs (.skip _ fun hid => nomatch hnone.symm.trans hid)
  next expected hexpected =>
  split
  · next hne =>
    refine .pure hs (.skip _ fun hid => absurd ?_ hne)
    exact Option.some.inj (hexpected.symm.trans hid)
  next heq =>
  obtain rfl := not_not.mp heq
  split
  · next hsent => exact .pure hs (.skip _ fun _ => by simpa [ServerSession.view] using hsent)
  next hsent =>
  rw [Bool.not_eq_true, Bool.not_eq_false'] at hsent
  have hs' : { s with activeTransport := .udpQsp }.Linked := ⟨hs.tcpAlive, hs.writable, hs.clear⟩
  refine .takes_bind takes_setActiveTransport_udpQsp fun _ => ?_
  refine .takes_bind (takes_sendTcpMessage h hs' _) fun _ => ?_
  refine .modify_bind (.pure ⟨hs.tcpAlive, hs.writable, fun _ => ⟨rfl, rfl⟩⟩ ?_)
  exact .switched expected hexpected hsent

/-! ## Probes -/

/-- The echo is out when it is queued without an error, and may be out when not. -/
structure Queued (p : Upgrade.Probe RegisterCidPayload UInt64) (s : ServerSession)
    (r : Except (Stop SessionError) (Option UdpQspError)) (s' : ServerSession)
    (out : List ServerEffect) : Prop where
  linked : s'.Linked
  view : s'.view = s.view
  sent : ∃ sent, party.actions out = Upgrade.Server.echoes sent p ∧ (r = .ok none → sent = true)

/-- The echo was sent, or cut off, or its failure has ended the UDP session. -/
structure Answered (p : Upgrade.Probe RegisterCidPayload UInt64) (s : ServerSession)
    (r : Except (Stop SessionError) Unit) (s' : ServerSession) (out : List ServerEffect) :
    Prop where
  linked : s'.Linked
  outcome : (s'.view = s.view ∧ ∃ sent, party.actions out = Upgrade.Server.echoes sent p ∧
      (r = .ok () → sent = true)) ∨
    s'.view = s.view.retire ∧ ∃ sent, party.actions out =
      Upgrade.Server.echoes sent p ++ [.retire p.registration, .silence]

theorem queued_queueUdpMessage (hs : s.Linked) {p : Upgrade.Probe RegisterCidPayload UInt64}
    (hkeys : s.view.session = some p.registration) :
    Triple (queueUdpMessage env (.upgradeProbeAck p.upgradeId p.nonce)) s (Queued p s) := by
  obtain ⟨session, hsession, hreg⟩ : ∃ session, s.udpSession = some session ∧
      session.params.ofServer = p.registration := by
    simpa [ServerSession.view] using hkeys
  have hunsent (r : Except (Stop SessionError) (Option UdpQspError)) (s' : ServerSession)
      (out : List ServerEffect) (hr : r ≠ .ok none) (hs' : s'.Linked) (hview : s'.view = s.view)
      (hout : party.actions out = []) : Queued p s r s' out :=
    ⟨hs', hview, false, hout, fun hok => absurd hok hr⟩
  have hecho : party.action (.udp session.params (.upgradeProbeAck p.upgradeId p.nonce)) =
      some (.echo p) := by
    show some (Upgrade.ServerAction.echo ⟨session.params.ofServer, p.upgradeId, p.nonce⟩) = _
    rw [hreg]
  refine (triple_get_bind _).mpr ?_
  rw [hsession]
  dsimp only
  split
  · exact hunsent _ _ _ (fun hr => by cases hr) hs rfl rfl
  refine Triple.bind (hides_flushIfNeeded hs _).triple ?_ ?_
  · rintro (_ | source) s' out ⟨hs', hview, hout⟩
    · refine (triple_emit_bind _ _).mpr (Triple.weaken (hides_afterAppend hs' _).triple ?_)
      rintro r s'' out' ⟨hs'', hview', hout'⟩
      refine ⟨hs'', hview'.trans hview, true, ?_, fun _ => rfl⟩
      rw [Abstraction.actions_append, hout, Abstraction.actions, List.filterMap_cons_some hecho]
      exact congrArg (List.cons (Upgrade.ServerAction.echo p)) hout'
    · refine hunsent _ _ _ (fun hr => by cases hr) hs' hview ?_
      rw [Abstraction.actions_append, hout]
      rfl
  · rintro e s' out ⟨hs', hview, hout⟩
    exact hunsent _ _ _ (fun hr => by cases hr) hs' hview hout

theorem takes_recoverFromUdpError_retireOnly (hs : s.Linked)
    {r : RegisterCidPayload} (hkeys : s.view.session = some r) (message : Option Message)
    (err : UdpQspError) :
    party.Takes s s.retireUdp.preferTcp [.retire r, .silence]
      (recoverFromUdpError env message .retireOnly err) := by
  have hretires : (s.view.retires : List ServerAction) = [.retire r] := by
    rw [Upgrade.Server.retires, hkeys]
    rfl
  have hretire : party.Takes s s.retireUdp [.retire r] retireUdpTransport :=
    hretires ▸ takes_retireUdpTransport
  refine .bind hretire fun _ => .get_bind ?_
  rw [if_pos hs.retireUdp.tcpAlive]
  exact .bind takes_setActiveTransport_tcp fun _ => .bind .emit fun _ => .pure

theorem answered_sendUdpMessage (hs : s.Linked) {p : Upgrade.Probe RegisterCidPayload UInt64}
    (hkeys : s.view.session = some p.registration) :
    Triple (sendUdpMessage env (.upgradeProbeAck p.upgradeId p.nonce) .retireOnly) s
      (Answered p s) := by
  refine Triple.bind (queued_queueUdpMessage hs hkeys) ?_ ?_
  · rintro (_ | err) s' out ⟨hs', hview, sent, hout, hsent⟩
    · refine ⟨hs', .inl ⟨hview, sent, ?_, fun _ => hsent rfl⟩⟩
      rw [Abstraction.actions_append, hout]
      exact List.append_nil _
    · have hgone := hkeys
      rw [← hview] at hgone
      refine Triple.weaken (takes_recoverFromUdpError_retireOnly hs' hgone _ err) ?_
      rintro r s'' out' ⟨-, rfl, hout'⟩
      refine ⟨hs'.retireUdp.preferTcp, .inr ⟨?_, sent, ?_⟩⟩
      · rw [view_retired, hview]
      · rw [Abstraction.actions_append, hout, hout']
  · rintro e s' out ⟨hs', hview, sent, hout, -⟩
    exact ⟨hs', .inl ⟨hview, sent, hout, nofun⟩⟩

theorem answered_sendUdpMessageAndFlush (hs : s.Linked)
    {p : Upgrade.Probe RegisterCidPayload UInt64}
    (hkeys : s.view.session = some p.registration) :
    Triple (sendUdpMessageAndFlush env (.upgradeProbeAck p.upgradeId p.nonce) .retireOnly) s
      (Answered p s) := by
  refine Triple.bind (answered_sendUdpMessage hs hkeys) ?_ ?_
  · rintro _ s' out ⟨hs', ⟨hview, sent, hout, hsent⟩ | ⟨hview, sent, hout⟩⟩
    · obtain rfl := hsent rfl
      refine Triple.bind (hides_flushUdpSession hs' _).triple ?_ ?_
      · rintro (_ | source) s'' out' ⟨hs'', hview', hout'⟩
        · refine ⟨hs'', .inl ⟨hview'.trans hview, true, ?_, fun _ => rfl⟩⟩
          rw [Abstraction.actions_append, Abstraction.actions_append, hout, hout']
          rfl
        · have hgone : s''.view.session = some p.registration := by
            rw [show s''.view = s.view from hview'.trans hview, hkeys]
          refine Triple.weaken (takes_recoverFromUdpError_retireOnly hs'' hgone _ _) ?_
          rintro r t out'' ⟨-, rfl, hout''⟩
          refine ⟨hs''.retireUdp.preferTcp, .inr ⟨?_, true, ?_⟩⟩
          · rw [view_retired, show s''.view = s.view from hview'.trans hview]
          · rw [Abstraction.actions_append, Abstraction.actions_append, hout, hout', hout'']
            rfl
      · rintro e s'' out' ⟨hs'', hview', hout'⟩
        refine ⟨hs'', .inl ⟨hview'.trans hview, true, ?_, nofun⟩⟩
        rw [Abstraction.actions_append, hout, hout']
        rfl
    · -- the session is gone, and there is nothing to flush
      have hnone : s'.udpSession = none := by
        have hsession := congrArg Upgrade.Server.session hview
        simpa [ServerSession.view, Upgrade.Server.retire] using hsession
      refine Triple.bind (flushUdpSession_of_none hnone _) ?_ ?_
      · rintro _ _ _ ⟨hok, rfl, rfl⟩
        cases hok
        refine ⟨hs', .inr ⟨hview, sent, ?_⟩⟩
        rw [Abstraction.actions_append, hout]
        exact List.append_nil _
      · rintro e _ _ ⟨hok, -⟩
        cases hok
  · rintro e s' out ⟨hs', houtcome⟩
    refine ⟨hs', houtcome.imp_left ?_⟩
    rintro ⟨hview, sent, hout, -⟩
    exact ⟨hview, sent, hout, nofun⟩

theorem noteUpgradeId_upgradeProbe {u u' : UdpUpgradeState} {upgradeId : UInt64}
    (h : u.noteUpgradeId upgradeId .upgradeProbe = some u')
    (hclear : u.upgradeId = none → u.readySeen = false ∧ u.switchToUdpSent = false) :
    u.upgradeId = some upgradeId ∧ u' = u ∨
      u.upgradeId ≠ some upgradeId ∧ u'.upgradeId = some upgradeId ∧ u'.readySeen = false ∧
        u'.switchToUdpSent = false := by
  unfold UdpUpgradeState.noteUpgradeId at h
  split at h
  · cases h
  split at h
  · next hnone =>
    cases h
    exact .inr ⟨by rw [hnone]; exact nofun, rfl, hclear hnone⟩
  · next existing hsome =>
    split at h
    · next heq =>
      cases h
      exact .inl ⟨heq ▸ hsome, rfl⟩
    · next hne =>
      cases h
      refine .inr ⟨fun heq => hne ?_, rfl, rfl, rfl⟩
      exact Option.some.inj (hsome.symm.trans heq)

/-- `hkeys` says that the packet belongs to the registration of the session. -/
theorem steps_handleUpgradeProbe (h : env.TcpOpen) (hs : s.Linked)
    {p : Upgrade.Probe RegisterCidPayload UInt64}
    (hkeys : s.view.session = some p.registration) :
    party.Shows (Steps s (.packet p)) s (handleUpgradeProbe env p.upgradeId p.nonce) := by
  refine .get_bind ?_
  split
  · exact .pure hs (.skip _ trivial)
  next u hu =>
  have hs' : { s with udpUpgrade := { u with probeSeen := true } }.Linked := by
    refine ⟨hs.tcpAlive, hs.writable, fun hnone => ?_⟩
    rcases noteUpgradeId_upgradeProbe hu hs.clear with ⟨hid, rfl⟩ | ⟨-, hid, -⟩
    · cases hid.symm.trans hnone
    · cases hid.symm.trans hnone
  -- the view after the probe is noted, and what can be made of it
  have hnoted : { s with udpUpgrade := { u with probeSeen := true } }.udpUpgrade.upgradeId =
      some p.upgradeId ∧ ∀ sent v acts,
      (v = { s with udpUpgrade := { u with probeSeen := true } }.view ∧
          acts = Upgrade.Server.echoes sent p ∨
        v = { s with udpUpgrade := { u with probeSeen := true } }.view.offer ∧
          acts = .echo p ::
            { s with udpUpgrade := { u with probeSeen := true } }.view.offers p.upgradeId) →
      Steps s (.packet p) v acts := by
    rcases noteUpgradeId_upgradeProbe hu hs.clear with ⟨hid, rfl⟩ | ⟨hother, hid, hready, hsent⟩
    · refine ⟨hid, ?_⟩
      rintro sent v acts (⟨rfl, rfl⟩ | ⟨rfl, rfl⟩)
      · exact .interrupted p sent hkeys hid
      · exact .probed p hkeys hid
    · have hview : { s with udpUpgrade := { u with probeSeen := true } }.view =
          { s.view.clear with upgradeId := some p.upgradeId, probeSeen := true } := by
        simp [ServerSession.view, Upgrade.Server.clear, hid, hready, hsent]
      refine ⟨hid, ?_⟩
      rw [hview]
      rintro sent v acts (⟨rfl, rfl⟩ | ⟨rfl, rfl⟩)
      · exact .superseded p sent hkeys hother
      · exact .superseded p true hkeys hother
  obtain ⟨hid, hsteps⟩ := hnoted
  refine .modify_bind ?_
  refine Triple.bind (answered_sendUdpMessageAndFlush hs' hkeys) ?_ ?_
  · rintro _ s' out ⟨hlinked, ⟨hview, sent, hout, hsent⟩ | ⟨hview, sent, hout⟩⟩
    · obtain rfl := hsent rfl
      have hid' : s'.udpUpgrade.upgradeId = some p.upgradeId :=
        (congrArg Upgrade.Server.upgradeId hview).trans hid
      have hoffer : party.Shows _ s' _ := .bind_hides (shows_maybeSendSwitchToUdp h hlinked hid')
        fun _ _ hs'' => .pure (a := SessionControl.continue) hs''
      refine Triple.weaken hoffer ?_
      rintro r s'' out' ⟨hs'', hview'', hout''⟩
      refine ⟨hs'', hsteps true _ _ (.inr ⟨?_, ?_⟩)⟩
      · rw [hview'', hview]
      · rw [Abstraction.actions_append, hout, hout'', hview]
        rfl
    · have hprobe : s'.udpUpgrade.probeSeen = false := congrArg Upgrade.Server.probeSeen hview
      have hnothing : party.Hides s' _ :=
        .bind (@hides_maybeSendSwitchToUdp_of_not_probeSeen env _ hlinked hprobe)
          fun _ _ hs'' => .pure (a := SessionControl.continue) hs''
      refine Triple.weaken hnothing.triple ?_
      rintro r s'' out' ⟨hs'', hview'', hout''⟩
      refine ⟨hs'', ?_⟩
      rw [hview'', Abstraction.actions_append, hout, hout'', List.append_nil,
        show party.view s' = s.view.retire from hview]
      exact .dropped p sent hkeys
  · rintro e s' out ⟨hlinked, ⟨hview, sent, hout, -⟩ | ⟨hview, sent, hout⟩⟩
    · exact ⟨hlinked, hsteps sent _ _ (.inl ⟨hview, hout⟩)⟩
    · refine ⟨hlinked, ?_⟩
      rw [hout, show party.view s' = s.view.retire from hview]
      exact .dropped p sent hkeys

/-! ## Fallback -/

def ServerSession.yielded (s : ServerSession) (fallbackId : UInt64) : ServerSession :=
  { resetUdpUpgradeState s.preferTcp with lastPeerFallbackId := some fallbackId }

theorem takes_acceptClientFallback (fallbackId : UInt64) :
    party.Takes s (s.yielded fallbackId) [] (acceptClientFallback fallbackId) :=
  .bind takes_setActiveTransport_tcp fun _ => .bind .modify fun _ => .modify

theorem steps_handleFallbackToTcp (h : env.TcpOpen) (hs : s.Linked) (fallbackId : UInt64) :
    party.Shows (Steps s (.message (.fallback fallbackId))) s
      (handleFallbackToTcp env fallbackId) := by
  by_cases hseen : s.lastPeerFallbackId = some fallbackId
  · have hyield : party.Takes s s [] (yieldToFallback fallbackId) := by
      refine .get_bind ?_
      rw [if_pos hseen]
      exact .pure
    refine .takes_bind hyield fun _ => .takes_bind (takes_sendTcpMessage h hs _) fun _ => ?_
    exact .pure hs (.yielded fallbackId hseen)
  · have hyield : party.Takes s (s.yielded fallbackId) [] (yieldToFallback fallbackId) := by
      refine .get_bind ?_
      rw [if_neg hseen]
      exact takes_acceptClientFallback fallbackId
    have hs' : (s.yielded fallbackId).Linked :=
      ⟨hs.preferTcp.tcpAlive, hs.preferTcp.writable, fun _ => ⟨rfl, rfl⟩⟩
    have hview : (s.yielded fallbackId).view =
        { s.view.clear with udp := false, lastPeer := some fallbackId } :=
      congrArg (fun v : ServerView => { v.clear with lastPeer := some fallbackId }) view_preferTcp
    refine .takes_bind hyield fun _ => .takes_bind (takes_sendTcpMessage h hs' _) fun _ => ?_
    refine .pure hs' ?_
    rw [show party.view (s.yielded fallbackId) = _ from hview]
    exact .yield fallbackId hseen

theorem steps_handleFallbackOk (hs : s.Linked) (fallbackId : UInt64) :
    party.Shows (Steps s (.message (.fallbackOk fallbackId))) s (handleFallbackOk fallbackId) := by
  refine .modify_bind ?_
  split
  · next hp => exact .pure ⟨hs.tcpAlive, hs.writable, hs.clear⟩ (.settled fallbackId hp)
  · next hp => exact .pure hs (.skip _ hp)

theorem fails_handleUdpLivenessTimeout (h : env.TcpOpen) (hs : s.Linked) :
    party.Shows (Fails env.fallbackId s.view) s (handleUdpLivenessTimeout env) := by
  refine .get_bind ?_
  split
  · exact .pure hs (.inl ⟨rfl, rfl⟩)
  · refine .takes_bind takes_setActiveTransport_tcp fun _ => ?_
    refine .takes_bind takes_retireUdpTransport fun _ => ?_
    have hview : s.preferTcp.retireUdp.view = s.view.retire := by
      have hclear : s.preferTcp.retireUdp.view = { s.preferTcp.view.clear with session := none } :=
        rfl
      rw [hclear, view_preferTcp]
      rfl
    have hretires : (s.preferTcp.view.retires : List ServerAction) = s.view.retires := by
      rw [view_preferTcp]
      rfl
    refine .bind_hides (shows_fallbackRequest h hs.preferTcp.retireUdp hview hretires) ?_
    exact fun _ _ hs' => .pure hs'

/-! ## Messages -/

theorem hides_forwardToTun (hs : s.Linked) (packet : Bytes) :
    party.Hides s (forwardToTun env packet) := by
  refine .get_bind ?_
  split
  · split
    · exact .bind (.emit hs rfl) fun _ _ hs' => .pure hs'
    · exact .pure hs
    · exact .throw hs
    · exact .throw hs
    · exact .drop hs
  · exact .pure hs

theorem hides_validateMessage (hs : s.Linked) (type : MessageType) (transport : MessageTransport) :
    party.Hides s (validateMessage type transport) := by
  unfold validateMessage
  split
  · exact .pure hs
  · exact .throw hs

theorem validateMessage_bind {α : Type} {type : MessageType} {transport : MessageTransport}
    (h : validateMessageType type (clientContext transport) = .ok ()) (m : ServerM α) :
    (do validateMessage type transport; m) = m := by
  rw [validateMessage, h]
  rfl

theorem steps_handleTcpMessage (h : env.TcpOpen) (hs : s.Linked) (message : Message) :
    party.Shows (Steps s (SessionEvent.tcpMessage message).input) s
      (handleTcpMessage env message) := by
  unfold handleTcpMessage
  cases message with
  | registerCid payload =>
    rw [validateMessage_bind rfl]
    exact steps_handleRegisterMessage h hs payload
  | udpReady upgradeId =>
    rw [validateMessage_bind rfl]
    exact steps_handleUdpReady h hs upgradeId
  | switchAck upgradeId =>
    rw [validateMessage_bind rfl]
    exact steps_handleSwitchAck h hs upgradeId
  | fallbackToTcp fallbackId =>
    rw [validateMessage_bind rfl]
    exact steps_handleFallbackToTcp h hs fallbackId
  | fallbackOk fallbackId =>
    rw [validateMessage_bind rfl]
    exact steps_handleFallbackOk hs fallbackId
  | data packet =>
    rw [validateMessage_bind rfl]
    exact (hides_forwardToTun hs packet).shows (.skip .tick trivial)
  | ping nonce =>
    rw [validateMessage_bind rfl]
    refine Abstraction.Hides.shows (.bind (hides_sendTcpMessage h hs rfl) ?_) (.skip .tick trivial)
    exact fun _ _ hs' => .pure hs'
  -- the others change nothing, or are rejected
  | _ =>
    refine Abstraction.Hides.shows (.bind (hides_validateMessage hs _ _) ?_) (.skip .tick trivial)
    exact fun _ _ hs' => .pure hs'

theorem hides_noteAuthenticatedUdpActivity (hs : s.Linked) :
    party.Hides s (noteAuthenticatedUdpActivity env) :=
  .modify ⟨hs.tcpAlive, hs.writable, hs.clear⟩ rfl

theorem fails_dispatchUdpMessage (h : env.TcpOpen) (hs : s.Linked) {message : Message}
    (hplain : ∀ upgradeId nonce, message ≠ .upgradeProbe upgradeId nonce) :
    party.Shows (Fails env.fallbackId s.view) s (dispatchUdpMessage env message) := by
  cases message with
  | upgradeProbe upgradeId nonce => exact absurd rfl (hplain upgradeId nonce)
  | ping nonce =>
    refine .bind_hides (fails_sendUdpMessageAndFlush h hs rfl rfl nofun) ?_
    exact fun _ _ hs' => .pure hs'
  | data packet => exact (hides_forwardToTun hs packet).shows (.inl ⟨rfl, rfl⟩)
  | _ => exact .pure hs (.inl ⟨rfl, rfl⟩)

theorem fails_handleUdpMessage (h : env.TcpOpen) (hs : s.Linked) {message : Message}
    (hplain : ∀ upgradeId nonce, message ≠ .upgradeProbe upgradeId nonce) :
    party.Shows (Fails env.fallbackId s.view) s (handleUdpMessage env message) := by
  refine .hides_bind (hides_validateMessage hs _ _) (.inl ⟨rfl, rfl⟩) fun _ s' hs' hview => ?_
  rw [show s.view = s'.view from hview.symm]
  refine .bind_hides (fails_dispatchUdpMessage h hs' hplain) fun _ s'' hs'' => ?_
  exact .bind (hides_noteAuthenticatedUdpActivity hs'') fun _ _ ht => .pure ht

/-- The packet was protected by the other end of the session's registration. -/
def ServerSession.Expects (s : ServerSession) (claim : UdpClaim) : Prop :=
  s.view.session = some claim.sender.ofClient

theorem ServerSession.Linked.adopt (hs : s.Linked) (peer : SocketAddr) (packetNumber : Nat) :
    (adoptUdpPeerIfNewer peer packetNumber s).Linked ∧
      (adoptUdpPeerIfNewer peer packetNumber s).view = s.view := by
  unfold adoptUdpPeerIfNewer
  split
  · exact ⟨hs, rfl⟩
  · next session hsession =>
    split
    · exact ⟨hs, rfl⟩
    · refine ⟨⟨hs.tcpAlive, hs.writable, hs.clear⟩, ?_⟩
      simp [ServerSession.view, hsession]

theorem handleUdpMessage_upgradeProbe (upgradeId nonce : UInt64) :
    handleUdpMessage env (.upgradeProbe upgradeId nonce) = (do
      let control ← handleUpgradeProbe env upgradeId nonce
      noteAuthenticatedUdpActivity env
      pure control) :=
  validateMessage_bind rfl _

section

variable (h : env.TcpOpen) (hs : s.Linked)
include h hs

theorem steps_handleUdpPayload {claim : UdpClaim} (hkeys : s.Expects claim) :
    party.Shows (Steps s claim.input) s (handleUdpPayload env claim.payload) := by
  obtain ⟨peer, packetNumber, sender, payload⟩ := claim
  cases payload with
  | message message =>
    by_cases hplain : ∀ upgradeId nonce, message ≠ .upgradeProbe upgradeId nonce
    · have htick : UdpClaim.input ⟨peer, packetNumber, sender, .message message⟩ = .tick := by
        cases message with
        | upgradeProbe upgradeId nonce => exact absurd rfl (hplain upgradeId nonce)
        | _ => rfl
      rw [htick]
      exact steps_of_fails (fails_handleUdpMessage h hs hplain)
    · obtain ⟨upgradeId, nonce, rfl⟩ : ∃ upgradeId nonce,
          message = .upgradeProbe upgradeId nonce := by
        simpa using hplain
      have hsteps := @steps_handleUpgradeProbe env s h hs ⟨sender.ofClient, upgradeId, nonce⟩ hkeys
      rw [handleUdpPayload, handleUdpMessage_upgradeProbe]
      refine .bind_hides hsteps fun _ s' hs' => ?_
      exact .bind (hides_noteAuthenticatedUdpActivity hs') fun _ _ ht => .pure ht
  | malformed type err =>
    refine Abstraction.Hides.shows (.bind (hides_validateMessage hs _ _) ?_) (.skip .tick trivial)
    exact fun _ _ hs' => .throw hs'
  | unframed err => exact .throw hs (.skip .tick trivial)
  | incomplete => exact .throw hs (.skip .tick trivial)

theorem steps_handleUdpClaim {claim : UdpClaim} (hkeys : s.Expects claim) :
    party.Shows (Steps s claim.input) s (handleUdpClaim env claim) := by
  obtain ⟨hlinked, hview⟩ := hs.adopt claim.peer claim.packetNumber
  have hkeys' : (adoptUdpPeerIfNewer claim.peer claim.packetNumber s).Expects claim := by
    rw [ServerSession.Expects, hview]
    exact hkeys
  refine .modify_bind ((steps_handleUdpPayload h hlinked hkeys').mono fun v acts hstep => ?_)
  rw [Steps, ← hview]
  exact hstep

/-! ## Events -/

theorem fails_handleTunPacket (packet : Bytes) :
    party.Shows (Fails env.fallbackId s.view) s (handleTunPacket env packet) := by
  refine .get_bind ?_
  split
  · exact .pure hs (.inl ⟨rfl, rfl⟩)
  split
  · refine Abstraction.Hides.shows (.bind (hides_sendTcpMessage h hs rfl) ?_) (.inl ⟨rfl, rfl⟩)
    exact fun _ _ hs' => .pure hs'
  · exact .bind_hides (fails_sendUdpMessage h hs rfl rfl nofun) fun _ _ hs' => .pure hs'

theorem fails_handlePingTick :
    party.Shows (Fails env.fallbackId s.view) s (handlePingTick env) := by
  refine .get_bind ?_
  split
  · refine Abstraction.Hides.shows (.bind (hides_sendTcpMessage h hs rfl) ?_) (.inl ⟨rfl, rfl⟩)
    exact fun _ _ hs' => .pure hs'
  · exact .bind_hides (fails_sendUdpMessageAndFlush h hs rfl rfl nofun) fun _ _ hs' => .pure hs'

theorem fails_handleUdpFlush :
    party.Shows (Fails env.fallbackId s.view) s (handleUdpFlush env) := by
  refine .hides_bind (hides_flushUdpSession hs none) (.inl ⟨rfl, rfl⟩) fun flushed s' hs' hview => ?_
  rw [show s.view = s'.view from hview.symm]
  cases flushed with
  | none => exact .pure hs' (.inl ⟨rfl, rfl⟩)
  | some source =>
    refine .bind_hides (fails_recoverFromUdpError h hs' ?_ ?_ _) fun _ _ ht => .pure ht
    · exact fun _ hm => nomatch hm
    · exact nofun

theorem hides_sendCloseOverTcp (code : CloseCode) : party.Hides s (sendCloseOverTcp env code) := by
  refine .get_bind ?_
  split
  · exact .throw hs
  · exact hides_sendTcpMessage h hs rfl

end

theorem hides_sendCloseOverUdp (hs : s.Linked) (code : CloseCode) :
    party.Hides s (sendCloseOverUdp env code) := by
  refine .get_bind ?_
  split
  · exact .throw hs
  refine .bind (hides_queueUdpMessage hs rfl) fun queued s' hs' => ?_
  cases queued with
  | some err => exact .throw hs'
  | none =>
    refine .bind (hides_flushUdpSession hs' _) fun flushed s'' hs'' => ?_
    cases flushed with
    | some source => exact .throw hs''
    | none => exact .pure hs''

/-- One event of the session is one step, as long as the stream is not closed and
carries whole messages. -/
theorem steps_handleEvent (h : env.TcpOpen) (hs : s.Linked) {event : SessionEvent}
    (hopen : event ≠ .tcpClosed) (hwhole : ∀ type err, event ≠ .tcpMalformed type err)
    (hkeys : ∀ claim, event = .udp claim → s.Expects claim) :
    party.Shows (Steps s event.input) s (handleEvent env event) := by
  cases event with
  | tcpMessage message => exact steps_handleTcpMessage h hs message
  | tcpMalformed type err => exact absurd rfl (hwhole type err)
  | tcpUnframed err => exact .throw hs (.skip .tick trivial)
  | tcpClosed => exact absurd rfl hopen
  | tcpFailed source => exact .throw hs (.skip .tick trivial)
  | udp claim => exact steps_handleUdpClaim h hs (hkeys claim rfl)
  | udpDropped => exact .pure hs (.skip .tick trivial)
  | tunPacket packet => exact steps_of_fails (fails_handleTunPacket h hs packet)
  | udpFlush => exact steps_of_fails (fails_handleUdpFlush h hs)
  | pingTimer => exact steps_of_fails (fails_handlePingTick h hs)
  | udpLivenessTimer => exact steps_of_fails (fails_handleUdpLivenessTimeout h hs)
  | idleTimer =>
    have hclose : party.Hides s (sendClose env .idleTimeout) := by
      refine .get_bind ?_
      split
      · exact hides_sendCloseOverTcp h hs _
      · exact hides_sendCloseOverUdp hs _
    refine Abstraction.Hides.shows (.bind (.attempt hclose) ?_) (.skip .tick trivial)
    exact fun _ _ hs' => .pure hs'
  | shutdown => exact .drop hs (.skip .tick trivial)

/-! ## The closing steps -/

theorem hides_tryCloseOverUdp (hs : s.Linked) (code : CloseCode) :
    party.Hides s (tryCloseOverUdp env code) := by
  refine .get_bind ?_
  split
  · exact .pure hs
  · refine .bind (.timeout _ (.attempt (hides_sendCloseOverUdp hs code))) ?_
    exact fun _ _ hs' => .pure hs'

theorem hides_sendCloseBestEffort (h : env.TcpOpen) (hs : s.Linked) (code : CloseCode) :
    party.Hides s (sendCloseBestEffort env code) := by
  refine .get_bind ?_
  split
  · refine .bind (.timeout _ (.attempt (hides_sendCloseOverTcp h hs code))) fun _ s' hs' => ?_
    split
    · exact .pure hs'
    · exact hides_tryCloseOverUdp hs' code
  · exact hides_tryCloseOverUdp hs code

theorem hides_closeSession (h : env.TcpOpen) (hs : s.Linked) (outcome : RunOutcome) :
    party.Hides s (closeSession env outcome) := by
  have hmanaged : party.Hides s (handleManagedShutdown env outcome) := by
    cases outcome with
    | shutdown reason => exact hides_sendCloseBestEffort h hs reason.closeCode
    | _ => exact .pure hs
  refine .bind hmanaged fun _ s₁ hs₁ => ?_
  have htold : party.Hides s₁ (tellPeerAtFault env outcome.result) := by
    cases outcome.result with
    | ok _ => exact .pure hs₁
    | error err =>
      unfold tellPeerAtFault
      dsimp only
      split
      · exact hides_sendCloseBestEffort h hs₁ .protocolError
      · exact .pure hs₁
  refine .bind htold fun _ s₂ hs₂ => ?_
  have hflush : party.Hides s₂ (flushPendingUdpSessionBestEffort env) := by
    refine .get_bind ?_
    split
    · exact .pure hs₂
    split
    · exact .pure hs₂
    · exact .bind (.timeout _ (hides_flushUdpSession hs₂ none)) fun _ _ ht => .pure ht
  exact .bind hflush fun _ s₃ hs₃ => .modify ⟨hs₃.tcpAlive, hs₃.writable, hs₃.clear⟩ rfl

end Slt.Server
