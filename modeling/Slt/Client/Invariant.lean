import Slt.Client.Session

/-!
# What holds between the parts of a client session

The transport preferred, the state of the UDP path, the upgrade attempt, the
retained transport, the discovery task and the stream are changed by many
handlers, several of which stop half way. `Inv` is what all of them keep, at
every point where they may stop, and with it the errors that report an
inconsistent session do not occur.
-/

namespace Slt.Client

open Lib Lib.Handler Proto

/-! ## The invariant -/

def UdpState.IsActive (state : UdpState) : Prop := ∃ transport, state = .active transport

def UdpState.IsReplacing (state : UdpState) : Prop :=
  state = .needDiscovery ∨ ∃ ids registration, state = .pending ids registration

/-- An attempt is under way or will be made again. -/
def UdpUpgradeState.IsAttempt : UdpUpgradeState → Prop
  | .upgrading _ => True
  | .awaitingSwitchOk _ _ => True
  | .tcpOnlyBlockedUdp _ => True
  | .disabled => False
  | .idle => False

def UdpUpgradeState.IsValidated : UdpUpgradeState → Prop
  | .upgrading attempt => attempt.readySent = true
  | .awaitingSwitchOk _ _ => True
  | _ => False

theorem UdpUpgradeState.IsValidated.isAttempt {u : UdpUpgradeState} (h : u.IsValidated) :
    u.IsAttempt := by
  cases u <;> simp_all [UdpUpgradeState.IsValidated, UdpUpgradeState.IsAttempt]

namespace ClientSession

structure Inv (s : ClientSession) : Prop where
  udp : s.activeTransport = .udpQsp →
    s.udpState.IsActive ∧ s.udpUpgrade = .idle ∧ s.lastAuthenticatedUdpActivity.isSome
  attempt : s.udpUpgrade.IsAttempt → s.udpState.IsActive ∧ s.activeTransport = .tcp
  retained : s.retainedUdpTransport.isSome → s.udpState.IsReplacing
  discovery : s.discoveryTask = true → s.udpState = .needDiscovery
  alive : s.tcpAlive = false → s.activeTransport = .udpQsp
  validated : s.udpUpgrade.IsValidated → s.lastAuthenticatedUdpActivity.isSome
  prepared : ∀ ids registration, s.udpState = .pending ids (some registration) →
    registration.prepared.session.isSome
  off : s.config.upgradeEnabled = false → s.udpState = .disabled

structure Calm (s : ClientSession) : Prop where
  inv : s.Inv
  calm : s.refresh = none

/-- Between two events: a refresh lasts only while UDP is preferred. -/
structure AtLoop (s : ClientSession) : Prop where
  inv : s.Inv
  refresh : s.refresh.isSome → s.activeTransport = .udpQsp

theorem Calm.atLoop {s : ClientSession} (h : s.Calm) : s.AtLoop :=
  ⟨h.inv, fun hr => nomatch h.calm ▸ hr⟩

theorem calm_new (config : ClientConfig) : (ClientSession.new config).Calm := by
  refine ⟨?_, rfl⟩
  constructor <;> cases h : config.upgradeEnabled <;>
    simp [ClientSession.new, h, UdpUpgradeState.IsAttempt, UdpUpgradeState.IsValidated]

section Frames

variable {s : ClientSession}

theorem Inv.unrelated (h : s.Inv) (pending last : Option UInt64) (policy : ClientUdpQspCipher)
    (refresh : Option Refresh) :
    { s with pendingTcpFallback := pending, lastPeerFallbackId := last, udpCipherPolicy := policy,
             refresh := refresh }.Inv :=
  ⟨h.udp, h.attempt, h.retained, h.discovery, h.alive, h.validated, h.prepared, h.off⟩

theorem Inv.activity (h : s.Inv) (now : Nat) :
    { s with lastAuthenticatedUdpActivity := some now }.Inv :=
  ⟨fun hu => ⟨(h.udp hu).1, (h.udp hu).2.1, rfl⟩, h.attempt, h.retained, h.discovery, h.alive,
    fun _ => rfl, h.prepared, h.off⟩

theorem Calm.unrelated (h : s.Calm) (pending last : Option UInt64) (policy : ClientUdpQspCipher) :
    { s with pendingTcpFallback := pending, lastPeerFallbackId := last,
             udpCipherPolicy := policy }.Calm :=
  ⟨h.inv.unrelated pending last policy s.refresh, h.calm⟩

theorem Inv.tcp_of_not_active (h : s.Inv) (hn : ¬ s.udpState.IsActive) :
    s.activeTransport = .tcp := by
  cases ht : s.activeTransport with
  | tcp => rfl
  | udpQsp => exact absurd (h.udp ht).1 hn

theorem Inv.no_attempt (h : s.Inv) (hn : ¬ s.udpState.IsActive) : ¬ s.udpUpgrade.IsAttempt :=
  fun ha => hn (h.attempt ha).1

theorem Inv.not_validated (h : s.Inv) (hn : ¬ s.udpState.IsActive) :
    ¬ s.udpUpgrade.IsValidated :=
  fun hv => h.no_attempt hn (UdpUpgradeState.IsValidated.isAttempt hv)

theorem udpReceiveTransport_of_active (ha : s.udpState.IsActive) :
    ∃ transport, s.udpReceiveTransport = some transport := by
  obtain ⟨transport, ht⟩ := ha
  exact ⟨transport, by simp [ClientSession.udpReceiveTransport, ht, UdpState.asActive]⟩

theorem asActive_of_active (ha : s.udpState.IsActive) :
    ∃ transport, s.udpState.asActive = some transport := by
  obtain ⟨transport, ht⟩ := ha
  exact ⟨transport, by rw [ht]; rfl⟩

end Frames

/-! ## Changes of the state -/

section Changes

variable {s : ClientSession}

def requested (s : ClientSession) (fallbackId : UInt64) : ClientSession :=
  { s with activeTransport := .tcp,
           pendingTcpFallback := some (s.pendingTcpFallback.getD fallbackId) }

theorem Inv.toTcp (h : s.Inv) (halive : s.tcpAlive = true) :
    { s with activeTransport := .tcp }.Inv where
  udp hu := nomatch hu
  attempt ha := ⟨(h.attempt ha).1, rfl⟩
  retained := h.retained
  discovery := h.discovery
  alive hd := nomatch halive.symm.trans hd
  validated := h.validated
  prepared := h.prepared
  off := h.off

theorem Calm.requested (h : s.Calm) (halive : s.tcpAlive = true) (fallbackId : UInt64) :
    (s.requested fallbackId).Calm :=
  ⟨(h.inv.toTcp halive).unrelated _ _ _ _, h.calm⟩

theorem Inv.disableUdp (h : s.Inv) (ht : s.activeTransport = .tcp)
    (off : s.config.upgradeEnabled = false) : s.disableUdp.Inv where
  udp hu := nomatch ht.symm.trans hu
  attempt ha := ha.elim
  retained hr := nomatch hr
  discovery hd := nomatch (h.off off).symm.trans (h.discovery hd)
  alive := h.alive
  validated hv := hv.elim
  prepared _ _ hp := nomatch hp
  off _ := rfl

theorem Inv.needDiscovery (h : s.Inv) (ht : s.activeTransport = .tcp)
    (on : s.config.upgradeEnabled = true) (retained : Option QspSessionParams)
    (activity : Option Nat) :
    { s with udpUpgrade := .idle, udpState := .needDiscovery, retainedUdpTransport := retained,
             lastAuthenticatedUdpActivity := activity }.Inv where
  udp hu := nomatch ht.symm.trans hu
  attempt ha := ha.elim
  retained _ := .inl rfl
  discovery _ := rfl
  alive := h.alive
  validated hv := hv.elim
  prepared _ _ hp := nomatch hp
  off hoff := nomatch on.symm.trans hoff

theorem Inv.scheduleDiscoveryRetryWithReceivePath (h : s.Inv) (ht : s.activeTransport = .tcp)
    (keep : Bool) : (s.scheduleDiscoveryRetryWithReceivePath keep).Inv := by
  unfold ClientSession.scheduleDiscoveryRetryWithReceivePath
  cases on : s.config.upgradeEnabled with
  | false => exact h.disableUdp ht on
  | true =>
    cases keep with
    | false => exact h.needDiscovery ht on none none
    | true =>
      simp only [Bool.not_true, Bool.false_eq_true, if_false, if_true]
      split
      · exact h.needDiscovery ht on _ _
      · exact h.needDiscovery ht on _ _

theorem refresh_scheduleDiscoveryRetryWithReceivePath (s : ClientSession) (keep : Bool) :
    (s.scheduleDiscoveryRetryWithReceivePath keep).refresh = s.refresh := by
  unfold ClientSession.scheduleDiscoveryRetryWithReceivePath
  split
  · rfl
  split
  · split <;> rfl
  · rfl

theorem Calm.scheduleDiscoveryRetry (h : s.Calm) (ht : s.activeTransport = .tcp) (keep : Bool) :
    (s.scheduleDiscoveryRetryWithReceivePath keep).Calm :=
  ⟨h.inv.scheduleDiscoveryRetryWithReceivePath ht keep,
    (refresh_scheduleDiscoveryRetryWithReceivePath s keep).trans h.calm⟩

theorem Calm.scheduleDiscoveryNow (h : s.Calm) (ht : s.activeTransport = .tcp) :
    s.scheduleDiscoveryNow.Calm := by
  unfold ClientSession.scheduleDiscoveryNow
  cases on : s.config.upgradeEnabled with
  | false => exact ⟨h.inv.disableUdp ht on, h.calm⟩
  | true => exact ⟨h.inv.needDiscovery ht on none none, h.calm⟩

theorem Calm.setUdp (h : s.Calm) (hn : ¬ s.udpState.IsActive) {state : UdpState}
    {retained : Option QspSessionParams} {activity : Option Nat}
    (hretained : retained.isSome → state.IsReplacing)
    (hdiscovery : s.discoveryTask = true → state = .needDiscovery)
    (hprepared : ∀ ids registration, state = .pending ids (some registration) →
      registration.prepared.session.isSome)
    (hoff : s.config.upgradeEnabled = false → state = .disabled) :
    { s with udpState := state, retainedUdpTransport := retained,
             lastAuthenticatedUdpActivity := activity }.Calm where
  inv :=
    { udp := fun hu => nomatch (h.inv.tcp_of_not_active hn).symm.trans hu
      attempt := fun ha => absurd ha (h.inv.no_attempt hn)
      retained := hretained
      discovery := hdiscovery
      alive := h.inv.alive
      validated := fun hv => absurd hv (h.inv.not_validated hn)
      prepared := hprepared
      off := hoff }
  calm := h.calm

theorem not_active_of_pending {ids : QuicIds} {registration : Option PendingUdpQspRegistration}
    (hp : s.udpState = .pending ids registration) : ¬ s.udpState.IsActive := by
  rintro ⟨transport, ht⟩
  exact nomatch hp.symm.trans ht

theorem Calm.pending (h : s.Calm) {ids ids' : QuicIds}
    {before after : Option PendingUdpQspRegistration} (hp : s.udpState = .pending ids before)
    (hafter : ∀ registration, after = some registration → registration.prepared.session.isSome) :
    { s with udpState := .pending ids' after }.Calm := by
  refine h.setUdp (not_active_of_pending hp) ?_ ?_ ?_ ?_
  · intro _
    exact .inr ⟨_, _, rfl⟩
  · intro hd
    exact nomatch hp.symm.trans (h.inv.discovery hd)
  · intro _ registration heq
    cases heq
    exact hafter registration rfl
  · intro hoff
    exact nomatch hp.symm.trans (h.inv.off hoff)

theorem Calm.scheduleRegistrationRetry (h : s.Calm) : s.scheduleRegistrationRetry.Calm := by
  unfold ClientSession.scheduleRegistrationRetry
  split
  · rename_i hp
    exact h.pending hp fun _ hnone => nomatch hnone
  · exact h

theorem Calm.trackRegistration (h : s.Calm) {registration : PendingUdpQspRegistration}
    (hr : registration.prepared.session.isSome) : (s.trackRegistration registration).Calm := by
  unfold ClientSession.trackRegistration
  split
  · rename_i hp
    exact h.pending hp fun _ hsome => Option.some.inj hsome ▸ hr
  · exact h

theorem Calm.discovered (h : s.Calm) (hs : s.udpState = .needDiscovery)
    (hd : s.discoveryTask = false) (ids : QuicIds) :
    { s with udpState := .pending ids none }.Calm := by
  have hn : ¬ s.udpState.IsActive := by
    rintro ⟨transport, ht⟩
    exact nomatch hs.symm.trans ht
  refine h.setUdp hn ?_ ?_ ?_ ?_
  · intro _
    exact .inr ⟨_, _, rfl⟩
  · intro hd'
    exact nomatch hd.symm.trans hd'
  · intro _ _ heq
    exact nomatch heq
  · intro hoff
    exact nomatch hs.symm.trans (h.inv.off hoff)

/-- The new association is active, and no attempt has been made on it. -/
theorem Calm.registered (h : s.Calm) {ids : QuicIds} {before : Option PendingUdpQspRegistration}
    (hp : s.udpState = .pending ids before) (transport : QspSessionParams) :
    { s with udpState := .active transport, retainedUdpTransport := none,
             lastAuthenticatedUdpActivity := none }.Calm := by
  refine h.setUdp (not_active_of_pending hp) ?_ ?_ ?_ ?_
  · intro hr
    exact nomatch hr
  · intro hd
    exact nomatch hp.symm.trans (h.inv.discovery hd)
  · intro _ _ heq
    exact nomatch heq
  · intro hoff
    exact nomatch hp.symm.trans (h.inv.off hoff)

theorem Calm.dropRetained (h : s.Calm) (hn : ¬ s.udpState.IsActive) :
    { s with retainedUdpTransport := none, lastAuthenticatedUdpActivity := none }.Calm :=
  h.setUdp hn (fun hr => nomatch hr) h.inv.discovery h.inv.prepared h.inv.off

theorem Inv.upgrade (h : s.Inv) (ha : s.udpState.IsActive) (ht : s.activeTransport = .tcp)
    {u : UdpUpgradeState} (hv : u.IsValidated → s.lastAuthenticatedUdpActivity.isSome) :
    { s with udpUpgrade := u }.Inv where
  udp hu := nomatch ht.symm.trans hu
  attempt _ := ⟨ha, ht⟩
  retained := h.retained
  discovery := h.discovery
  alive := h.alive
  validated := hv
  prepared := h.prepared
  off := h.off

theorem Calm.upgrade (h : s.Calm) (ha : s.udpState.IsActive) (ht : s.activeTransport = .tcp)
    {u : UdpUpgradeState} (hv : u.IsValidated → s.lastAuthenticatedUdpActivity.isSome) :
    { s with udpUpgrade := u }.Calm :=
  ⟨h.inv.upgrade ha ht hv, h.calm⟩

theorem Calm.idle (h : s.Calm) : { s with udpUpgrade := .idle }.Calm where
  inv :=
    { udp := fun hu => ⟨(h.inv.udp hu).1, rfl, (h.inv.udp hu).2.2⟩
      attempt := fun ha => ha.elim
      retained := h.inv.retained
      discovery := h.inv.discovery
      alive := h.inv.alive
      validated := fun hv => hv.elim
      prepared := h.inv.prepared
      off := h.inv.off }
  calm := h.calm

theorem Calm.switched (h : s.Calm) (hv : s.udpUpgrade.IsValidated)
    (pending : Option UInt64) :
    { s with activeTransport := .udpQsp, udpUpgrade := .idle,
             pendingTcpFallback := pending }.Calm where
  inv :=
    { udp := fun _ => ⟨(h.inv.attempt hv.isAttempt).1, rfl, h.inv.validated hv⟩
      attempt := fun ha => ha.elim
      retained := h.inv.retained
      discovery := h.inv.discovery
      alive := fun _ => rfl
      validated := fun hv => hv.elim
      prepared := h.inv.prepared
      off := h.inv.off }
  calm := h.calm

end Changes

end ClientSession

end Slt.Client
