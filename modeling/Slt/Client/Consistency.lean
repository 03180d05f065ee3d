import Slt.Client.Invariant

/-!
# What the handlers of the client keep

`Sound T s m` says that a run of `m` from `s` keeps the invariant wherever it
stops, and that `T` holds of what it puts out. The lemmas follow the handlers,
from the writes up to the dispatch of events. Of `T` they ask that the effects
other than frames and inconsistencies are admitted, and what a single write does.
So no handler reports an inconsistent session.
-/

namespace Slt.Client

open Lib Lib.Handler Proto

abbrev ClientTrace := Trace ClientSession ClientEffect SessionError

def ClientEffect.isPlain : ClientEffect → Bool
  | .tcp _ | .tcpCut _ _ | .inconsistent _ => false
  | _ => true

def Plain (T : ClientTrace) : Prop := ∀ e : ClientEffect, e.isPlain = true → T.emits e

structure Routine (env : Env) (T : ClientTrace) : Prop where
  plain : Plain T
  write : ∀ {s} message, Keeps (· = s) T s (writeTcpMessage env message)

abbrev Sound {α : Type} (T : ClientTrace) (s : ClientSession) (m : ClientM α) : Prop :=
  Keeps ClientSession.Calm T s m

abbrev Inert {α : Type} (T : ClientTrace) (s : ClientSession) (m : ClientM α) : Prop :=
  Keeps (· = s) T s m

variable {env : Env} {T : ClientTrace} {s : ClientSession}

theorem Inert.sound {α : Type} {m : ClientM α} (h : Inert T s m) (hs : s.Calm) : Sound T s m :=
  h.mono fun _ heq => heq ▸ hs

/-! ## Writes to UDP and to the tunnel -/

section Writes

variable (env) (hT : Plain T)
include hT

theorem inert_writeUdpMessage (transport : QspSessionParams) (message : Message) :
    Inert T s (writeUdpMessage env transport message) := by
  refine .emit_bind (hT _ rfl) ?_
  split
  · exact .pure _ rfl
  · exact .throw _ rfl
  · exact .drop rfl

omit hT in
theorem inert_flushUdp (message : Option Message) : Inert T s (flushUdp env message) := by
  unfold flushUdp
  split
  · exact .pure _ rfl
  · exact .throw _ rfl
  · exact .drop rfl

theorem inert_writeUdpMessageAndFlush {transport : QspSessionParams} (message : Message)
    (h : s.udpReceiveTransport = some transport) :
    Inert T s (writeUdpMessageAndFlush env message) := by
  refine .get_bind ?_
  rw [h]
  exact .inert_bind (inert_writeUdpMessage env hT transport message) rfl fun _ =>
    inert_flushUdp env (some message)

omit hT in
theorem inert_flushUdpTransport (h : s.udpState.IsActive) : Inert T s (flushUdpTransport env) := by
  obtain ⟨transport, ht⟩ := ClientSession.asActive_of_active h
  refine .get_bind ?_
  rw [ht]
  exact inert_flushUdp env none

theorem inert_writeActiveMessage (hs : s.Inv) (hudp : s.activeTransport = .udpQsp)
    (message : Message) : Inert T s (writeActiveMessage env message) := by
  obtain ⟨transport, ht⟩ := ClientSession.asActive_of_active (hs.udp hudp).1
  refine .get_bind ?_
  rw [hudp]
  dsimp only
  rw [ht]
  exact inert_writeUdpMessage env hT transport message

theorem inert_sendToTunOrShutdown (packet : Bytes) :
    Inert T s (sendToTunOrShutdown env packet) := by
  unfold sendToTunOrShutdown
  split
  · exact .pure _ rfl
  · exact .pure _ rfl
  · exact .drop rfl
  · exact .emit_bind (hT _ rfl) (.pure _ rfl)

end Writes

/-! ## Fallback to TCP -/

section Fallback

theorem does_leaveUdp (hT : Plain T) (reason : TransportChangeReason) :
    Does T s { s with activeTransport := .tcp } (leaveUdp reason) := by
  obtain ⟨_, transport⟩ := s
  cases transport with
  | tcp => exact ⟨⟨(), rfl⟩, rfl, T.nothing _ _⟩
  | udpQsp => exact ⟨⟨(), rfl⟩, rfl, T.emitted _ (hT _ rfl)⟩

theorem does_discardPendingUdpSendForFallback (hT : Plain T) :
    Does T s s discardPendingUdpSendForFallback := by
  rw [Does, discardPendingUdpSendForFallback, triple_get_bind]
  split
  · exact ⟨⟨(), rfl⟩, rfl, T.nothing _ _⟩
  · exact ⟨⟨(), rfl⟩, rfl, T.emitted _ (hT _ rfl)⟩

theorem sound_yieldToFallback (hT : Plain T) (h : s.Calm) (halive : s.tcpAlive = true)
    (fallbackId : UInt64) : Sound T s (yieldToFallback fallbackId) := by
  refine .get_bind ?_
  split
  · exact .pure _ h
  · refine .does_bind (does_discardPendingUdpSendForFallback hT) fun _ => ?_
    refine .does_bind (does_leaveUdp hT _) fun _ => ?_
    have htcp : { s with activeTransport := .tcp }.Calm := ⟨h.inv.toTcp halive, h.calm⟩
    exact .modify_bind (.modify ((htcp.scheduleDiscoveryRetry rfl true).unrelated _ _ _))

theorem sound_handleFallbackOk (h : s.Calm) (fallbackId : UInt64) :
    Sound T s (handleFallbackOk fallbackId) := by
  refine .modify_bind (.pure _ ?_)
  split
  · exact h.unrelated _ _ _
  · exact h

variable (hT : Routine env T)
include hT

theorem becomes_writeFallbackRequest :
    Becomes T s
      { s with pendingTcpFallback := some (s.pendingTcpFallback.getD env.fallbackId) }
      (writeFallbackRequest env) := by
  rw [Becomes, writeFallbackRequest, triple_get_bind]
  split
  · rename_i f hp
    refine ⟨fun _ _ => ?_, fun _ he => (nomatch he), T.nothing _ _⟩
    rw [hp, Option.getD_some, ← hp]
    rfl
  · rename_i hp
    refine (hT.write _).becomes.does_bind fun _ => ?_
    exact ⟨⟨(), rfl⟩, by rw [hp]; rfl, T.nothing _ _⟩

theorem becomes_requestTcpFallback (h : s.tcpAlive = true) (reason : TransportChangeReason) :
    Becomes T s (s.requested env.fallbackId) (requestTcpFallback env reason) := by
  rw [Becomes, requestTcpFallback, triple_get_bind, if_pos h]
  refine (becomes_writeFallbackRequest hT).does_bind fun _ => ?_
  exact (does_discardPendingUdpSendForFallback hT.plain).bind fun _ => does_leaveUdp hT.plain reason

theorem sound_requestTcpFallback_bind {α : Type} {f : Unit → ClientM α} (h : s.Calm)
    (reason : TransportChangeReason)
    (hf : s.tcpAlive = true → Sound T (s.requested env.fallbackId) (f ())) :
    Sound T s (requestTcpFallback env reason >>= f) := by
  cases halive : s.tcpAlive with
  | true => exact .becomes_bind (becomes_requestTcpFallback hT halive reason) h fun _ => hf halive
  | false =>
    refine Triple.bind (P := fun r t out => (∃ e, r = .error e) ∧ t = s ∧ out = []) ?_ ?_ ?_
    · rw [requestTcpFallback, triple_get_bind, halive]
      exact ⟨⟨_, rfl⟩, rfl, rfl⟩
    · rintro a t out ⟨⟨e, he⟩, -, -⟩
      cases he
    · rintro e t out ⟨-, rfl, rfl⟩
      exact ⟨h, T.nothing _ _⟩

theorem sound_handleUdpError (h : s.Calm) (err : SessionError) :
    Sound T s (handleUdpError env err) := by
  refine .get_bind ?_
  split
  · exact .pure _ h
  split
  · rename_i hreplacing
    refine .modify_bind (.pure _ (h.dropRetained ?_))
    rintro ⟨transport, ht⟩
    simp [ClientSession.isReplacing, ht] at hreplacing
  split
  · exact .pure _ h
  refine sound_requestTcpFallback_bind hT h .udpError fun halive => ?_
  exact .modify_bind (.pure _ ((h.requested halive _).scheduleDiscoveryRetry rfl false))

theorem sound_handleUdpEventError (h : s.Calm) (err : SessionError) :
    Sound T s (handleUdpEventError env err) := by
  refine .bind (sound_handleUdpError hT h err) fun a s' h' => ?_
  cases a <;> exact .pure _ h'

theorem sound_recoverFromUdpWrite (h : s.Calm) (err : SessionError) :
    Sound T s (recoverFromUdpWrite env err) := by
  unfold recoverFromUdpWrite
  split
  · refine .bind (sound_handleUdpError hT h err) fun a s' h' => ?_
    cases a
    · exact .throw _ h'
    · exact .pure _ h'
  · exact .throw _ h

theorem sound_handleFallbackToTcp (h : s.Calm) (halive : s.tcpAlive = true)
    (fallbackId : UInt64) : Sound T s (handleFallbackToTcp env fallbackId) := by
  refine .bind (sound_yieldToFallback hT.plain h halive fallbackId) fun _ s' h' => ?_
  exact .inert_bind (hT.write _) h' fun _ => .pure _ h'

end Fallback

/-! ## Registration -/

section Registration

theorem session_of_prepareUdpQspRegistration {ids : QuicIds} {cipher : CipherSuite}
    {prepared : PreparedUdpQspRegistration}
    (h : prepareUdpQspRegistration env ids cipher = .ok prepared) : prepared.session.isSome := by
  unfold prepareUdpQspRegistration at h
  split at h
  · cases h
  · dsimp only at h
    split at h <;> cases h
    rfl

variable (hT : Routine env T) (h : s.Calm)
include hT h

theorem sound_handleRegistrationSetupFailure (err : SessionError) :
    Sound T s (handleRegistrationSetupFailure err) := by
  refine .get_bind ?_
  split
  · exact .pure _ h
  · exact .emit_bind (hT.plain _ rfl) (.modify_bind (.pure _ h.scheduleRegistrationRetry))

theorem sound_attemptUdpRegistration : Sound T s (attemptUdpRegistration env) := by
  refine .get_bind ?_
  split
  · split
    · exact sound_handleRegistrationSetupFailure hT h _
    · rename_i prepared hprepared
      refine .inert_bind (hT.write _) h fun _ => ?_
      have hsession := session_of_prepareUdpQspRegistration hprepared
      exact .modify_bind (.emit_bind (hT.plain _ rfl) (.pure _ (h.trackRegistration hsession)))
  · exact .pure _ h

theorem sound_startUdpUpgradeAttempt : Sound T s (startUdpUpgradeAttempt env) := by
  refine .get_bind ?_
  split
  · exact .pure _ h
  · rename_i htransport htcp _
    refine .modify_bind (.emit (hT.plain _ rfl) (h.upgrade ⟨_, htransport⟩ htcp fun hv => ?_))
    cases hv
  · exact .pure _ h
  · exact .modify h.idle

theorem sound_handleRegisterOk (clientToServerCid : Cid) :
    Sound T s (handleRegisterOk env clientToServerCid) := by
  refine .get_bind ?_
  split
  · rename_i ids inFlight hpending
    split
    · exact .throw _ h
    · have hsession := h.inv.prepared ids inFlight hpending
      split
      · rename_i hnone
        rw [hnone] at hsession
        cases hsession
      · rename_i session _
        refine .modify_bind (.emit_bind (hT.plain _ rfl) ?_)
        refine .bind (sound_startUdpUpgradeAttempt hT (h.registered hpending session)) ?_
        exact fun _ _ h' => .pure _ h'
  · exact .pure _ h

theorem sound_retryRejectedRegistration (code : RegisterFailCode) :
    Sound T s (retryRejectedRegistration code) :=
  .emit_bind (hT.plain _ rfl) (.modify_bind (.pure _ h.scheduleRegistrationRetry))

theorem sound_handleRegisterFail (code : RegisterFailCode) :
    Sound T s (handleRegisterFail env code) := by
  refine .get_bind ?_
  split
  · split
    · exact .modify_bind (sound_retryRejectedRegistration hT (h.unrelated _ _ _) code)
    · split
      · exact .pure _ h
      · exact sound_retryRejectedRegistration hT h code
  · exact .pure _ h

theorem sound_handleRegistrationTimeout : Sound T s handleRegistrationTimeout := by
  refine .get_bind ?_
  split
  · split
    · exact .pure _ h
    · exact .emit_bind (hT.plain _ rfl) (.modify_bind (.pure _ h.scheduleRegistrationRetry))
  · exact .pure _ h

theorem sound_handleDiscoveryResult (hs : s.udpState = .needDiscovery)
    (hd : s.discoveryTask = false) (ids : Option QuicIds) :
    Sound T s (handleDiscoveryResult ids) := by
  have htcp : s.activeTransport = .tcp := h.inv.tcp_of_not_active fun ⟨_, ht⟩ =>
    nomatch hs.symm.trans ht
  cases ids with
  | some ids => exact .modify_bind (.pure _ (h.discovered hs hd ids))
  | none =>
    refine .emit_bind (hT.plain _ rfl) (.get_bind ?_)
    split
    · exact .pure _ h
    · exact .modify_bind (.pure _ (h.scheduleDiscoveryRetry htcp true))

end Registration

/-! ## The upgrade handshake -/

section Upgrade

theorem sound_handleUdpUpgradeTimeout (h : s.Calm) (ha : s.udpState.IsActive)
    (ht : s.activeTransport = .tcp) : Sound T s (handleUdpUpgradeTimeout env) := by
  refine .get_bind ?_
  split
  · exact .pure _ h
  · exact .modify_bind (.pure _ (h.upgrade ha ht fun hv => hv.elim))

variable (hT : Routine env T)
include hT

theorem sound_attemptUdpWrite {α : Type} (h : s.Calm) (ha : s.udpState.IsActive)
    (message : Message) {f : Except SessionError Unit → ClientM α} (hf : ∀ r, Sound T s (f r)) :
    Sound T s (attempt (writeUdpMessageAndFlush env message) >>= f) := by
  obtain ⟨transport, htransport⟩ := ClientSession.udpReceiveTransport_of_active ha
  have hwrite := inert_writeUdpMessageAndFlush (T := .all T.emits) env hT.plain message htransport
  exact .inert_bind hwrite.attempt h hf

theorem sound_sendUpgradeProbe (h : s.Calm) : Sound T s (sendUpgradeProbe env) := by
  refine .get_bind ?_
  split
  · rename_i attempt hattempt
    obtain ⟨ha, ht⟩ := h.inv.attempt (by rw [hattempt]; exact trivial)
    split
    · exact .pure _ h
    · have hnext := h.upgrade (u := .upgrading
        { attempt with attempts := attempt.attempts + 1, nextProbeAt := env.now + env.probeDelay })
        ha ht fun hv => h.inv.validated (by rw [hattempt]; exact hv)
      refine .modify_bind (sound_attemptUdpWrite hT hnext ha _ fun r => ?_)
      split
      · exact .pure _ hnext
      · exact sound_recoverFromUdpWrite hT hnext _
  · exact .pure _ h

theorem sound_handleUdpUpgradeTick (h : s.Calm) : Sound T s (handleUdpUpgradeTick env) := by
  refine .get_bind ?_
  split
  · exact .pure _ h
  · exact .pure _ h
  · rename_i upgradeId deadline hawaiting
    obtain ⟨ha, ht⟩ := h.inv.attempt (by rw [hawaiting]; exact trivial)
    split
    · exact .pure _ h
    split
    · exact sound_handleUdpUpgradeTimeout h ha ht
    · refine sound_requestTcpFallback_bind hT h .udpError fun halive => ?_
      exact sound_handleUdpUpgradeTimeout (h.requested halive _) ha rfl
  · split
    · exact .pure _ h
    · exact .bind (sound_startUdpUpgradeAttempt hT h) fun _ _ h' => .pure _ h'
  · rename_i attempt hattempt
    obtain ⟨ha, ht⟩ := h.inv.attempt (by rw [hattempt]; exact trivial)
    split
    · exact sound_handleUdpUpgradeTimeout h ha ht
    split
    · exact .pure _ h
    split
    · exact sound_handleUdpUpgradeTimeout h ha ht
    · exact .bind (sound_sendUpgradeProbe hT h) fun _ _ h' => .pure _ h'

theorem sound_handleSwitchToUdp (h : s.Calm) (upgradeId : UInt64) :
    Sound T s (handleSwitchToUdp env upgradeId) := by
  refine .get_bind ?_
  split
  · rename_i attempt hattempt
    obtain ⟨ha, ht⟩ := h.inv.attempt (by rw [hattempt]; exact trivial)
    split
    · exact .pure _ h
    split
    · exact .pure _ h
    · rename_i hready
      refine .inert_bind (hT.write _) h fun _ => ?_
      refine .modify_bind (.pure _ (h.upgrade ha ht fun _ => h.inv.validated ?_))
      rw [hattempt]
      simp only [Bool.or_eq_true, Bool.not_eq_true', not_or, Bool.not_eq_false] at hready
      exact hready.2
  · exact .pure _ h

theorem sound_handleSwitchOk (h : s.Calm) (upgradeId : UInt64) :
    Sound T s (handleSwitchOk upgradeId) := by
  refine .get_bind ?_
  split
  · rename_i expected deadline hawaiting
    obtain ⟨ha, ht⟩ := h.inv.attempt (by rw [hawaiting]; exact trivial)
    split
    · exact .pure _ h
    · have hswitched := h.switched (by rw [hawaiting]; exact trivial) none
      have henter : Does T s { s with activeTransport := .udpQsp } enterUdp := by
        rw [Does, enterUdp, triple_get_bind, ht]
        exact ⟨⟨(), rfl⟩, rfl, T.emitted _ (hT.plain _ rfl)⟩
      refine .does_bind henter fun _ => ?_
      exact .modify_bind (.emit_bind (hT.plain _ rfl) (.pure _ hswitched))
  · exact .pure _ h

end Upgrade

/-! ## Messages -/

section Messages

theorem inert_validateMessage (type : MessageType) (transport : MessageTransport) :
    Inert T s (validateMessage type transport) := by
  unfold validateMessage
  split
  · exact .pure _ rfl
  · exact .throw _ rfl

theorem inert_rejectMalformed (type : MessageType) (err : PayloadError)
    (transport : MessageTransport) : Inert T s (rejectMalformed type err transport) :=
  .inert_bind (inert_validateMessage type transport) rfl fun _ => .throw _ rfl

theorem sound_handleTcpMessage (hT : Routine env T) (h : s.Calm) (halive : s.tcpAlive = true)
    (message : Message) : Sound T s (handleTcpMessage env message) := by
  refine .inert_bind (inert_validateMessage _ _) h fun _ => ?_
  cases message with
  | data packet => exact (inert_sendToTunOrShutdown env hT.plain packet).sound h
  | registerOk clientToServerCid => exact sound_handleRegisterOk hT h clientToServerCid
  | registerFail code => exact sound_handleRegisterFail hT h code
  | ping nonce => exact .inert_bind (hT.write _) h fun _ => .pure _ h
  | switchToUdp upgradeId => exact sound_handleSwitchToUdp hT h upgradeId
  | switchOk upgradeId => exact sound_handleSwitchOk hT h upgradeId
  | fallbackToTcp fallbackId => exact sound_handleFallbackToTcp hT h halive fallbackId
  | fallbackOk fallbackId => exact sound_handleFallbackOk h fallbackId
  | _ => exact .pure _ h

/-- After a message from the UDP path the path counts as alive. Only then is
the invariant complete again, since an attempt may have been validated. -/
structure UdpHandled (T : ClientTrace) (s : ClientSession)
    (r : Except (Stop SessionError) SessionControl) (s' : ClientSession)
    (out : List ClientEffect) : Prop where
  refresh : s'.refresh = s.refresh
  transport : s'.activeTransport = s.activeTransport
  inv : ∀ e, r = .error e → s'.Inv
  noted : ∀ control, r = .ok control → ∀ now,
    { s' with lastAuthenticatedUdpActivity := some now }.Inv
  outputs : T.holds r s' out

/-- The errors of the handler of a message from the UDP path are caught. It writes
one frame at most. -/
structure UdpRoutine (env : Env) (T T' : ClientTrace) (message : Message) : Prop where
  plain : Plain T'
  answer : ∀ {s upgradeId nonce}, message = .upgradeProbeAck upgradeId nonce →
    Inert T' s (writeTcpMessage env (.udpReady upgradeId))
  catches : T.Catches T'

section UdpMessages

variable {T' : ClientTrace} {message : Message} (hT' : UdpRoutine env T T' message)
include hT'

omit hT' in
theorem UdpHandled.of_inert {m : ClientM SessionControl} (hs : s.Inv) (hm : Inert T' s m) :
    Triple m s (UdpHandled T' s) := by
  refine Triple.weaken hm fun r s' out h => ?_
  obtain ⟨rfl, hout⟩ := h
  exact ⟨rfl, rfl, fun _ _ => hs, fun _ _ now => hs.activity now, hout⟩

theorem handleUpgradeProbeAck_spec (hs : s.Inv) {upgradeId nonce : UInt64}
    (hmessage : message = .upgradeProbeAck upgradeId nonce) :
    Triple (handleUpgradeProbeAck env upgradeId nonce) s (UdpHandled T' s) := by
  rw [handleUpgradeProbeAck, triple_get_bind]
  split
  -- Stale ids and nonces are ignored; a repeated ack is only noted.
  · rename_i attempt hattempt
    obtain ⟨ha, ht⟩ := hs.attempt (by rw [hattempt]; exact trivial)
    split
    · exact .of_inert hs (.pure _ rfl)
    split
    · exact .of_inert hs (.pure _ rfl)
    split
    · rename_i hready
      rw [triple_modify_bind, triple_pure]
      refine ⟨rfl, rfl, fun _ he => (nomatch he), fun _ _ now => ?_, T'.nothing _ _⟩
      exact (hs.activity now).upgrade ha ht fun _ => rfl
    · rename_i hready
      -- The attempt is marked before `udp_ready` is sent, so a failed send leaves it so.
      have hacked := hs.upgrade (u := .upgrading { attempt with probeAcked := true }) ha ht
        fun hv => absurd hv hready
      rw [triple_modify_bind]
      refine Triple.bind (hT'.answer hmessage) (fun _ s' out h => ?_) fun e s' out h => ?_
      · obtain ⟨rfl, hout⟩ := h
        rw [triple_modify_bind, triple_emit_bind, triple_pure]
        refine ⟨rfl, rfl, fun _ he => (nomatch he), fun _ _ now => ?_, ?_⟩
        · exact (hs.activity now).upgrade ha ht fun _ => rfl
        · exact T'.after hout (T'.after (T'.emitted s (hT'.plain _ rfl)) (T'.nothing _ _))
      · obtain ⟨rfl, hout⟩ := h
        exact ⟨rfl, rfl, fun _ _ => hacked, fun _ hok => (nomatch hok), T'.stopped hout⟩
  · exact .of_inert hs (.pure _ rfl)

theorem dispatchUdpMessage_spec (hs : s.Inv) {transport : QspSessionParams}
    (htransport : s.udpReceiveTransport = some transport) :
    Triple (dispatchUdpMessage env message) s (UdpHandled T' s) := by
  cases hmessage : message with
  | data packet => exact .of_inert hs (inert_sendToTunOrShutdown env hT'.plain packet)
  | ping nonce =>
    exact .of_inert hs (.inert_bind (inert_writeUdpMessageAndFlush env hT'.plain _ htransport) rfl
      fun _ => .pure _ rfl)
  | upgradeProbeAck upgradeId nonce => exact handleUpgradeProbeAck_spec hT' hs hmessage
  | _ => exact .of_inert hs (.pure _ rfl)

theorem handleUdpMessage_spec (hs : s.Inv) {transport : QspSessionParams}
    (htransport : s.udpReceiveTransport = some transport) :
    Triple (handleUdpMessage env message) s (UdpHandled T' s) := by
  have hdispatch := dispatchUdpMessage_spec hT' hs htransport
  refine Triple.bind (inert_validateMessage (T := T') message.ty .udpQsp) (fun _ s' out h => ?_)
    fun e s' out h => ?_
  · rw [h.1]
    exact hdispatch.weaken fun r s' out' h' =>
      ⟨h'.refresh, h'.transport, h'.inv, h'.noted, T'.after h.2 h'.outputs⟩
  · obtain ⟨rfl, hout⟩ := h
    exact ⟨rfl, rfl, fun _ _ => hs, fun _ hok => (nomatch hok), T'.stopped hout⟩

omit hT' in
theorem UdpHandled.calm {e : Stop SessionError} {s' : ClientSession} {out : List ClientEffect}
    (hu : UdpHandled T' s (.error e) s' out) (h : s.Calm) : s'.Calm :=
  ⟨hu.inv e rfl, hu.refresh.trans h.calm⟩

end UdpMessages

theorem sound_handleUdpResult {T' : ClientTrace} (hT : Routine env T) (h : s.Calm)
    {transport : QspSessionParams} (htransport : s.udpReceiveTransport = some transport)
    {result : Except UdpQspError Packet}
    (hT' : ∀ packet, result = .ok packet → UdpRoutine env T T' packet.message) :
    Sound T s (handleUdpResult env result) := by
  cases result with
  | error err =>
    unfold handleUdpResult
    dsimp only
    split
    · exact sound_handleUdpEventError hT h _
    · exact .throw _ h
  | ok packet =>
    have hcatches := (hT' packet rfl).catches
    -- The three ends of the message handler: it returns, it fails, or it is dropped.
    -- Activity is noted only for the first.
    refine Triple.attempt_bind (handleUdpMessage_spec (hT' packet rfl) h.inv htransport) ?_ ?_ ?_
    · intro control s' out hu
      have hnoted := hu.noted control rfl env.now
      have hrest : Sound T s' (noteAuthenticatedUdpActivity env >>= fun _ => pure control) :=
        .modify_bind (.pure _ ⟨hnoted, hu.refresh.trans h.calm⟩)
      exact hrest.after (hcatches.returned hu.outputs)
    · intro err s' out hu
      have hcalm := hu.calm h
      have hrest : Sound T s' (if err.isUdpPathTransportError then handleUdpEventError env err
          else throw err) := by
        split
        · exact sound_handleUdpEventError hT hcalm err
        · exact .throw _ hcalm
      exact hrest.after (hcatches.caught hu.outputs)
    · intro s' out hu
      exact ⟨hu.calm h, hcatches.dropped hu.outputs⟩

end Messages

/-! ## Timers and packets -/

section Timers

variable (hT : Routine env T)
include hT

theorem sound_writeControlMessage (h : s.Calm) (message : Message) :
    Sound T s (writeControlMessage env message) := by
  refine .get_bind ?_
  split
  · exact Inert.sound (hT.write message) h
  · rename_i hudp
    refine sound_attemptUdpWrite hT h (h.inv.udp hudp).1 message fun r => ?_
    split
    · exact .pure _ h
    · refine .bind (sound_recoverFromUdpWrite hT h _) fun _ s' h' => ?_
      exact Inert.sound (hT.write message) h'

omit hT in
theorem sound_sendCloseBestEffort {O : ClientEffect → Prop} (hT : Routine env (.all O))
    (h : s.Calm) (code : CloseCode) : Sound (.all O) s (sendCloseBestEffort env code) :=
  .bind (.timeout _ (.attempt (sound_writeControlMessage hT h _))) fun _ _ h' => .pure _ h'

theorem sound_handleTunPacket (h : s.Calm) (packet : Bytes) :
    Sound T s (handleTunPacket env packet) := by
  refine .get_bind ?_
  split
  · exact .pure _ h
  split
  · exact .pure _ h
  -- on TCP the error is passed on, on UDP no frame has been written
  cases htransport : s.activeTransport with
  | tcp =>
    refine .rethrow ?_ (fun _ _ h' => .pure _ h') fun _ => rfl
    refine .get_bind ?_
    rw [htransport]
    exact Inert.sound (hT.write _) h
  | udpQsp =>
    have hwrite := inert_writeActiveMessage (T := .all T.emits) env hT.plain h.inv htransport
    refine .inert_bind (hwrite _).attempt h fun r => ?_
    split
    · exact .pure _ h
    · refine .bind (sound_recoverFromUdpWrite hT h _) fun _ s' h' => ?_
      exact .inert_bind (hT.write _) h' fun _ => .pure _ h'

theorem sound_handleUdpLivenessTimeout (h : s.Calm) : Sound T s (handleUdpLivenessTimeout env) := by
  refine .get_bind ?_
  split
  · exact .pure _ h
  · refine sound_requestTcpFallback_bind hT h _ fun halive => ?_
    exact .modify_bind (.pure _ ((h.requested halive _).scheduleDiscoveryRetry rfl true))

theorem sound_handleUdpReconnectTick (h : s.Calm) : Sound T s (handleUdpReconnectTick env) := by
  refine .get_bind ?_
  split
  · rename_i hs
    refine .emit_bind (hT.plain _ rfl) (.modify_bind (.pure _ ⟨?_, h.calm⟩))
    exact ⟨h.inv.udp, h.inv.attempt, h.inv.retained, fun _ => hs, h.inv.alive, h.inv.validated,
      h.inv.prepared, h.inv.off⟩
  · exact sound_attemptUdpRegistration hT h
  · exact .pure _ h

omit hT in
theorem sound_handleTcpClosed (h : s.Calm) : Sound T s handleTcpClosed := by
  refine .get_bind ?_
  split
  · rename_i hudp
    refine .modify_bind (.pure _ ⟨?_, h.calm⟩)
    exact ⟨h.inv.udp, h.inv.attempt, h.inv.retained, h.inv.discovery, fun _ => hudp,
      h.inv.validated, h.inv.prepared, h.inv.off⟩
  · exact .pure _ h

theorem sound_handleUdpFlushReady (h : s.Calm) (ha : s.udpState.IsActive) :
    Sound T s (handleUdpFlushReady env) := by
  refine .inert_bind (Keeps.attempt (inert_flushUdpTransport env ha)) h fun r => ?_
  split
  · exact .pure _ h
  · split
    · exact sound_handleUdpEventError hT h _
    · exact .pure _ h

end Timers

/-! ## Refreshing the UDP path -/

/-- The same, where the loop may enter or stay in a refresh. -/
abbrev SoundLoop {α : Type} (T : ClientTrace) (s : ClientSession) (m : ClientM α) : Prop :=
  Keeps ClientSession.AtLoop T s m

theorem Sound.loop {α : Type} {m : ClientM α} (h : Sound T s m) :
    SoundLoop T s m :=
  h.mono fun _ h' => h'.atLoop

/-- The state in which a refresh begins and lasts. -/
structure ClientSession.OnUdp (s : ClientSession) : Prop where
  inv : s.Inv
  udp : s.activeTransport = .udpQsp

theorem ClientSession.OnUdp.atLoop {s : ClientSession} (h : s.OnUdp) : s.AtLoop :=
  ⟨h.inv, fun _ => h.udp⟩

theorem ClientSession.OnUdp.active {s : ClientSession} (h : s.OnUdp) : s.udpState.IsActive :=
  (h.inv.udp h.udp).1

section Refresh

variable (env) in
theorem keeps_startRefresh (hT : Plain T) (h : s.OnUdp) (replaced : Bool) :
    Keeps ClientSession.OnUdp T s (startRefresh env replaced) := by
  obtain ⟨transport, htransport⟩ := ClientSession.udpReceiveTransport_of_active h.active
  refine .inert_bind (inert_writeUdpMessageAndFlush _ hT _ htransport) h fun _ => ?_
  exact .modify ⟨h.inv.unrelated _ _ _ _, h.udp⟩

theorem inert_recreateUdpIo (hT : Plain T) (ha : s.udpState.IsActive) :
    Inert T s (recreateUdpIo env) := by
  obtain ⟨transport, ht⟩ := ClientSession.asActive_of_active ha
  refine .get_bind ?_
  rw [ht]
  dsimp only
  split
  · exact .throw _ rfl
  · split
    · exact .drop rfl
    · exact .emit (hT _ rfl) rfl

theorem UdpHandled.onUdp {T' : ClientTrace} {r : Except (Stop SessionError) SessionControl}
    {s' : ClientSession} {out : List ClientEffect} {e : Stop SessionError}
    (hu : UdpHandled T' s r s' out) (h : s.OnUdp) (he : r = .error e) : s'.OnUdp :=
  ⟨hu.inv e he, hu.transport.trans h.udp⟩

variable (hT : Routine env T)
include hT

theorem sound_reconnectForNetwork (h : s.Calm) : Sound T s reconnectForNetwork :=
  .emit_bind (hT.plain _ rfl) (.pure _ h)

theorem sound_failRefresh (h : s.Inv) (err : SessionError) : Sound T s (failRefresh env err) := by
  have hcalm : { s with refresh := none }.Calm := ⟨h.unrelated _ _ _ none, rfl⟩
  refine .modify_bind (.emit_bind (hT.plain _ rfl) ?_)
  split
  · exact .throw _ hcalm
  refine .get_bind ?_
  split
  · exact sound_reconnectForNetwork hT hcalm
  · refine sound_requestTcpFallback_bind hT hcalm _ fun halive => ?_
    exact .modify_bind (.pure _ ((hcalm.requested halive _).scheduleDiscoveryNow rfl))

theorem sound_refreshReplacedSocket (h : s.OnUdp) (err : SessionError) :
    SoundLoop T s (refreshReplacedSocket env err) := by
  unfold refreshReplacedSocket
  split
  · have hagain : Keeps ClientSession.OnUdp (.all T.emits) s
        (recreateUdpIo env >>= fun _ => startRefresh env true) :=
      .inert_bind (inert_recreateUdpIo (T := .all T.emits) hT.plain h.active) h fun _ =>
        keeps_startRefresh (T := .all T.emits) env hT.plain h true
    refine .seq hagain.attempt (fun _ h' => h'.atLoop) fun r s' h' => ?_
    split
    · exact .pure _ h'.atLoop
    · exact (sound_failRefresh hT h'.inv _).loop
  · exact (sound_failRefresh hT h.inv err).loop

theorem sound_handleRefreshError (h : s.OnUdp) (refresh : Refresh) (err : SessionError) :
    SoundLoop T s (handleRefreshError env refresh err) := by
  unfold handleRefreshError
  split
  · exact (sound_failRefresh hT h.inv err).loop
  · exact sound_refreshReplacedSocket hT h err

theorem sound_handleNetworkChanged (h : s.Calm) : SoundLoop T s (handleNetworkChanged env) := by
  refine .get_bind ?_
  split
  · rename_i hudp hactive
    have honUdp : s.OnUdp := ⟨h.inv, hudp⟩
    refine .emit_bind (hT.plain _ rfl) ?_
    have hstart := keeps_startRefresh (T := .all T.emits) env hT.plain honUdp false
    refine .seq hstart.attempt (fun _ h' => h'.atLoop) fun r s' h' => ?_
    split
    · exact .pure _ h'.atLoop
    · exact sound_refreshReplacedSocket hT h' _
  · exact (sound_reconnectForNetwork hT h).loop

variable {T' : ClientTrace}

theorem sound_handleRefreshMessage (h : s.OnUdp) (refresh : Refresh) {message : Message}
    (hT' : UdpRoutine env T T' message) :
    SoundLoop T s (handleRefreshMessage env refresh message) := by
  obtain ⟨transport, htransport⟩ := ClientSession.udpReceiveTransport_of_active h.active
  refine Triple.attempt_bind (handleUdpMessage_spec hT' h.inv htransport) ?_ ?_ ?_
  · intro control s' out hu
    have hnoted : { s' with lastAuthenticatedUdpActivity := some env.now }.OnUdp :=
      ⟨hu.noted control rfl env.now, hu.transport.trans h.udp⟩
    cases control with
    | «continue» =>
      have hrest : SoundLoop T s' (noteAuthenticatedUdpActivity env >>= fun _ =>
          pure SessionControl.continue) :=
        .modify_bind (.pure _ hnoted.atLoop)
      exact hrest.after (hT'.catches.returned hu.outputs)
    -- A close ends the refresh too, and the invariant asks less without one.
    | close exit =>
      have hrest : SoundLoop T s' (do
          noteAuthenticatedUdpActivity env
          modify fun s => { s with refresh := none }
          pure (SessionControl.close exit)) :=
        .modify_bind (.modify_bind (.pure _ ⟨hnoted.inv.unrelated _ _ _ none, fun _ => hnoted.udp⟩))
      exact hrest.after (hT'.catches.returned hu.outputs)
  · intro err s' out hu
    -- Recoverable errors are ignored; others replace the socket, and the second time give up.
    have honUdp := hu.onUdp h rfl
    have hrest : SoundLoop T s' (if err.isUdpQspRecoverable then pure .continue
        else handleRefreshError env refresh err) := by
      split
      · exact .pure _ honUdp.atLoop
      · exact sound_handleRefreshError hT honUdp refresh err
    exact hrest.after (hT'.catches.caught hu.outputs)
  · intro s' out hu
    exact ⟨(hu.onUdp h rfl).atLoop, hT'.catches.dropped hu.outputs⟩

theorem sound_handleRefreshResult (h : s.OnUdp) (refresh : Refresh) {event : SessionEvent}
    (hT' : ∀ packet, event = .udpResult (.ok packet) → UdpRoutine env T T' packet.message) :
    SoundLoop T s (handleRefreshResult env refresh event) := by
  unfold handleRefreshResult
  split
  · exact .modify_bind (.pure _ ⟨h.inv.unrelated _ _ _ none, fun _ => h.udp⟩)
  · exact .pure _ h.atLoop
  · split
    · exact .pure _ h.atLoop
    · exact sound_handleRefreshError hT h refresh _
  · rename_i packet
    split
    · refine .modify_bind (.modify_bind (.emit_bind (hT.plain _ rfl) (.pure _ ?_)))
      refine ⟨?_, fun _ => h.udp⟩
      exact (h.inv.activity env.now).unrelated _ _ _ none
    · exact sound_handleRefreshMessage hT h refresh (hT' packet rfl)
  · refine .inert_bind (Keeps.attempt (inert_rejectMalformed _ _ _)) h.atLoop fun r => ?_
    split
    · exact .pure _ h.atLoop
    · exact sound_handleRefreshError hT h refresh _
  · exact sound_handleRefreshError hT h refresh _
  · exact .pure _ h.atLoop

theorem sound_handleRefreshEvent (h : s.OnUdp) (refresh : Refresh) {event : SessionEvent}
    (hT' : ∀ packet, event = .udpResult (.ok packet) → UdpRoutine env T T' packet.message) :
    SoundLoop T s (handleRefreshEvent env refresh event) := by
  obtain ⟨transport, ht⟩ := ClientSession.asActive_of_active h.active
  refine .get_bind ?_
  rw [ht]
  exact sound_handleRefreshResult hT h refresh hT'

end Refresh

/-! ## Events -/

section Events

variable {T' : ClientTrace} (hT : Routine env T) {event : SessionEvent}
  (hT' : ∀ packet, event = .udpResult (.ok packet) → UdpRoutine env T T' packet.message)
  (hidle : event = .idleTimeout → ∀ {s : ClientSession}, s.Calm →
    Sound T s (sendCloseBestEffort env .idleTimeout))
include hT hT' hidle

theorem sound_handleLoopEvent (h : s.Calm) (hpolls : s.polls event = true) :
    SoundLoop T s (handleLoopEvent env event) := by
  -- Each branch first reads from the poll guard what the loop checked for its event.
  have hrefresh := h.calm
  cases event with
  | shutdown => exact .pure _ h.atLoop
  | tunFault => exact .pure _ h.atLoop
  | control command =>
    cases command with
    | stop => exact .pure _ h.atLoop
    | networkChanged => exact sound_handleNetworkChanged hT h
  | tcpMessage message =>
    have halive : s.tcpAlive = true := by simpa [ClientSession.polls, hrefresh] using hpolls
    exact (sound_handleTcpMessage hT h halive message).loop
  | tcpMalformed type err => exact ((inert_rejectMalformed type err _).sound h).loop
  | tcpUnframed err => exact .throw _ h.atLoop
  | tcpClosed => exact (sound_handleTcpClosed h).loop
  | tcpFailed source => exact .throw _ h.atLoop
  | tunPacket packet =>
    cases packet with
    | none => exact .pure _ h.atLoop
    | some packet => exact (sound_handleTunPacket hT h packet).loop
  | udpResult result =>
    have hsome : s.udpReceiveTransport.isSome = true := by
      simpa [ClientSession.polls, hrefresh] using hpolls
    obtain ⟨transport, htransport⟩ := Option.isSome_iff_exists.mp hsome
    exact (sound_handleUdpResult hT h htransport fun packet heq => hT' packet (heq ▸ rfl)).loop
  | udpMalformed type err => exact ((inert_rejectMalformed type err _).sound h).loop
  | udpFlushReady =>
    have hudp : s.activeTransport = .udpQsp := by
      simp only [ClientSession.polls, hrefresh, Bool.and_eq_true, decide_eq_true_eq] at hpolls
      exact hpolls.1
    exact (sound_handleUdpFlushReady hT h (h.inv.udp hudp).1).loop
  | pingTick =>
    have hping : Sound T s (handlePingTick env >>= fun _ => pure SessionControl.continue) :=
      .bind (sound_writeControlMessage hT h _) fun _ _ h' => .pure _ h'
    exact hping.loop
  | idleTimeout =>
    have hclosed : Sound T s (sendCloseBestEffort env .idleTimeout >>= fun _ =>
        pure (SessionControl.close .idleTimeout)) :=
      .bind (hidle rfl h) fun _ _ h' => .pure _ h'
    exact hclosed.loop
  | udpLivenessTimeout => exact (sound_handleUdpLivenessTimeout hT h).loop
  | udpReconnectTick => exact (sound_handleUdpReconnectTick hT h).loop
  | registerTimeout => exact (sound_handleRegistrationTimeout hT h).loop
  | discoveryResult ids =>
    have htask : s.discoveryTask = true := by simpa [ClientSession.polls, hrefresh] using hpolls
    have hdone : { s with discoveryTask := false }.Calm :=
      ⟨⟨h.inv.udp, h.inv.attempt, h.inv.retained, fun hd => (nomatch hd), h.inv.alive,
        h.inv.validated, h.inv.prepared, h.inv.off⟩, h.calm⟩
    have hresult := sound_handleDiscoveryResult hT hdone (h.inv.discovery htask) rfl ids
    exact .modify_bind hresult.loop
  | udpUpgradeTick => exact (sound_handleUdpUpgradeTick hT h).loop
  | refreshTimeout => exact .pure _ h.atLoop

theorem sound_handleEvent (h : s.AtLoop) (hpolls : s.polls event = true) :
    SoundLoop T s (handleEvent env event) := by
  refine .get_bind ?_
  cases hr : s.refresh with
  | none => exact sound_handleLoopEvent hT hT' hidle ⟨h.inv, hr⟩ hpolls
  | some refresh =>
    exact sound_handleRefreshEvent hT ⟨h.inv, h.refresh (by rw [hr]; rfl)⟩ refresh hT'

end Events

/-! ## Consistency -/

def ClientEffect.isConsistent : ClientEffect → Bool
  | .inconsistent _ => false
  | _ => true

abbrev Consistent (e : ClientEffect) : Prop := e.isConsistent = true

theorem routine_consistent (env : Env) : Routine env (.all Consistent) where
  plain e he := by cases e <;> first | rfl | cases he
  write message := by
    unfold writeTcpMessage
    split
    · exact .emit rfl rfl
    · exact .emit_bind rfl (.throw _ rfl)
    · exact .emit_bind rfl (.drop rfl)

theorem consistent_handleEvent (h : s.AtLoop) (env : Env) {event : SessionEvent}
    (hpolls : s.polls event = true) : SoundLoop (.all Consistent) s (handleEvent env event) := by
  have hT := routine_consistent env
  refine sound_handleEvent hT (fun _ _ => ⟨hT.plain, fun _ => hT.write _, ?_⟩)
    (fun _ _ h' => sound_sendCloseBestEffort hT h' _) h hpolls
  exact ⟨fun h => h, fun h => h, fun h => h⟩

theorem consistent_closeSession (h : s.AtLoop) (env : Env) (exit : SessionExit) :
    Sound (.all Consistent) s (closeSession env exit) := by
  have hcalm : { s with refresh := none }.Calm := ⟨h.inv.unrelated _ _ _ none, rfl⟩
  have hclose := sound_sendCloseBestEffort (routine_consistent env) hcalm
  refine .modify_bind ?_
  unfold tellServer
  split
  · exact hclose _
  · exact hclose _
  · exact hclose _
  · exact hclose _
  · exact .pure _ hcalm

end Slt.Client
