import Slt.Crypto.Session

/-!
# What the session functions do

One lemma for each function of the session says all it can do. The sending
half of a session (`TxState`) is not touched by receiving, and the receiving
half (`RxState`) is not touched by sending, although both share one key object.
-/

namespace Slt.Crypto.Session

open Lib Lib.U64

variable {ι : Type}

structure TxState where
  dcid : Cid
  cipher : CipherSuite
  keys : DirectionKeys
  keyPhase : Bool
  nextPn : Nat
  nextRekeyPn : Option Nat
  policy : RekeyPolicy

structure RxState where
  scid : Cid
  cipher : CipherSuite
  keys : DirectionKeys
  keyPhase : Bool
  nextRekeyPn : Option Nat
  previous : Option PreviousRxKeys
  policy : RekeyPolicy
  replayWindow : ReplayWindow

def txState (self : Session ι) : TxState where
  dcid := self.dcid
  cipher := self.keys.cipher
  keys := self.keys.tx
  keyPhase := self.txKeyPhase
  nextPn := self.nextPn
  nextRekeyPn := self.txNextRekeyPn
  policy := self.rekeyPolicy

def rxState (self : Session ι) : RxState where
  scid := self.scid
  cipher := self.keys.cipher
  keys := self.keys.rx
  keyPhase := self.rxKeyPhase
  nextRekeyPn := self.rxNextRekeyPn
  previous := self.previousRx
  policy := self.rekeyPolicy
  replayWindow := self.replayWindow

/-! ## Receiving -/

def Opens (boring : Boring) (self : Session ι) (keys : UdpQspKeys) (packet : Bytes)
    (expectedPn : Nat) (opened : OpenedPacket) : Prop :=
  ∃ t t', (keys.openInto boring self.scid.len packet expectedPn).run t = (.ok opened, t')

def nextRxKeys (boring : Boring) (self : Session ι) : UdpQspKeys :=
  { self.keys with rx := self.keys.rx.next boring self.keys.cipher }

/-- The session after a promotion of the next receive keys at `threshold`. -/
def promoted (boring : Boring) (self : Session ι) (threshold : Nat) : Session ι :=
  { self with
    previousRx := some ⟨self.keys, saturatingAdd threshold pnReplayWindow⟩
    keys := self.nextRxKeys boring
    rxKeyPhase := !self.rxKeyPhase
    rxNextRekeyPn := nextRekeyAfter threshold self.rekeyPolicy.interval }

theorem openWith_spec (boring : Boring) (self : Session ι) (keys : UdpQspKeys) (packet : Bytes)
    (expectedPn : Nat) (t : QspTape) :
    ∃ opened? t', self.openWith boring keys packet expectedPn t = (opened?, t') ∧
      t'.log = t.log ∧
      ∀ opened, opened? = some opened → self.Opens boring keys packet expectedPn opened := by
  have hquiet := (UdpQspKeys.quiet_openIntoInner boring keys.rx self.scid.len packet
    expectedPn).log t
  unfold openWith UdpQspKeys.openInto
  rcases hr : (UdpQspKeys.openIntoInner boring keys.rx self.scid.len packet expectedPn).run t with
    ⟨r, t'⟩
  rw [hr] at hquiet
  cases r with
  | error e => exact ⟨none, t', rfl, hquiet, by simp⟩
  | ok opened =>
    refine ⟨some opened, t', rfl, hquiet, ?_⟩
    rintro _ ⟨⟩
    exact ⟨t, t', hr⟩

theorem acceptOpened_ok {self : Session ι} {opened : OpenedPacket} {w : ReplayWindow}
    (h : self.replayWindow.checkAndUpdate opened.pn = (.ok (), w)) (t : QspTape) :
    self.acceptOpened opened t = (.ok opened, { self with replayWindow := w }, t) := by
  simp only [acceptOpened, h]

theorem acceptOpened_error {self : Session ι} {opened : OpenedPacket} {e : ReplayError}
    {w : ReplayWindow} (h : self.replayWindow.checkAndUpdate opened.pn = (.error e, w))
    (t : QspTape) : ∃ e', self.acceptOpened opened t = (.error e', self, t) := by
  obtain rfl := ReplayWindow.checkAndUpdate_error h
  cases e with
  | replay => exact ⟨.replay, by simp only [acceptOpened, h]⟩
  | tooOld => exact ⟨.tooOld, by simp only [acceptOpened, h]⟩

theorem acceptOpened_cases (self : Session ι) (opened : OpenedPacket) (t : QspTape) :
    ∃ r w, self.acceptOpened opened t = (r, { self with replayWindow := w }, t) := by
  rcases h : self.replayWindow.checkAndUpdate opened.pn with ⟨r, w⟩
  cases r with
  | ok u => exact ⟨_, _, acceptOpened_ok h t⟩
  | error e =>
    obtain ⟨e', he⟩ := acceptOpened_error h t
    exact ⟨.error e', self.replayWindow, he⟩

/-- What `openPacket` can do, from the session `self` in which outlived
previous keys have been dropped: accept with the current keys, with the
previous ones, or with the next ones after promoting them, or refuse. -/
inductive OpenStep (boring : Boring) (self : Session ι) (packet : Bytes) (expectedPn : Nat)
    (t : QspTape) : Outcome ι OpenedPacket → Prop
  | current (opened : OpenedPacket)
      (opens : self.Opens boring self.keys packet expectedPn opened)
      (phase : opened.keyPhase = self.rxKeyPhase) :
      OpenStep boring self packet expectedPn t (self.acceptOpened opened t)
  | previous (prev : PreviousRxKeys) (opened : OpenedPacket)
      (retained : self.previousRx = some prev) (valid : expectedPn ≤ prev.validUntilPn)
      (opens : self.Opens boring prev.keys packet expectedPn opened)
      (phase : opened.keyPhase ≠ self.rxKeyPhase) :
      OpenStep boring self packet expectedPn t (self.acceptOpened opened t)
  | candidate (threshold : Nat) (opened : OpenedPacket)
      (dropped : self.previousRx = none) (rekey : self.rxNextRekeyPn = some threshold)
      (near : pnDistance expectedPn threshold ≤ self.rekeyPolicy.lateMargin)
      (opens : self.Opens boring (self.nextRxKeys boring) packet expectedPn opened)
      (phase : opened.keyPhase ≠ self.rxKeyPhase) :
      OpenStep boring self packet expectedPn t
        ((self.promoted boring threshold).acceptOpened opened t)
  | refused (e : QspSessionError) : OpenStep boring self packet expectedPn t (.error e, self, t)

theorem deriveCandidateRxKeys_some (boring : Boring) {self : Session ι} (t : QspTape)
    {threshold : Nat} (h : self.rxNextRekeyPn = some threshold) :
    (∃ t', t'.log = t.log ∧ self.deriveCandidateRxKeys boring t =
        (.ok (some (self.nextRxKeys boring)), t')) ∨
      (∃ e t', t'.log = t.log ∧ self.deriveCandidateRxKeys boring t = (.error e, t')) := by
  have hquiet := (UdpQspKeys.quiet_withNextRxKeys boring self.keys).log t
  unfold deriveCandidateRxKeys
  rcases hr : (self.keys.withNextRxKeys boring).run t with ⟨r, t'⟩
  rw [hr] at hquiet
  cases r with
  | error e => exact .inr ⟨.crypto e, t', hquiet, by simp [h]⟩
  | ok keys =>
    obtain rfl := (UdpQspKeys.yields_withNextRxKeys boring self.keys).success hr
    exact .inl ⟨t', hquiet, by simp [h, nextRxKeys]⟩

theorem promoteCandidateRxKeys_some (boring : Boring) {self : Session ι} (t : QspTape)
    {threshold : Nat} (h : self.rxNextRekeyPn = some threshold) :
    (∃ t', t'.log = t.log ∧ self.promoteCandidateRxKeys (self.nextRxKeys boring) t =
        (.ok (), self.promoted boring threshold, t')) ∨
      (∃ e t', t'.log = t.log ∧ self.promoteCandidateRxKeys (self.nextRxKeys boring) t =
        (.error e, self, t')) := by
  have hquiet := (UdpQspKeys.quiet_tryClone self.keys).log t
  unfold promoteCandidateRxKeys
  rcases hr : self.keys.tryClone.run t with ⟨r, t'⟩
  rw [hr] at hquiet
  cases r with
  | error e => exact .inr ⟨_, t', hquiet, rfl⟩
  | ok keys =>
    obtain rfl := (UdpQspKeys.yields_tryClone self.keys).success hr
    exact .inl ⟨t', hquiet, by simp [h, promoted]⟩

theorem shouldTryCandidate_iff {self : Session ι} {expectedPn : Nat} :
    self.shouldTryCandidate expectedPn = true ↔
      self.previousRx = none ∧ ∃ threshold, self.rxNextRekeyPn = some threshold ∧
        pnDistance expectedPn threshold ≤ self.rekeyPolicy.lateMargin := by
  unfold shouldTryCandidate
  cases self.previousRx <;> cases self.rxNextRekeyPn <;> simp

theorem openCandidate_cases (boring : Boring) (self : Session ι) (packet : Bytes)
    (expectedPn : Nat) (t : QspTape) :
    ∃ t', t'.log = t.log ∧
      OpenStep boring self packet expectedPn t'
        (self.openCandidate boring packet expectedPn t) := by
  unfold openCandidate
  split_ifs with htry
  · obtain ⟨hdropped, threshold, hrekey, hnear⟩ := shouldTryCandidate_iff.mp htry
    rcases deriveCandidateRxKeys_some boring t hrekey with
      ⟨t₁, hlog₁, hderive⟩ | ⟨e, t₁, hlog₁, hderive⟩
    · obtain ⟨opened?, t₂, hopen, hlog₂, hopens⟩ :=
        openWith_spec boring self (self.nextRxKeys boring) packet expectedPn t₁
      rw [hderive]
      dsimp only
      rw [hopen]
      have hlog : t₂.log = t.log := hlog₂.trans hlog₁
      dsimp only
      cases hfilter : opened?.filter (·.keyPhase != self.rxKeyPhase) with
      | none => exact ⟨t₂, hlog, .refused _⟩
      | some opened =>
        obtain ⟨hopened, hphase⟩ := Option.filter_eq_some_iff.mp hfilter
        have hphase : opened.keyPhase ≠ self.rxKeyPhase := by simpa using hphase
        rcases promoteCandidateRxKeys_some boring t₂ hrekey with
          ⟨t₃, hlog₃, hpromote⟩ | ⟨e, t₃, hlog₃, hpromote⟩
        · rw [hpromote]
          exact ⟨t₃, hlog₃.trans hlog,
            .candidate threshold opened hdropped hrekey hnear (hopens _ hopened) hphase⟩
        · rw [hpromote]
          exact ⟨t₃, hlog₃.trans hlog, .refused e⟩
    · rw [hderive]
      exact ⟨t₁, hlog₁, .refused e⟩
  · exact ⟨t, rfl, .refused _⟩

theorem openPacket_cases (boring : Boring) (self : Session ι) (packet : Bytes) (t : QspTape) :
    ∃ t', t'.log = t.log ∧
      OpenStep boring (self.maybeConfirmPreviousRxKeys self.replayWindow.expectedPn) packet
        self.replayWindow.expectedPn t' (self.openPacket boring packet t) := by
  unfold openPacket
  dsimp only
  generalize self.replayWindow.expectedPn = expectedPn
  generalize self.maybeConfirmPreviousRxKeys expectedPn = conf
  obtain ⟨opened?, t₁, hopen, hlog₁, hopens⟩ :=
    openWith_spec boring conf conf.keys packet expectedPn t
  rw [hopen]
  dsimp only
  cases hfilter : opened?.filter (·.keyPhase == conf.rxKeyPhase) with
  | some opened =>
    obtain ⟨hopened, hphase⟩ := Option.filter_eq_some_iff.mp hfilter
    exact ⟨t₁, hlog₁, .current opened (hopens _ hopened) (by simpa using hphase)⟩
  | none =>
    dsimp only
    cases hprev : conf.previousRx with
    | none =>
      obtain ⟨t₂, hlog₂, hstep⟩ := openCandidate_cases boring conf packet expectedPn t₁
      exact ⟨t₂, hlog₂.trans hlog₁, hstep⟩
    | some prev =>
      obtain ⟨opened₂?, t₂, hopen₂, hlog₂, hopens₂⟩ :=
        openWith_spec boring conf prev.keys packet expectedPn t₁
      have hcan : conf.canTryPrevious expectedPn = decide (expectedPn ≤ prev.validUntilPn) := by
        simp [canTryPrevious, hprev]
      dsimp only
      split_ifs with hvalid
      · rw [hcan, decide_eq_true_eq] at hvalid
        rw [hopen₂]
        dsimp only
        cases hfilter₂ : opened₂?.filter (·.keyPhase != conf.rxKeyPhase) with
        | some opened =>
          obtain ⟨hopened, hphase⟩ := Option.filter_eq_some_iff.mp hfilter₂
          exact ⟨t₂, hlog₂.trans hlog₁,
            .previous prev opened hprev hvalid (hopens₂ _ hopened) (by simpa using hphase)⟩
        | none =>
          obtain ⟨t₃, hlog₃, hstep⟩ := openCandidate_cases boring conf packet expectedPn t₂
          exact ⟨t₃, hlog₃.trans (hlog₂.trans hlog₁), hstep⟩
      · obtain ⟨t₂, hlog₂, hstep⟩ := openCandidate_cases boring conf packet expectedPn t₁
        exact ⟨t₂, hlog₂.trans hlog₁, hstep⟩

theorem maybeConfirm_frame (self : Session ι) (expectedPn : Nat) :
    ∃ previous, self.maybeConfirmPreviousRxKeys expectedPn =
      { self with previousRx := previous } := by
  unfold maybeConfirmPreviousRxKeys
  split
  · split
    · exact ⟨none, rfl⟩
    · exact ⟨self.previousRx, rfl⟩
  · exact ⟨self.previousRx, rfl⟩

@[simp] theorem txState_maybeConfirm (self : Session ι) (expectedPn : Nat) :
    (self.maybeConfirmPreviousRxKeys expectedPn).txState = self.txState := by
  obtain ⟨previous, h⟩ := self.maybeConfirm_frame expectedPn
  rw [h]
  rfl

theorem txState_acceptOpened (self : Session ι) (opened : OpenedPacket) (t : QspTape) :
    (self.acceptOpened opened t).2.1.txState = self.txState := by
  obtain ⟨r, w, h⟩ := self.acceptOpened_cases opened t
  rw [h]
  rfl

theorem tape_acceptOpened (self : Session ι) (opened : OpenedPacket) (t : QspTape) :
    (self.acceptOpened opened t).2.2 = t := by
  obtain ⟨r, w, h⟩ := self.acceptOpened_cases opened t
  rw [h]

/-- Receiving a packet leaves the sending half alone and seals nothing. -/
theorem openPacket_frame (boring : Boring) (self : Session ι) (packet : Bytes) (t : QspTape) :
    (self.openPacket boring packet t).2.1.txState = self.txState ∧
      (self.openPacket boring packet t).2.2.log = t.log := by
  obtain ⟨t', hlog, hstep⟩ := self.openPacket_cases boring packet t
  generalize self.openPacket boring packet t = out at hstep
  cases hstep with
  | current opened opens phase =>
    rw [txState_acceptOpened, tape_acceptOpened]
    exact ⟨txState_maybeConfirm .., hlog⟩
  | previous prev opened retained valid opens phase =>
    rw [txState_acceptOpened, tape_acceptOpened]
    exact ⟨txState_maybeConfirm .., hlog⟩
  | candidate threshold opened dropped rekey near opens phase =>
    rw [txState_acceptOpened, tape_acceptOpened]
    exact ⟨txState_maybeConfirm .., hlog⟩
  | refused e => exact ⟨txState_maybeConfirm .., hlog⟩

/-- A packet is accepted with the window that takes its number, or refused with
the window as it was; the backend is not used. -/
inductive Windowed (before : ReplayWindow) (io : ι) : Outcome ι OpenedPacket → Prop where
  | accepted (opened : OpenedPacket) (after : Session ι) (t : QspTape)
      (takes : before.checkAndUpdate opened.pn = (.ok (), after.replayWindow))
      (backend : after.io = io) : Windowed before io (.ok opened, after, t)
  | refused (e : QspSessionError) (after : Session ι) (t : QspTape)
      (same : after.replayWindow = before) (backend : after.io = io) :
      Windowed before io (.error e, after, t)

theorem windowed_acceptOpened (self : Session ι) (opened : OpenedPacket) (t : QspTape) :
    Windowed self.replayWindow self.io (self.acceptOpened opened t) := by
  rcases h : self.replayWindow.checkAndUpdate opened.pn with ⟨r, w⟩
  cases r with
  | ok u =>
    rw [acceptOpened_ok h t]
    exact .accepted opened _ t h rfl
  | error e =>
    obtain ⟨e', he⟩ := acceptOpened_error h t
    rw [he]
    exact .refused e' self t rfl rfl

theorem openPacket_windowed (boring : Boring) (self : Session ι) (packet : Bytes) (t : QspTape) :
    Windowed self.replayWindow self.io (self.openPacket boring packet t) := by
  obtain ⟨t', -, hstep⟩ := self.openPacket_cases boring packet t
  have hconf : (self.maybeConfirmPreviousRxKeys self.replayWindow.expectedPn).replayWindow =
        self.replayWindow ∧
      (self.maybeConfirmPreviousRxKeys self.replayWindow.expectedPn).io = self.io := by
    obtain ⟨previous, h⟩ := self.maybeConfirm_frame self.replayWindow.expectedPn
    rw [h]
    exact ⟨rfl, rfl⟩
  generalize self.maybeConfirmPreviousRxKeys self.replayWindow.expectedPn = conf at hstep hconf
  rw [← hconf.1, ← hconf.2]
  generalize self.openPacket boring packet t = out at hstep
  cases hstep with
  | current opened opens phase => exact windowed_acceptOpened ..
  | previous prev opened retained valid opens phase => exact windowed_acceptOpened ..
  | candidate threshold opened dropped rekey near opens phase =>
    exact windowed_acceptOpened (conf.promoted boring threshold) opened t'
  | refused e => exact .refused e conf t' rfl rfl

/-! ## Sending -/

/-- Rotating touches nothing but the sending keys, their phase and threshold. -/
theorem maybeRotateTxKeys_frame (boring : Boring) (self : Session ι) (pn : Nat) (t : QspTape) :
    (self.maybeRotateTxKeys boring pn t).2.1.rxState = self.rxState ∧
      (self.maybeRotateTxKeys boring pn t).2.1.io = self.io ∧
      (self.maybeRotateTxKeys boring pn t).2.2.log = t.log := by
  fun_induction maybeRotateTxKeys boring self pn t with
  | case1 => exact ⟨rfl, rfl, rfl⟩
  | case2 => exact ⟨rfl, rfl, rfl⟩
  | case3 self t threshold hthreshold hle e t' hrun =>
    have hquiet := (UdpQspKeys.quiet_withNextTxKeys boring self.keys).log t
    rw [hrun] at hquiet
    exact ⟨rfl, rfl, hquiet⟩
  | case4 self t threshold hthreshold hle keys t' hrun ih =>
    have hquiet := (UdpQspKeys.quiet_withNextTxKeys boring self.keys).log t
    rw [hrun] at hquiet
    obtain rfl := (UdpQspKeys.yields_withNextTxKeys boring self.keys).success hrun
    exact ⟨ih.1, ih.2.1, ih.2.2.trans hquiet⟩

theorem send_frame [SessionIo ι] (boring : Boring) (self : Session ι) (payload : Bytes)
    (t : QspTape) : (self.send boring payload t).2.1.rxState = self.rxState := by
  obtain ⟨hrx, -, -⟩ := self.maybeRotateTxKeys_frame boring self.nextPn t
  unfold send
  dsimp only
  generalize self.maybeRotateTxKeys boring self.nextPn t = out at hrx ⊢
  obtain ⟨r, rotated, t₁⟩ := out
  cases r with
  | error e => exact hrx
  | ok u =>
    cases checkedAdd self.nextPn 1 with
    | none => exact hrx
    | some nextPn =>
      dsimp only
      split
      · exact hrx
      · split <;> exact hrx

end Slt.Crypto.Session
