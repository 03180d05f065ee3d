import Slt.Crypto.TwoParty

/-!
# Rejected packets

A packet that is not accepted leaves the receiver as it was, but for previous
keys that had outlived their window: those are dropped, as the next packet would
have them dropped. Two receivers that differ in nothing else give the same
results from then on.
-/

namespace Slt.Crypto

open Lib Lib.U64

namespace Session

variable {ι : Type}

/-- The session as every packet first makes it. -/
def confirmed (self : Session ι) : Session ι :=
  self.maybeConfirmPreviousRxKeys self.replayWindow.expectedPn

theorem replayWindow_confirmed (self : Session ι) :
    self.confirmed.replayWindow = self.replayWindow := by
  obtain ⟨previous, h⟩ := self.maybeConfirm_frame self.replayWindow.expectedPn
  rw [confirmed, h]

/-- Previous keys, if the next packet can still use them. -/
def usable (w : ReplayWindow) (previous : Option PreviousRxKeys) : Option PreviousRxKeys :=
  previous.filter fun prev => w.expectedPn ≤ prev.validUntilPn

theorem confirmed_eq (self : Session ι) :
    self.confirmed = { self with previousRx := usable self.replayWindow self.previousRx } := by
  rcases self with ⟨io, scid, dcid, keys, txPhase, rxPhase, nextPn, txRekey, rxRekey, previous,
    policy, window⟩
  cases previous with
  | none => rfl
  | some prev =>
    simp only [confirmed, maybeConfirmPreviousRxKeys, usable, Option.filter_some]
    by_cases hlate : window.expectedPn > prev.validUntilPn
    · rw [if_pos hlate, if_neg (by simpa using hlate)]
    · rw [if_neg hlate, if_pos (by simpa using hlate)]

theorem usable_usable (w : ReplayWindow) (previous : Option PreviousRxKeys) :
    usable w (usable w previous) = usable w previous := by
  simp [usable, Option.filter_filter]

theorem confirmed_confirmed (self : Session ι) : self.confirmed.confirmed = self.confirmed := by
  rw [self.confirmed.confirmed_eq, self.confirmed_eq]
  simp only [usable_usable]

theorem openPacket_confirmed (boring : Boring) (self : Session ι) (packet : Bytes) (t : QspTape) :
    self.confirmed.openPacket boring packet t = self.openPacket boring packet t := by
  have hagain : self.confirmed.maybeConfirmPreviousRxKeys self.replayWindow.expectedPn =
      self.maybeConfirmPreviousRxKeys self.replayWindow.expectedPn := by
    have h := self.confirmed_confirmed
    rw [confirmed, replayWindow_confirmed] at h
    exact h
  simp only [openPacket, replayWindow_confirmed, hagain]

section

variable (boring : Boring) (self : Session ι) (pn : Nat) (t : QspTape)

theorem maybeRotateTxKeys_of_none (h : self.txNextRekeyPn = none) :
    self.maybeRotateTxKeys boring pn t = (.ok (), self, t) := by
  rw [maybeRotateTxKeys]
  split
  · rfl
  · rename_i hsome
    exact absurd (h.symm.trans hsome) (by simp)

theorem maybeRotateTxKeys_of_some {threshold : Nat} (h : self.txNextRekeyPn = some threshold) :
    self.maybeRotateTxKeys boring pn t =
      if pn < threshold then (.ok (), self, t)
      else
        match (self.keys.withNextTxKeys boring).run t with
        | (.error e, t) => (.error (.crypto e), self, t)
        | (.ok keys, t) =>
          maybeRotateTxKeys boring
            { self with
              keys
              txKeyPhase := !self.txKeyPhase
              txNextRekeyPn := nextRekeyAfter threshold self.rekeyPolicy.interval } pn t := by
  rw [maybeRotateTxKeys]
  split
  · rename_i hnone
    exact absurd (h.symm.trans hnone) (by simp)
  · rename_i next hnext
    obtain rfl : threshold = next := Option.some.inj (h.symm.trans hnext)
    rfl

theorem maybeRotateTxKeys_withPrevious (previous : Option PreviousRxKeys) :
    ({ self with previousRx := previous } : Session ι).maybeRotateTxKeys boring pn t =
      ((self.maybeRotateTxKeys boring pn t).1,
        { (self.maybeRotateTxKeys boring pn t).2.1 with previousRx := previous },
        (self.maybeRotateTxKeys boring pn t).2.2) := by
  fun_induction maybeRotateTxKeys boring self pn t with
  | case1 self t hnone => exact maybeRotateTxKeys_of_none boring _ pn t hnone
  | case2 self t threshold hthreshold hlt =>
    rw [maybeRotateTxKeys_of_some boring { self with previousRx := previous } pn t hthreshold,
      if_pos hlt]
  | case3 self t threshold hthreshold hle e t' hrun =>
    rw [maybeRotateTxKeys_of_some boring { self with previousRx := previous } pn t hthreshold,
      if_neg hle, hrun]
  | case4 self t threshold hthreshold hle keys t' hrun ih =>
    rw [maybeRotateTxKeys_of_some boring { self with previousRx := previous } pn t hthreshold,
      if_neg hle, hrun]
    exact ih

end

variable [SessionIo ι]

theorem send_withPrevious (boring : Boring) (self : Session ι) (payload : Bytes) (t : QspTape)
    (previous : Option PreviousRxKeys) :
    ({ self with previousRx := previous } : Session ι).send boring payload t =
      ((self.send boring payload t).1,
        { (self.send boring payload t).2.1 with previousRx := previous },
        (self.send boring payload t).2.2) := by
  have hrotate := maybeRotateTxKeys_withPrevious boring self self.nextPn t previous
  unfold send
  dsimp only
  rw [hrotate]
  generalize self.maybeRotateTxKeys boring self.nextPn t = out
  obtain ⟨r, rotated, t₁⟩ := out
  cases r with
  | error e => rfl
  | ok u =>
    cases checkedAdd self.nextPn 1 with
    | none => rfl
    | some nextPn =>
      dsimp only
      split
      · rfl
      · split <;> rfl

/-! ## Later calls -/

inductive LaterCall where
  | send (boring : Boring) (payload : Bytes) (faults : List Bool)
  | openPacket (boring : Boring) (packet : Bytes) (faults : List Bool)

/-- What a call shows: its result, and for a send what was sealed and
transmitted, with packet numbers and phases. -/
inductive CallResult where
  | sent (result : Except QspSessionError Unit) (log : List SessionEvent)
  | opened (result : Except QspSessionError OpenedPacket)

def later (self : Session ι) : LaterCall → CallResult × Session ι
  | .send boring payload faults =>
    let out := self.send boring payload ⟨faults, []⟩
    (.sent out.1 out.2.2.log, out.2.1)
  | .openPacket boring packet faults =>
    let out := self.openPacket boring packet ⟨faults, []⟩
    (.opened out.1, out.2.1)

def laterResults (self : Session ι) : List LaterCall → List CallResult
  | [] => []
  | call :: calls => (self.later call).1 :: (self.later call).2.laterResults calls

/-- The sessions differ at most in previous keys that have outlived their
window. -/
def Agree (self other : Session ι) : Prop := self.confirmed = other.confirmed

omit [SessionIo ι] in
theorem agree_confirmed (self : Session ι) : self.confirmed.Agree self := self.confirmed_confirmed

omit [SessionIo ι] in
theorem Agree.openPacket {self other : Session ι} (h : self.Agree other) (boring : Boring)
    (packet : Bytes) (t : QspTape) :
    self.openPacket boring packet t = other.openPacket boring packet t := by
  rw [← openPacket_confirmed, h, openPacket_confirmed]

omit [SessionIo ι] in
/-- Sessions that agree are one session with two sets of previous keys. -/
theorem agree_iff {self other : Session ι} :
    self.Agree other ↔ self = { other with previousRx := self.previousRx } ∧
      usable other.replayWindow self.previousRx = usable other.replayWindow other.previousRx := by
  rw [Agree, self.confirmed_eq, other.confirmed_eq]
  constructor
  · intro h
    have hself : self = { other with previousRx := self.previousRx } :=
      congrArg (fun s : Session ι => { s with previousRx := self.previousRx }) h
    have hwindow := congrArg Session.replayWindow h
    have husable := congrArg Session.previousRx h
    dsimp only at hwindow husable
    rw [hwindow] at husable
    exact ⟨hself, husable⟩
  · rintro ⟨hself, husable⟩
    rw [hself]
    exact congrArg (fun previous => { other with previousRx := previous }) husable

theorem Agree.later {self other : Session ι} (h : self.Agree other) (call : LaterCall) :
    (self.later call).1 = (other.later call).1 ∧
      (self.later call).2.Agree (other.later call).2 := by
  cases call with
  | send boring payload faults =>
    obtain ⟨hself, husable⟩ := agree_iff.mp h
    have hsend := send_withPrevious boring other payload ⟨faults, []⟩ self.previousRx
    have hrx := other.send_frame boring payload ⟨faults, []⟩
    rw [← hself] at hsend
    simp only [Session.later, hsend, true_and]
    refine agree_iff.mpr ⟨rfl, ?_⟩
    have hwindow : (other.send boring payload ⟨faults, []⟩).2.1.replayWindow = other.replayWindow :=
      congrArg RxState.replayWindow hrx
    have hprevious : (other.send boring payload ⟨faults, []⟩).2.1.previousRx = other.previousRx :=
      congrArg RxState.previous hrx
    rw [hwindow, hprevious]
    exact husable
  | openPacket boring packet faults =>
    rw [Session.later, Session.later, h.openPacket]
    exact ⟨rfl, rfl⟩

theorem Agree.laterResults {calls : List LaterCall} : ∀ {self other : Session ι},
    self.Agree other → self.laterResults calls = other.laterResults calls := by
  induction calls with
  | nil => exact fun _ => rfl
  | cons call calls ih =>
    intro self other h
    obtain ⟨hresult, hrest⟩ := h.later call
    rw [Session.laterResults, Session.laterResults, hresult, ih hrest]

end Session

/-! ## Rejection -/

section
variable {ι ρ : Type} {boring : Boring} {link : Link ι ρ} {sender : Session ι}
  {sent : List SentPacket} {accepted : List OpenedPacket}

/-- A call that returns an error only drops previous keys that have outlived
their window. Next keys are promoted for a packet of the next generation only,
and that is newer than all that was accepted. -/
theorem openPacket_rejected {receiver : Session ρ} {aeadOpen : AeadOpen} {packet : Bytes}
    {t : QspTape} {e : QspSessionError} (hsent : SentInv boring link sender sent)
    (hinv : ReceiverInv boring link sent receiver accepted)
    (hideal : Unforgeable boring link sent aeadOpen)
    (h : (receiver.openPacket { boring with aeadOpen } packet t).1 = .error e) :
    (receiver.openPacket { boring with aeadOpen } packet t).2.1 = receiver.confirmed := by
  obtain ⟨g, hrx⟩ := hinv.rx
  have hexpected : receiver.replayWindow.expectedPn < 2 ^ 64 := hrx.expectedPn_lt
  obtain ⟨hconf, -, -⟩ := hrx.confirm
  obtain ⟨t', -, hstep⟩ := receiver.openPacket_cases { boring with aeadOpen } packet t
  change Session.OpenStep _ receiver.confirmed _ _ _ _ at hstep
  change RxInv boring link accepted receiver.confirmed.rxState g at hconf
  generalize receiver.openPacket { boring with aeadOpen } packet t = out at hstep h ⊢
  generalize receiver.confirmed = conf at hconf hstep ⊢
  -- With current or previous keys only the window can refuse, and then it stays.
  have haccept : ∀ opened, (conf.acceptOpened opened t').1 = .error e →
      (conf.acceptOpened opened t').2.1 = conf := by
    intro opened herror
    rcases hcheck : conf.replayWindow.checkAndUpdate opened.pn with ⟨r, w⟩
    cases r with
    | ok u =>
      rw [Session.acceptOpened_ok hcheck] at herror
      exact nomatch herror
    | error e' =>
      obtain ⟨_, hout⟩ := Session.acceptOpened_error hcheck t'
      rw [hout]
  cases hstep with
  | current opened opens phase => exact haccept opened h
  | previous prev opened retained valid opens phase => exact haccept opened h
  | candidate threshold opened dropped rekey near opens phase =>
    -- A packet that promotes the next keys is always accepted.
    obtain ⟨-, hok⟩ := candidate_inv t' hsent hconf hinv.results hideal hexpected rekey opens
    rw [hok] at h
    exact nomatch h
  | refused e' => rfl

end

end Slt.Crypto
