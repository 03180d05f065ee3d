import Slt.Lib.U64
import Mathlib.Data.Set.Insert

/-!
# The replay window

The receiver remembers the largest packet number it accepted and, in a
circular bitmap, which of the `1024` numbers up to it were accepted. `Tracks`
relates a window to the unbounded set of all accepted numbers; every check
answers as that set does.
-/

namespace Slt.Crypto

open Lib.U64

def pnReplayWindow : Nat := 1024

def windowWordBits : Nat := 64
def windowWords : Nat := pnReplayWindow / windowWordBits

inductive ReplayError where
  | replay
  | tooOld
  deriving DecidableEq, Repr

abbrev WindowBits := Vector (BitVec windowWordBits) windowWords

structure ReplayWindow where
  largestPn : Option Nat
  initialExpected : Nat
  bits : WindowBits
  deriving DecidableEq

/-- The word of the bitmap a packet number falls in, and its bit there. -/
def bitPosition (pn : Nat) : Fin windowWords × BitVec windowWordBits :=
  let idx := pn % pnReplayWindow
  (⟨idx / windowWordBits, by
      have := Nat.mod_lt pn (show 0 < pnReplayWindow by decide)
      simp only [idx, windowWordBits, windowWords, pnReplayWindow] at *
      omega⟩,
    (1 : BitVec windowWordBits) <<< (idx % windowWordBits))

namespace ReplayWindow

def new (initialExpected : Nat) : ReplayWindow where
  largestPn := none
  initialExpected := initialExpected
  bits := Vector.replicate windowWords 0

def expectedPn (self : ReplayWindow) : Nat :=
  match self.largestPn with
  | none => self.initialExpected
  | some pn => saturatingAdd pn 1

def isSet (self : ReplayWindow) (pn : Nat) : Bool :=
  let (word, mask) := bitPosition pn
  self.bits[word] &&& mask ≠ 0

def setBit (self : ReplayWindow) (pn : Nat) : ReplayWindow :=
  let (word, mask) := bitPosition pn
  { self with bits := self.bits.set word (self.bits[word] ||| mask) }

def clearBit (self : ReplayWindow) (pn : Nat) : ReplayWindow :=
  let (word, mask) := bitPosition pn
  { self with bits := self.bits.set word (self.bits[word] &&& ~~~mask) }

def fillZero (self : ReplayWindow) : ReplayWindow :=
  { self with bits := Vector.replicate windowWords 0 }

def checkAndUpdate (self : ReplayWindow) (pn : Nat) : Except ReplayError Unit × ReplayWindow :=
  match self.largestPn with
  | none =>
    if pn < self.initialExpected then (.error .tooOld, self)
    else (.ok (), ({ self.fillZero with largestPn := some pn } : ReplayWindow).setBit pn)
  | some largest =>
    if pn > largest then
      let delta := pn - largest
      let cleared :=
        if delta ≥ pnReplayWindow then self.fillZero
        else
          let window := pnReplayWindow - 1
          let oldStart := largest - window
          let newStart := pn - window
          if newStart > oldStart then
            (List.range' oldStart (newStart - oldStart)).foldl clearBit self
          else self
      (.ok (), ({ cleared with largestPn := some pn } : ReplayWindow).setBit pn)
    else
      let delta := largest - pn
      if delta ≥ pnReplayWindow then (.error .tooOld, self)
      else if self.isSet pn then (.error .replay, self)
      else (.ok (), self.setBit pn)

theorem checkAndUpdate_error {w w' : ReplayWindow} {pn : Nat} {e : ReplayError}
    (h : w.checkAndUpdate pn = (.error e, w')) : w' = w := by
  unfold checkAndUpdate at h
  split at h
  · split_ifs at h <;> simp_all
  · dsimp only at h
    split_ifs at h <;> simp_all

/-! ## The bitmap -/

@[simp] theorem largestPn_setBit (w : ReplayWindow) (pn : Nat) :
    (w.setBit pn).largestPn = w.largestPn := rfl
@[simp] theorem isSet_withLargest (w : ReplayWindow) (m : Option Nat) (q : Nat) :
    isSet { w with largestPn := m } q = isSet w q := rfl

theorem getLsbD_one_shiftLeft {b i : Nat} (hi : i < 64) :
    ((1 : BitVec 64) <<< b).getLsbD i = decide (b = i) := by
  simp only [BitVec.getLsbD_shiftLeft, hi, decide_true, Bool.true_and]
  by_cases h : b = i
  · simp [h]
  · simp [h]
    omega

theorem and_one_shiftLeft_ne_zero (x : BitVec 64) {b : Nat} (hb : b < 64) :
    decide (x &&& (1 : BitVec 64) <<< b ≠ 0) = x.getLsbD b := by
  cases hx : x.getLsbD b with
  | true =>
    rw [decide_eq_true_eq]
    intro hzero
    have := congrArg (fun y => y.getLsbD b) hzero
    simp only [BitVec.getLsbD_and, getLsbD_one_shiftLeft hb, hx] at this
    simp at this
  | false =>
    rw [decide_eq_false_iff_not, not_not]
    apply BitVec.eq_of_getLsbD_eq
    intro i hi
    rw [BitVec.getLsbD_and, getLsbD_one_shiftLeft hi]
    by_cases h : b = i
    · simp [← h, hx]
    · simp [h]

/-- Two packet numbers share a word and a bit of it exactly when they have the
same place in the bitmap. -/
theorem bitPosition_eq_iff (p q : Nat) :
    (bitPosition p).1 = (bitPosition q).1 ∧
        p % pnReplayWindow % windowWordBits = q % pnReplayWindow % windowWordBits ↔
      p % pnReplayWindow = q % pnReplayWindow := by
  simp only [bitPosition, Fin.mk.injEq, windowWordBits]
  omega

theorem isSet_eq (w : ReplayWindow) (pn : Nat) :
    w.isSet pn = (w.bits[(bitPosition pn).1]).getLsbD (pn % pnReplayWindow % windowWordBits) :=
  and_one_shiftLeft_ne_zero _ (Nat.mod_lt _ (by decide))

/-- Replacing the word of `pn` by `f` of it and of the mask changes the bits
of that word only. -/
theorem isSet_update (w : ReplayWindow) (pn q : Nat) (x : BitVec windowWordBits) :
    isSet { w with bits := w.bits.set (bitPosition pn).1 x } q =
      if (bitPosition pn).1 = (bitPosition q).1 then
        x.getLsbD (q % pnReplayWindow % windowWordBits)
      else w.isSet q := by
  rw [isSet_eq, isSet_eq]
  simp only [Fin.getElem_fin, Vector.getElem_set, Fin.ext_iff]
  split <;> rfl

theorem isSet_setBit (w : ReplayWindow) (pn q : Nat) :
    (w.setBit pn).isSet q =
      (decide (pn % pnReplayWindow = q % pnReplayWindow) || w.isSet q) := by
  have hq : q % pnReplayWindow % windowWordBits < windowWordBits := Nat.mod_lt _ (by decide)
  have hmask : (bitPosition pn).2.getLsbD (q % pnReplayWindow % windowWordBits) = _ :=
    getLsbD_one_shiftLeft hq
  rw [setBit, isSet_update, BitVec.getLsbD_or, hmask]
  simp only [← bitPosition_eq_iff]
  by_cases hw : (bitPosition pn).1 = (bitPosition q).1
  · simp only [hw, ↓reduceIte, true_and, isSet_eq]
    exact Bool.or_comm _ _
  · simp [hw]

theorem isSet_clearBit (w : ReplayWindow) (pn q : Nat) :
    (w.clearBit pn).isSet q =
      (!decide (pn % pnReplayWindow = q % pnReplayWindow) && w.isSet q) := by
  have hq : q % pnReplayWindow % windowWordBits < windowWordBits := Nat.mod_lt _ (by decide)
  have hmask : (bitPosition pn).2.getLsbD (q % pnReplayWindow % windowWordBits) = _ :=
    getLsbD_one_shiftLeft hq
  rw [clearBit, isSet_update, BitVec.getLsbD_and, BitVec.getLsbD_not, hmask]
  simp only [← bitPosition_eq_iff]
  by_cases hw : (bitPosition pn).1 = (bitPosition q).1
  · simp only [hw, ↓reduceIte, true_and, isSet_eq, decide_eq_true hq, Bool.true_and]
    exact Bool.and_comm _ _
  · simp [hw]

theorem isSet_clearRange (w : ReplayWindow) (start len q : Nat) :
    ((List.range' start len).foldl clearBit w).isSet q = true ↔
      w.isSet q = true ∧
        ∀ p, start ≤ p → p < start + len → p % pnReplayWindow ≠ q % pnReplayWindow := by
  induction len generalizing start w with
  | zero => simp; omega
  | succ len ih =>
    rw [List.range'_succ, List.foldl_cons, ih, isSet_clearBit, Bool.and_eq_true,
      Bool.not_eq_true', decide_eq_false_iff_not]
    constructor
    · rintro ⟨⟨hhead, hset⟩, htail⟩
      refine ⟨hset, fun p hlow hhigh => ?_⟩
      rcases Nat.eq_or_lt_of_le hlow with rfl | hlt
      · exact hhead
      · exact htail p hlt (by omega)
    · rintro ⟨hset, hall⟩
      exact ⟨⟨hall start (le_refl _) (by omega), hset⟩,
        fun p hlow hhigh => hall p (by omega) (by omega)⟩

theorem isSet_fillZero (w : ReplayWindow) (q : Nat) : w.fillZero.isSet q = false := by
  rw [isSet_eq]
  simp [fillZero]

/-! ## The set of accepted numbers -/

/-- The window stands for the set of accepted numbers: it knows the largest,
and a bit is set exactly when an accepted number with that place in the
bitmap is less than one window below the largest. -/
structure Tracks (w : ReplayWindow) (accepted : Set Nat) : Prop where
  none_iff : w.largestPn = none ↔ accepted = ∅
  mem_largest : ∀ {m}, w.largestPn = some m → m ∈ accepted
  le_largest : ∀ {m}, w.largestPn = some m → ∀ q ∈ accepted, q ≤ m
  isSet_iff : ∀ {m}, w.largestPn = some m → ∀ q, w.isSet q = true ↔
    ∃ p ∈ accepted, p % pnReplayWindow = q % pnReplayWindow ∧ m < p + pnReplayWindow

theorem tracks_new (initialExpected : Nat) : Tracks (new initialExpected) ∅ where
  none_iff := by simp [new]
  mem_largest := by simp [new]
  le_largest := by simp [new]
  isSet_iff := by simp [new]

/-- What the unbounded set of accepted numbers answers: with nothing accepted,
a number from `initialExpected` on is new; otherwise a number is new if it is
above the largest, or less than a window below it and not accepted yet. -/
def Fresh (w : ReplayWindow) (accepted : Set Nat) (pn : Nat) : Prop :=
  match w.largestPn with
  | none => w.initialExpected ≤ pn
  | some largest => largest < pn ∨ (largest < pn + pnReplayWindow ∧ pn ∉ accepted)

section

variable {w : ReplayWindow} {accepted : Set Nat} (h : Tracks w accepted)
include h

theorem Tracks.isSet_of_window {m q : Nat} (hm : w.largestPn = some m) (hq : q ≤ m)
    (hwin : m < q + pnReplayWindow) :
    w.isSet q = true ↔ q ∈ accepted := by
  rw [h.isSet_iff hm]
  constructor
  · rintro ⟨p, hp, hmod, hlt⟩
    have hle := h.le_largest hm p hp
    have hpq : p = q := by
      unfold pnReplayWindow at *
      omega
    exact hpq ▸ hp
  · intro hq
    exact ⟨q, hq, rfl, hwin⟩

theorem Tracks.not_mem_of_fresh {pn : Nat} (hfresh : Fresh w accepted pn) : pn ∉ accepted := by
  unfold Fresh at hfresh
  cases hm : w.largestPn with
  | none =>
    rw [h.none_iff.mp hm]
    exact Set.notMem_empty _
  | some m =>
    rw [hm] at hfresh
    rcases hfresh with hlt | ⟨-, hnew⟩
    · intro hpn
      have := h.le_largest hm pn hpn
      omega
    · exact hnew

/-- A number that is not new is refused and the window stays as it is. -/
theorem checkAndUpdate_of_not_fresh {pn : Nat} (hfresh : ¬Fresh w accepted pn) :
    ∃ e, w.checkAndUpdate pn = (.error e, w) := by
  unfold Fresh at hfresh
  unfold checkAndUpdate
  cases hm : w.largestPn with
  | none =>
    simp only [hm, Nat.not_le] at hfresh
    simp [hfresh]
  | some m =>
    simp only [hm, not_or, Nat.not_lt, not_and, not_not] at hfresh
    obtain ⟨hle, hold⟩ := hfresh
    by_cases hfar : m - pn ≥ pnReplayWindow
    · simp [Nat.not_lt.mpr hle, hfar]
    · have hset : w.isSet pn = true := by
        have hwin : m < pn + pnReplayWindow := by omega
        exact (h.isSet_of_window hm hle hwin).mpr (hold hwin)
      simp [Nat.not_lt.mpr hle, hfar, hset]

end

/-- The bitmap after `pn` is set over a bitmap that holds the accepted numbers
less than a window below the new largest number `m`. -/
theorem isSet_setBit_iff {w : ReplayWindow} {accepted : Set Nat} {m pn : Nat}
    (hw : ∀ q, w.isSet q = true ↔
      ∃ p ∈ accepted, p % pnReplayWindow = q % pnReplayWindow ∧ m < p + pnReplayWindow)
    (hpn : m < pn + pnReplayWindow) (q : Nat) :
    (w.setBit pn).isSet q = true ↔
      ∃ p ∈ insert pn accepted, p % pnReplayWindow = q % pnReplayWindow ∧
        m < p + pnReplayWindow := by
  rw [isSet_setBit, Bool.or_eq_true, decide_eq_true_eq, hw]
  constructor
  · rintro (hmod | ⟨p, hp, hrest⟩)
    · exact ⟨pn, Set.mem_insert _ _, hmod, hpn⟩
    · exact ⟨p, Set.mem_insert_of_mem _ hp, hrest⟩
  · rintro ⟨p, rfl | hp, hrest⟩
    · exact .inl hrest.1
    · exact .inr ⟨p, hp, hrest⟩

/-- The bitmap that `checkAndUpdate` prepares for a number above the largest. -/
def advance (w : ReplayWindow) (largest pn : Nat) : ReplayWindow :=
  if pn - largest ≥ pnReplayWindow then w.fillZero
  else if pn - (pnReplayWindow - 1) > largest - (pnReplayWindow - 1) then
    (List.range' (largest - (pnReplayWindow - 1))
      (pn - (pnReplayWindow - 1) - (largest - (pnReplayWindow - 1)))).foldl clearBit w
  else w

theorem initialExpected_advance (w : ReplayWindow) (largest pn : Nat) :
    (w.advance largest pn).initialExpected = w.initialExpected := by
  have hclear : ∀ (ps : List Nat) (v : ReplayWindow),
      (ps.foldl clearBit v).initialExpected = v.initialExpected := by
    intro ps
    induction ps with
    | nil => intro v; rfl
    | cons p ps ih => intro v; exact ih _
  unfold advance
  split_ifs
  · rfl
  · exact hclear _ _
  · rfl

theorem Tracks.isSet_advance {w : ReplayWindow} {accepted : Set Nat} (h : Tracks w accepted)
    {m pn : Nat} (hm : w.largestPn = some m) (hlt : m < pn) (q : Nat) :
    (w.advance m pn).isSet q = true ↔
      ∃ p ∈ accepted, p % pnReplayWindow = q % pnReplayWindow ∧ pn < p + pnReplayWindow := by
  have hle := h.le_largest hm
  unfold advance
  split_ifs with hfar hmove
  · -- The whole window lies below the new one.
    rw [isSet_fillZero]
    simp only [Bool.false_eq_true, false_iff, not_exists, not_and, Nat.not_lt]
    intro p hp _
    have := hle p hp
    omega
  · rw [isSet_clearRange, h.isSet_iff hm]
    constructor
    · rintro ⟨⟨p, hp, hmod, hwin⟩, hclear⟩
      refine ⟨p, hp, hmod, ?_⟩
      by_contra hout
      refine hclear p ?_ ?_ hmod <;> unfold pnReplayWindow at * <;> omega
    · rintro ⟨p, hp, hmod, hwin⟩
      have hpm := hle p hp
      refine ⟨⟨p, hp, hmod, by omega⟩, fun r hlow hhigh hr => ?_⟩
      -- Two numbers of one window with the same place are equal.
      have hpr : p % pnReplayWindow = r % pnReplayWindow := hmod.trans hr.symm
      unfold pnReplayWindow at *
      omega
  · -- Below `1024` the window does not move: no accepted number drops out.
    rw [h.isSet_iff hm]
    have hlow : pn < pnReplayWindow := by
      unfold pnReplayWindow at *
      omega
    constructor
    · rintro ⟨p, hp, hmod, _⟩
      exact ⟨p, hp, hmod, by omega⟩
    · rintro ⟨p, hp, hmod, _⟩
      exact ⟨p, hp, hmod, by omega⟩

theorem checkAndUpdate_none {w : ReplayWindow} {pn : Nat} (hm : w.largestPn = none)
    (hpn : w.initialExpected ≤ pn) :
    w.checkAndUpdate pn = (.ok (), setBit { w.fillZero with largestPn := some pn } pn) := by
  simp [checkAndUpdate, hm, Nat.not_lt.mpr hpn]

theorem checkAndUpdate_above {w : ReplayWindow} {m pn : Nat} (hm : w.largestPn = some m)
    (hlt : m < pn) :
    w.checkAndUpdate pn = (.ok (), setBit { w.advance m pn with largestPn := some pn } pn) := by
  simp only [checkAndUpdate, hm, gt_iff_lt, hlt, ↓reduceIte, advance]

theorem checkAndUpdate_within {w : ReplayWindow} {m pn : Nat} (hm : w.largestPn = some m)
    (hle : pn ≤ m) (hwin : m < pn + pnReplayWindow) (hset : w.isSet pn = false) :
    w.checkAndUpdate pn = (.ok (), w.setBit pn) := by
  have hnear : ¬(m - pn ≥ pnReplayWindow) := by omega
  simp [checkAndUpdate, hm, Nat.not_lt.mpr hle, hnear, hset]

/-- A new number is accepted and joins the set; the largest number becomes the
larger of the two. -/
theorem checkAndUpdate_of_fresh {w : ReplayWindow} {accepted : Set Nat} (h : Tracks w accepted)
    {pn : Nat} (hfresh : Fresh w accepted pn) :
    ∃ w', w.checkAndUpdate pn = (.ok (), w') ∧ Tracks w' (insert pn accepted) ∧
      w'.initialExpected = w.initialExpected ∧
      w'.largestPn = some (match w.largestPn with | none => pn | some m => max m pn) := by
  unfold Fresh at hfresh
  cases hm : w.largestPn with
  -- The first number: the window is cleared and holds that bit alone.
  | none =>
    simp only [hm] at hfresh
    have hempty := h.none_iff.mp hm
    refine ⟨_, checkAndUpdate_none hm hfresh, ?_, rfl, rfl⟩
    subst hempty
    refine ⟨by simp, by simp, by simp, ?_⟩
    rintro m ⟨⟩
    refine isSet_setBit_iff (fun q => ?_) (by unfold pnReplayWindow; omega)
    simp [isSet_fillZero]
  | some m =>
    simp only [hm] at hfresh
    have hle := h.le_largest hm
    -- Above the largest number the window moves; below it only a bit is set.
    by_cases hlt : m < pn
    · refine ⟨_, checkAndUpdate_above hm hlt, ?_, initialExpected_advance .., by simp; omega⟩
      refine ⟨by simp [Set.insert_nonempty, ← Set.nonempty_iff_ne_empty], by simp, ?_, ?_⟩
      · rintro k ⟨⟩ q (rfl | hq)
        · exact le_refl _
        · have := hle q hq
          omega
      · rintro k ⟨⟩
        exact isSet_setBit_iff (h.isSet_advance hm hlt) (by unfold pnReplayWindow; omega)
    · rcases hfresh with hlt' | ⟨hwin, hnew⟩
      · exact absurd hlt' hlt
      have hpm : pn ≤ m := Nat.le_of_not_lt hlt
      have hset : w.isSet pn = false := by
        rw [← Bool.not_eq_true, h.isSet_of_window hm hpm hwin]
        exact hnew
      refine ⟨_, checkAndUpdate_within hm hpm hwin hset, ?_, rfl, by simp [hm, hpm]⟩
      refine ⟨by simp [hm, Set.insert_nonempty, ← Set.nonempty_iff_ne_empty], ?_, ?_, ?_⟩
      · intro k hk
        exact Set.mem_insert_of_mem _ (h.mem_largest hk)
      · rintro k hk q (rfl | hq)
        · rw [largestPn_setBit, hm, Option.some.injEq] at hk
          omega
        · exact h.le_largest hk q hq
      · intro k hk
        rw [largestPn_setBit, hm, Option.some.injEq] at hk
        subst hk
        exact isSet_setBit_iff (h.isSet_iff hm) hwin

end ReplayWindow

end Slt.Crypto
