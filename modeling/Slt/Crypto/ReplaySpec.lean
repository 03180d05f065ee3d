import Slt.Crypto.ReplayWindow
import Mathlib.Data.Finset.Max

/-!
# The replay window against its unbounded specification

The specification remembers the set of all accepted numbers and has no bitmap
to clear. The window answers every sequence of calls as the specification
does.
-/

namespace Slt.Crypto

open Lib.U64

/-- What the window is for, with an unbounded memory. -/
structure ReplaySpec where
  initialExpected : Nat
  accepted : Finset Nat

namespace ReplaySpec

def new (initialExpected : Nat) : ReplaySpec := ⟨initialExpected, ∅⟩

def answer (self : ReplaySpec) (pn : Nat) : Except ReplayError Unit :=
  if h : self.accepted.Nonempty then
    let m := self.accepted.max' h
    if m < pn then .ok ()
    else if 1024 ≤ m - pn then .error .tooOld
    else if pn ∈ self.accepted then .error .replay
    else .ok ()
  else if self.initialExpected ≤ pn then .ok ()
  else .error .tooOld

def checkAndUpdate (self : ReplaySpec) (pn : Nat) : Except ReplayError Unit × ReplaySpec :=
  match self.answer pn with
  | .ok () => (.ok (), { self with accepted := insert pn self.accepted })
  | .error e => (.error e, self)

end ReplaySpec

def checkAll {W : Type} (check : W → Nat → Except ReplayError Unit × W) (w : W) :
    List Nat → List (Except ReplayError Unit) × W
  | [] => ([], w)
  | pn :: pns =>
    let (answer, w) := check w pn
    let (answers, w) := checkAll check w pns
    (answer :: answers, w)

namespace ReplayWindow

/-- The window stands for the specification's state. -/
structure Implements (w : ReplayWindow) (spec : ReplaySpec) : Prop where
  initial : w.initialExpected = spec.initialExpected
  tracks : w.Tracks spec.accepted

theorem implements_new (initialExpected : Nat) :
    Implements (new initialExpected) (ReplaySpec.new initialExpected) where
  initial := rfl
  tracks := by
    rw [ReplaySpec.new, Finset.coe_empty]
    exact tracks_new initialExpected

section
variable {w : ReplayWindow} {spec : ReplaySpec}

variable (h : w.Implements spec)
include h

theorem Implements.largestPn_eq_none : w.largestPn = none ↔ spec.accepted = ∅ := by
  rw [h.tracks.none_iff, Finset.coe_eq_empty]

theorem Implements.largestPn_eq_some {m : Nat} :
    w.largestPn = some m ↔ IsGreatest (spec.accepted : Set Nat) m := by
  constructor
  · intro hm
    exact ⟨h.tracks.mem_largest hm, h.tracks.le_largest hm⟩
  · intro hm
    cases hw : w.largestPn with
    | none =>
      have hempty := h.tracks.none_iff.mp hw
      exact absurd hm.1 (hempty ▸ Set.notMem_empty m)
    | some k =>
      have hk : IsGreatest (spec.accepted : Set Nat) k :=
        ⟨h.tracks.mem_largest hw, h.tracks.le_largest hw⟩
      rw [hk.unique hm]

theorem Implements.answer_of_none (hw : w.largestPn = none) (pn : Nat) :
    spec.answer pn = if w.initialExpected ≤ pn then .ok () else .error .tooOld := by
  have hempty : ¬spec.accepted.Nonempty := by
    rw [Finset.not_nonempty_iff_eq_empty, ← h.largestPn_eq_none, hw]
  simp only [ReplaySpec.answer, hempty, ↓reduceDIte, h.initial]

theorem Implements.answer_of_some {m : Nat} (hw : w.largestPn = some m) (pn : Nat) :
    spec.answer pn =
      if m < pn then .ok ()
      else if pnReplayWindow ≤ m - pn then .error .tooOld
      else if pn ∈ spec.accepted then .error .replay
      else .ok () := by
  have hgreatest := h.largestPn_eq_some.mp hw
  have hne : spec.accepted.Nonempty := ⟨m, hgreatest.1⟩
  have hmax : spec.accepted.max' hne = m :=
    (spec.accepted.isGreatest_max' hne).unique hgreatest
  simp only [ReplaySpec.answer, hne, ↓reduceDIte, hmax]
  rfl

theorem Implements.answer_eq (pn : Nat) : (w.checkAndUpdate pn).1 = spec.answer pn := by
  cases hw : w.largestPn with
  | none =>
    rw [h.answer_of_none hw]
    by_cases hpn : w.initialExpected ≤ pn
    · rw [checkAndUpdate_none hw hpn, if_pos hpn]
    · simp [checkAndUpdate, hw, hpn, Nat.lt_of_not_le hpn]
  | some m =>
    rw [h.answer_of_some hw]
    by_cases hlt : m < pn
    · rw [checkAndUpdate_above hw hlt, if_pos hlt]
    · by_cases hfar : pnReplayWindow ≤ m - pn
      · simp [checkAndUpdate, hw, hlt, hfar]
      · have hset := h.tracks.isSet_of_window hw (Nat.le_of_not_lt hlt) (by omega)
        rw [Finset.mem_coe] at hset
        by_cases hmem : pn ∈ spec.accepted
        · simp [checkAndUpdate, hw, hlt, hfar, hmem, hset.mpr hmem]
        · have hclear : w.isSet pn = false := by rw [← Bool.not_eq_true, hset]; exact hmem
          simp [checkAndUpdate, hw, hlt, hfar, hmem, hclear]

theorem Implements.fresh_iff (pn : Nat) : w.Fresh spec.accepted pn ↔ spec.answer pn = .ok () := by
  rw [← h.answer_eq]
  constructor
  · intro hfresh
    obtain ⟨w', hcheck, -⟩ := checkAndUpdate_of_fresh h.tracks hfresh
    rw [hcheck]
  · intro hok
    by_contra hfresh
    obtain ⟨e, hcheck⟩ := checkAndUpdate_of_not_fresh h.tracks hfresh
    rw [hcheck] at hok
    cases hok

theorem Implements.step (pn : Nat) :
    (w.checkAndUpdate pn).1 = (spec.checkAndUpdate pn).1 ∧
      (w.checkAndUpdate pn).2.Implements (spec.checkAndUpdate pn).2 := by
  have hanswer := h.answer_eq pn
  cases hspec : spec.answer pn with
  | ok u =>
    obtain ⟨w', hcheck, htracks, hinit, -⟩ :=
      checkAndUpdate_of_fresh h.tracks ((h.fresh_iff pn).mpr hspec)
    rw [hcheck]
    simp only [ReplaySpec.checkAndUpdate, hspec]
    refine ⟨trivial, hinit.trans h.initial, ?_⟩
    rw [Finset.coe_insert]
    exact htracks
  | error e =>
    simp only [ReplaySpec.checkAndUpdate, hspec]
    rw [hspec] at hanswer
    have hw : (w.checkAndUpdate pn).2 = w := checkAndUpdate_error (Prod.ext hanswer rfl)
    rw [hw]
    exact ⟨hanswer, h⟩

theorem Implements.checkAll (pns : List Nat) :
    (checkAll checkAndUpdate w pns).1 = (checkAll ReplaySpec.checkAndUpdate spec pns).1 ∧
      (checkAll checkAndUpdate w pns).2.Implements
        (checkAll ReplaySpec.checkAndUpdate spec pns).2 := by
  induction pns generalizing w spec with
  | nil => exact ⟨rfl, h⟩
  | cons pn pns ih =>
    obtain ⟨hanswer, hnext⟩ := h.step pn
    obtain ⟨hanswers, hlast⟩ := ih hnext
    simp only [Crypto.checkAll, hanswer, hanswers]
    exact ⟨trivial, hlast⟩

theorem Implements.expectedPn_eq {m : Nat} (hm : IsGreatest (spec.accepted : Set Nat) m) :
    w.expectedPn = min (m + 1) (2 ^ 64 - 1) := by
  rw [expectedPn, h.largestPn_eq_some.mpr hm]
  rfl

end

/-- The window answers every sequence of calls as the specification that
remembers all accepted numbers. After it the window's largest number is the
largest accepted one, the expected number is the one after it, saturating, and
a further call that is refused leaves the window as it is. -/
theorem replay_window_implements_spec (initialExpected : Nat) (pns : List Nat) :
    (checkAll checkAndUpdate (new initialExpected) pns).1 =
        (checkAll ReplaySpec.checkAndUpdate (.new initialExpected) pns).1 ∧
      let w := (checkAll checkAndUpdate (new initialExpected) pns).2
      let spec := (checkAll ReplaySpec.checkAndUpdate (.new initialExpected) pns).2
      (w.largestPn = none ↔ spec.accepted = ∅) ∧
      (∀ m, w.largestPn = some m ↔ IsGreatest (spec.accepted : Set Nat) m) ∧
      (∀ m, IsGreatest (spec.accepted : Set Nat) m → w.expectedPn = min (m + 1) (2 ^ 64 - 1)) ∧
      ∀ pn e w', w.checkAndUpdate pn = (.error e, w') → w' = w := by
  obtain ⟨hanswers, himpl⟩ := (implements_new initialExpected).checkAll pns
  exact ⟨hanswers, himpl.largestPn_eq_none, fun _ => himpl.largestPn_eq_some,
    fun _ hm => himpl.expectedPn_eq hm, fun _ _ _ h => checkAndUpdate_error h⟩

/-- A jump of one window forgets the start; the number after it is still new. -/
example : (checkAll checkAndUpdate (new 0) [0, 1024, 0, 1, 1, 1024]).1 =
    [.ok (), .ok (), .error .tooOld, .ok (), .error .replay, .error .replay] := by
  decide +kernel

end ReplayWindow

end Slt.Crypto
