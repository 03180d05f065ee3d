import Slt.Crypto.Session

/-!
# Key generations

A direction that starts at packet number `start` moves to its next key
generation at every multiple of the rekey interval above `start`. The
generation of a packet number is the number of such multiples up to it.
-/

namespace Slt.Crypto

open Lib.U64

def generationOf (start pn : Nat) : Nat := pn / keyUpdateInterval - start / keyUpdateInterval

/-- The packet number at which generation `g` starts, for `0 < g`; a lower
bound of the numbers of generation `0`. -/
def generationStart (start g : Nat) : Nat := (start / keyUpdateInterval + g) * keyUpdateInterval

/-- The threshold stored while generation `g` is in use: none past the end of
the packet number space. -/
def rekeyThreshold (start g : Nat) : Option Nat :=
  if generationStart start (g + 1) < 2 ^ 64 then some (generationStart start (g + 1)) else none

/-- The keys of generation `g`: the first ones after `g` key updates. -/
def generationKeys (boring : Boring) (cipher : CipherSuite) (first : DirectionKeys) (g : Nat) :
    DirectionKeys :=
  (DirectionKeys.next boring cipher)^[g] first

def generationPhase (first : Bool) (g : Nat) : Bool := first ^^ decide (g % 2 = 1)

theorem keyUpdateInterval_pos : 0 < keyUpdateInterval := by decide

theorem generationStart_succ (start g : Nat) :
    generationStart start (g + 1) = generationStart start g + keyUpdateInterval := by
  unfold generationStart
  ring

theorem generationStart_zero_le (start : Nat) : generationStart start 0 ≤ start :=
  Nat.div_mul_le_self _ _

theorem generationStart_le_of_le {start g h : Nat} (hle : g ≤ h) :
    generationStart start g ≤ generationStart start h :=
  Nat.mul_le_mul_right _ (by omega)

theorem lt_generationStart_one (start : Nat) : start < generationStart start 1 :=
  (Nat.div_lt_iff_lt_mul keyUpdateInterval_pos).mp (Nat.lt_succ_self _)

/-- A number belongs to generation `g` exactly when it lies between the starts
of `g` and of the next one. -/
theorem generationOf_eq_iff {start pn g : Nat} (h : start ≤ pn) :
    generationOf start pn = g ↔
      generationStart start g ≤ pn ∧ pn < generationStart start (g + 1) := by
  have hdiv := Nat.div_le_div_right (c := keyUpdateInterval) h
  have hlow := Nat.le_div_iff_mul_le keyUpdateInterval_pos
    (x := start / keyUpdateInterval + g) (y := pn)
  have hhigh := Nat.div_lt_iff_lt_mul keyUpdateInterval_pos
    (x := pn) (y := start / keyUpdateInterval + (g + 1))
  unfold generationOf generationStart
  omega

theorem generationKeys_succ (boring : Boring) (cipher : CipherSuite) (first : DirectionKeys)
    (g : Nat) :
    generationKeys boring cipher first (g + 1) =
      (generationKeys boring cipher first g).next boring cipher :=
  Function.iterate_succ_apply' _ _ _

@[simp] theorem hp_generationKeys (boring : Boring) (cipher : CipherSuite) (first : DirectionKeys)
    (g : Nat) : (generationKeys boring cipher first g).hp = first.hp := by
  induction g with
  | zero => rfl
  | succ g ih => rw [generationKeys_succ, ← ih]; rfl

@[simp] theorem generationPhase_zero (first : Bool) : generationPhase first 0 = first := by
  simp [generationPhase]

theorem generationPhase_succ (first : Bool) (g : Nat) :
    generationPhase first (g + 1) = !generationPhase first g := by
  unfold generationPhase
  rcases Nat.mod_two_eq_zero_or_one g with h | h <;> cases first <;> simp [Nat.add_mod, h]

theorem nextRekeyAfter_start (start : Nat) :
    nextRekeyAfter start keyUpdateInterval = rekeyThreshold start 0 := by
  have hpos := keyUpdateInterval_pos
  have hdm := Nat.div_add_mod start keyUpdateInterval
  have hmod := Nat.mod_lt start hpos
  have hstep : start + (if start % keyUpdateInterval = 0 then keyUpdateInterval
      else keyUpdateInterval - start % keyUpdateInterval) = generationStart start (0 + 1) := by
    rw [generationStart, Nat.zero_add, Nat.add_mul, Nat.mul_comm (start / _), Nat.one_mul]
    split_ifs <;> omega
  rw [nextRekeyAfter, if_neg hpos.ne', rekeyThreshold, ← hstep]
  rfl

theorem nextRekeyAfter_generationStart (start g : Nat) :
    nextRekeyAfter (generationStart start g) keyUpdateInterval = rekeyThreshold start g := by
  have hmod : generationStart start g % keyUpdateInterval = 0 := Nat.mul_mod_left _ _
  rw [nextRekeyAfter, if_neg keyUpdateInterval_pos.ne']
  simp only [hmod, ↓reduceIte, rekeyThreshold, generationStart_succ]
  rfl

theorem rekeyThreshold_eq_some {start g threshold : Nat} :
    rekeyThreshold start g = some threshold ↔
      threshold = generationStart start (g + 1) ∧ threshold < 2 ^ 64 := by
  unfold rekeyThreshold
  split_ifs <;> simp <;> omega

theorem generationOf_mono (start : Nat) {m n : Nat} (h : m ≤ n) :
    generationOf start m ≤ generationOf start n :=
  Nat.sub_le_sub_right (Nat.div_le_div_right h) _

/-- A generation that starts within the packet number space lies within it. -/
theorem generationStart_add_interval_le {start g : Nat} (h : generationStart start g < 2 ^ 64) :
    generationStart start g + keyUpdateInterval ≤ 2 ^ 64 := by
  have hspace : (2 : Nat) ^ 64 = 2 ^ 43 * keyUpdateInterval := by decide
  rw [hspace] at h ⊢
  have hlt := Nat.lt_of_mul_lt_mul_right h
  calc generationStart start g + keyUpdateInterval
      = (start / keyUpdateInterval + g + 1) * keyUpdateInterval := by unfold generationStart; ring
    _ ≤ 2 ^ 43 * keyUpdateInterval := Nat.mul_le_mul_right _ hlt

end Slt.Crypto
