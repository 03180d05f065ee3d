import Mathlib.Data.Nat.Bitwise
import Mathlib.Tactic.Ring

/-!
# 64-bit unsigned arithmetic on natural numbers

A `u64` is a natural number below `2 ^ 64`; the operations that can leave the
range say what they do there.
-/

namespace Slt.Lib.U64

def checkedAdd (a b : Nat) : Option Nat := if a + b < 2 ^ 64 then some (a + b) else none

def saturatingAdd (a b : Nat) : Nat := min (a + b) (2 ^ 64 - 1)

def absDiff (a b : Nat) : Nat := if a < b then b - a else a - b

theorem checkedAdd_eq_some {a b c : Nat} :
    checkedAdd a b = some c ↔ c = a + b ∧ a + b < 2 ^ 64 := by
  unfold checkedAdd
  split <;> simp <;> omega

theorem checkedAdd_eq_none {a b : Nat} : checkedAdd a b = none ↔ 2 ^ 64 ≤ a + b := by
  unfold checkedAdd
  split <;> simp <;> omega

theorem saturatingAdd_of_lt {a b : Nat} (h : a + b < 2 ^ 64) : saturatingAdd a b = a + b := by
  unfold saturatingAdd
  omega

theorem ofNat_inj {i j n : Nat} (hfew : n ≤ 2 ^ 64) (hi : i < n) (hj : j < n)
    (h : UInt64.ofNat i = UInt64.ofNat j) : i = j := by
  have hnat := congrArg UInt64.toNat h
  rwa [UInt64.toNat_ofNat_of_lt' (Nat.lt_of_lt_of_le hi hfew),
    UInt64.toNat_ofNat_of_lt' (Nat.lt_of_lt_of_le hj hfew)] at hnat

def complement (a : Nat) : Nat := 2 ^ 64 - 1 - a

theorem testBit_complement {a : Nat} (ha : a < 2 ^ 64) (i : Nat) :
    (complement a).testBit i = (decide (i < 64) && !a.testBit i) := by
  rw [complement, Nat.sub_sub, Nat.add_comm 1 a]
  exact Nat.testBit_two_pow_sub_succ ha i

/-- Masking out the low `k` bits rounds down to a multiple of `2 ^ k`. -/
theorem land_complement_mask {e k : Nat} (he : e < 2 ^ 64) (hk : k ≤ 64) :
    e &&& complement (2 ^ k - 1) = 2 ^ k * (e / 2 ^ k) := by
  have hmask : 2 ^ k - 1 < 2 ^ 64 := by
    have := Nat.pow_le_pow_right (n := 2) (by omega) hk
    have := Nat.two_pow_pos k
    omega
  apply Nat.eq_of_testBit_eq
  intro i
  rw [Nat.testBit_and, testBit_complement hmask, Nat.testBit_two_pow_sub_one, Nat.testBit_two_pow_mul,
    Nat.testBit_div_two_pow]
  by_cases hik : k ≤ i
  · by_cases hi : i < 64
    · simp [hik, hi, Nat.not_lt.mpr hik]
    · -- Above bit 63 both sides are clear.
      have hbig : e.testBit i = false :=
        Nat.testBit_lt_two_pow (Nat.lt_of_lt_of_le he (Nat.pow_le_pow_right (by omega) (by omega)))
      simp [hik, hi, hbig]
  · simp [hik, Nat.lt_of_not_le hik]

theorem land_complement_mask_lor {e t k : Nat} (he : e < 2 ^ 64) (hk : k ≤ 64) (ht : t < 2 ^ k) :
    e &&& complement (2 ^ k - 1) ||| t = 2 ^ k * (e / 2 ^ k) + t := by
  rw [land_complement_mask he hk]
  exact (Nat.two_pow_add_eq_or_of_lt ht _).symm

end Slt.Lib.U64
