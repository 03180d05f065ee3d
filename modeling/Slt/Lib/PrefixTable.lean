import Mathlib.Logic.Function.Basic

/-!
# Longest prefix match

A table gives actions to networks by the length of their prefix. An address is
looked up under its own prefixes, the longest first. An entry whose next shorter
prefix already has the same action can be left out.
-/

namespace Slt.Lib

variable {A β : Type}

/-- The value at the greatest index below the bound that has one. -/
def greatest (f : Nat → Option β) : Nat → Option β
  | 0 => none
  | k + 1 => (f k).or (greatest f k)

theorem greatest_congr {f g : Nat → Option β} {k : Nat} (h : ∀ j < k, f j = g j) :
    greatest f k = greatest g k := by
  induction k with
  | zero => rfl
  | succ k ih => rw [greatest, greatest, h k k.lt_succ_self, ih fun j hj => h j (by omega)]

theorem greatest_of_some {f : Nat → Option β} {k bound : Nat} {x : β} (hk : k < bound)
    (hx : f k = some x) (hgreater : ∀ j, k < j → j < bound → f j = none) :
    greatest f bound = some x := by
  induction bound with
  | zero => omega
  | succ bound ih =>
    by_cases hlast : k = bound
    · subst hlast
      rw [greatest, hx, Option.some_or]
    · rw [greatest, hgreater bound (by omega) (by omega), Option.none_or]
      exact ih (by omega) fun j hj hlt => hgreater j hj (by omega)

theorem greatest_map {γ : Type} (g : β → γ) (f : Nat → Option β) (k : Nat) :
    greatest (fun j => (f j).map g) k = (greatest f k).map g := by
  induction k with
  | zero => rfl
  | succ k ih => rw [greatest, greatest, ih, Option.map_or]

/-- The first `k` bits of an address, for every `k`. -/
structure Masking (A : Type) where
  mask : A → Nat → A
  mask_mask : ∀ a j k, j ≤ k → mask (mask a k) j = mask a j

abbrev PrefixTable (A β : Type) := Nat → A → Option β

namespace PrefixTable

variable (M : Masking A)

/-- The action of the longest prefix of `a` among those shorter than the bound. -/
def nearest (t : PrefixTable A β) (a : A) : Nat → Option β :=
  greatest fun k => t k (M.mask a k)

/-- Without the entries that say what a shorter prefix says already. -/
def reduce [DecidableEq β] (t : PrefixTable A β) : PrefixTable A β := fun k n =>
  if nearest M t n k = t k n then none else t k n

variable {M} {t : PrefixTable A β} {a : A}

theorem nearest_succ (k : Nat) :
    nearest M t a (k + 1) = (t k (M.mask a k)).or (nearest M t a k) := rfl

/-- Below its own length a prefix of an address is looked up like the address. -/
theorem nearest_mask {j k : Nat} (hjk : j ≤ k) : nearest M t (M.mask a k) j = nearest M t a j :=
  greatest_congr fun i hi => by rw [M.mask_mask a i k (by omega)]

theorem nearest_reduce [DecidableEq β] (k : Nat) :
    nearest M (reduce M t) a k = nearest M t a k := by
  induction k with
  | zero => rfl
  | succ k ih =>
    rw [nearest_succ, nearest_succ, ih, reduce, nearest_mask (Nat.le_refl k)]
    split
    · -- an entry that is left out says what the next shorter prefix says
      rename_i hsame
      rw [← hsame, Option.none_or, Option.or_self]
    · rfl

end PrefixTable

end Slt.Lib
