import Mathlib.Data.List.Basic
import Mathlib.Data.List.Infix

/-!
# Decisions on the start of a stream

A reader that sees only the start of a stream may have to wait before it can
decide. `need` asks for so many elements; a decision made of such questions is
`Stable`: what comes later does not change it.
-/

namespace Slt.Lib

variable {α β : Type*}

/-- Goes on with the first `n` elements once they are there. -/
def need (n : Nat) (seen : List α) (next : List α → Option β) : Option β :=
  if n ≤ seen.length then next (seen.take n) else none

theorem need_of_le {n : Nat} {seen : List α} (h : n ≤ seen.length) (next : List α → Option β) :
    need n seen next = next (seen.take n) := if_pos h

theorem need_of_lt {n : Nat} {seen : List α} (h : seen.length < n) (next : List α → Option β) :
    need n seen next = none := if_neg (Nat.not_le.mpr h)

theorem need_eq_some {n : Nat} {seen : List α} {next : List α → Option β} {v : β} :
    need n seen next = some v ↔ n ≤ seen.length ∧ next (seen.take n) = some v := by
  unfold need
  split
  · rename_i h
    exact ⟨fun hv => ⟨h, hv⟩, And.right⟩
  · rename_i h
    exact ⟨fun hv => (nomatch hv), fun hv => absurd hv.1 h⟩

theorem need_need {m n : Nat} (h : m ≤ n) (seen : List α) (next : List α → Option β) :
    (need m seen fun _ => need n seen next) = need n seen next := by
  by_cases hle : m ≤ seen.length
  · rw [need_of_le hle]
  · rw [need_of_lt (Nat.not_le.mp hle), need_of_lt (Nat.lt_of_lt_of_le (Nat.not_le.mp hle) h)]

def Stable (f : List α → Option β) : Prop :=
  ∀ ⦃p q : List α⦄, p <+: q → ∀ v, f p = some v → f q = some v

namespace Stable

theorem const (v : Option β) : Stable fun _ : List α => v := fun _ _ _ _ h => h

theorem need {n : Nat} {next : List α → List α → Option β} (h : ∀ start, Stable (next start)) :
    Stable fun seen => need n seen fun start => next start seen := by
  intro p q hpq v hv
  obtain ⟨hle, hnext⟩ := need_eq_some.mp hv
  have htake : q.take n = p.take n := by
    obtain ⟨more, rfl⟩ := hpq
    exact List.take_append_of_le_length hle
  refine need_eq_some.mpr ⟨hle.trans hpq.length_le, ?_⟩
  rw [htake]
  exact h _ hpq v hnext

theorem ite {c : Prop} [Decidable c] {f g : List α → Option β} (hf : Stable f) (hg : Stable g) :
    Stable fun seen => if c then f seen else g seen := by
  intro p q hpq v hv
  by_cases hc : c
  · simp only [if_pos hc] at hv ⊢
    exact hf hpq v hv
  · simp only [if_neg hc] at hv ⊢
    exact hg hpq v hv

end Stable

end Slt.Lib
