import Mathlib.Data.List.Basic

/-!
# Lists as tables of numbered entries

New entries go to the end and keep their number, and one entry at a time is
changed in place.
-/

namespace Slt.Lib

variable {α β : Type}

theorem getElem?_modify_eq_some {l : List α} {i j : Nat} {f : α → α} {b : α} :
    (l.modify i f)[j]? = some b ↔ ∃ a, l[j]? = some a ∧ b = if i = j then f a else a := by
  rw [List.getElem?_modify]
  cases l[j]? <;> simp [eq_comm]

theorem map_modify_of_eq {g : α → β} {f : α → α} (h : ∀ a, g (f a) = g a) (l : List α) (i : Nat) :
    (l.modify i f).map g = l.map g := by
  refine List.ext_getElem? fun j => ?_
  rw [List.getElem?_map, List.getElem?_map, List.getElem?_modify]
  cases l[j]? with
  | none => rfl
  | some a =>
    show some (g (if i = j then f a else a)) = some (g a)
    split
    · rw [h]
    · rfl

theorem getElem?_concat_eq_some {l : List α} {a b : α} {i : Nat} :
    (l ++ [a])[i]? = some b ↔ l[i]? = some b ∨ i = l.length ∧ b = a := by
  rcases Nat.lt_trichotomy i l.length with hlt | rfl | hgt
  · rw [List.getElem?_append_left hlt]
    exact ⟨.inl, fun h => h.resolve_right fun hnew => absurd hnew.1 (Nat.ne_of_lt hlt)⟩
  · simp [eq_comm]
  · have hnone : (l ++ [a])[i]? = none := List.getElem?_eq_none (by rw [List.length_append]; exact hgt)
    have hold : l[i]? = none := List.getElem?_eq_none (Nat.le_of_lt hgt)
    simp [hnone, hold, Nat.ne_of_gt hgt]

theorem lt_length_of_getElem? {l : List α} {a : α} {i : Nat} (h : l[i]? = some a) :
    i < l.length := (List.getElem?_eq_some_iff.mp h).1

end Slt.Lib
