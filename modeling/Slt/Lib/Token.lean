import Mathlib.Data.List.Basic

/-!
# One request at a time over a pair of streams

A party puts a request into one stream, the peer takes it and puts a grant
into the other, and the party takes the grant. `Token ask grant out back
pending` says that the outstanding request is exactly one message of the two
streams, a request on its way out or a grant on its way back, and that there is
no such message when no request is outstanding.
-/

namespace Slt.Lib

variable {α β ι : Type}

def Token (ask : α → Option ι) (grant : β → Option ι) (out : List α) (back : List β)
    (pending : Option ι) : Prop :=
  out.filterMap ask ++ back.filterMap grant = pending.toList

namespace Token

variable {ask : α → Option ι} {grant : β → Option ι} {out : List α} {back : List β}
  {pending : Option ι} {a : α} {b : β} {i : ι}

theorem empty : Token ask grant [] [] none := rfl

theorem of_mem_out (h : Token ask grant out back pending) (ha : a ∈ out) (hi : ask a = some i) :
    pending = some i := by
  have hmem : i ∈ pending.toList := h ▸ List.mem_append_left _ (List.mem_filterMap.mpr ⟨a, ha, hi⟩)
  simpa using hmem

theorem of_mem_back (h : Token ask grant out back pending) (hb : b ∈ back)
    (hi : grant b = some i) : pending = some i := by
  have hmem : i ∈ pending.toList :=
    h ▸ List.mem_append_right _ (List.mem_filterMap.mpr ⟨b, hb, hi⟩)
  simpa using hmem

theorem mem (h : Token ask grant out back (some i)) :
    (∃ a ∈ out, ask a = some i) ∨ ∃ b ∈ back, grant b = some i := by
  have hmem : i ∈ out.filterMap ask ++ back.filterMap grant := by
    rw [h]
    exact List.mem_singleton.mpr rfl
  simpa using hmem

theorem write_out (h : Token ask grant out back pending) (ha : ask a = none) :
    Token ask grant (out ++ [a]) back pending := by
  simpa [Token, ha] using h

theorem write_back (h : Token ask grant out back pending) (hb : grant b = none) :
    Token ask grant out (back ++ [b]) pending := by
  simpa [Token, hb] using h

theorem take_out (h : Token ask grant (a :: out) back pending) (ha : ask a = none) :
    Token ask grant out back pending := by
  simpa [Token, List.filterMap_cons, ha] using h

theorem take_back (h : Token ask grant out (b :: back) pending) (hb : grant b = none) :
    Token ask grant out back pending := by
  simpa [Token, List.filterMap_cons, hb] using h

theorem request (h : Token ask grant out back none) (ha : ask a = some i) :
    Token ask grant (out ++ [a]) back (some i) := by
  obtain ⟨hout, hback⟩ := List.append_eq_nil_iff.mp h
  simp [Token, hout, hback, ha]

theorem turn (h : Token ask grant (a :: out) back pending) (ha : ask a = some i)
    (hb : grant b = some i) : Token ask grant out (back ++ [b]) pending := by
  obtain rfl : pending = some i := h.of_mem_out List.mem_cons_self ha
  simp only [Token, List.filterMap_cons, ha, List.cons_append, Option.toList_some,
    List.cons.injEq, true_and] at h
  obtain ⟨hout, hback⟩ := List.append_eq_nil_iff.mp h
  simp [Token, hout, hback, hb]

theorem alone (h : Token ask grant (a :: out) back pending) (ha : ask a = some i) :
    ∀ a' ∈ out, ask a' = none := by
  obtain rfl : pending = some i := h.of_mem_out List.mem_cons_self ha
  simp only [Token, List.filterMap_cons, ha, List.cons_append, Option.toList_some,
    List.cons.injEq, true_and] at h
  exact List.filterMap_eq_nil_iff.mp (List.append_eq_nil_iff.mp h).1

theorem settle (h : Token ask grant out (b :: back) pending) (hb : grant b = some i) :
    Token ask grant out back none := by
  obtain rfl : pending = some i := h.of_mem_back List.mem_cons_self hb
  have hlen : out.filterMap ask = [] ∧ back.filterMap grant = [] := by
    have := congrArg List.length h
    simp [hb] at this
    exact ⟨List.eq_nil_of_length_eq_zero (by omega), List.eq_nil_of_length_eq_zero (by omega)⟩
  simp [Token, hlen.1, hlen.2]

end Token

end Slt.Lib
