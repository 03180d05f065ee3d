import Slt.Lib.Bytes

/-!
# Popping items from a buffer of bytes

A reader appends what arrives to a buffer and pops items from its front until
there is no whole one left. If every item pops from its encoding, whatever
follows, and nothing pops from a part of one, the reader gets the items back
however their encodings were cut into chunks.
-/

namespace Slt.Lib

structure Popper (α ε : Type) where
  pop : Bytes → Except ε (Option α) × Bytes
  shrinks : ∀ buf a, (pop buf).1 = .ok (some a) → (pop buf).2.length < buf.length

namespace Popper

variable {α ε : Type} (p : Popper α ε)

def drain (buf : Bytes) : List α × Except ε Unit × Bytes :=
  match h : (p.pop buf).1 with
  | .ok (some a) =>
    have := p.shrinks buf a h
    let (items, result, rest) := drain (p.pop buf).2
    (a :: items, result, rest)
  | .ok none => ([], .ok (), (p.pop buf).2)
  | .error e => ([], .error e, (p.pop buf).2)
termination_by buf.length

/-- Read chunk after chunk, and drain the buffer after each. -/
def receive (buf : Bytes) : List Bytes → List α × Except ε Unit × Bytes
  | [] => ([], .ok (), buf)
  | chunk :: chunks =>
    match p.drain (buf ++ chunk) with
    | (items, .error e, rest) => (items, .error e, rest)
    | (items, .ok (), rest) =>
      let (more, result, last) := receive rest chunks
      (items ++ more, result, last)

variable {p}

theorem drain_some {buf rest : Bytes} {a : α} (h : p.pop buf = (.ok (some a), rest)) :
    p.drain buf = (a :: (p.drain rest).1, (p.drain rest).2) := by
  obtain rfl : rest = (p.pop buf).2 := by rw [h]
  rw [drain]
  split
  · rename_i b hb
    rw [h] at hb
    cases hb
    rfl
  · rename_i hb
    rw [h] at hb
    cases hb
  · rename_i e hb
    rw [h] at hb
    cases hb

theorem drain_none {buf rest : Bytes} (h : p.pop buf = (.ok none, rest)) :
    p.drain buf = ([], .ok (), rest) := by
  rw [drain]
  split
  · rename_i b hb
    rw [h] at hb
    cases hb
  · rw [h]
  · rename_i e hb
    rw [h] at hb
    cases hb

theorem drain_error {buf rest : Bytes} {e : ε} (h : p.pop buf = (.error e, rest)) :
    p.drain buf = ([], .error e, rest) := by
  rw [drain]
  split
  · rename_i b hb
    rw [h] at hb
    cases hb
  · rename_i hb
    rw [h] at hb
    cases hb
  · rename_i e' hb
    rw [h] at hb
    cases hb
    rw [h]

/-- What is left after a drain without an error is what the last pop left. -/
theorem drain_ok {buf rest : Bytes} {items : List α} (h : p.drain buf = (items, .ok (), rest)) :
    ∃ last, p.pop last = (.ok none, rest) := by
  generalize hn : buf.length = n
  induction n using Nat.strong_induction_on generalizing buf items with
  | _ n ih =>
    rcases hpop : p.pop buf with ⟨r, next⟩
    match r with
    | .ok (some a) =>
      rw [drain_some hpop] at h
      have hshrinks := p.shrinks buf a (by rw [hpop])
      rw [hpop] at hshrinks
      obtain ⟨items', hrest⟩ : ∃ items', p.drain next = (items', .ok (), rest) :=
        ⟨(p.drain next).1, by rw [← (Prod.mk.inj h).2]⟩
      exact ih next.length (hn ▸ hshrinks) hrest rfl
    | .ok none =>
      rw [drain_none hpop] at h
      cases h
      exact ⟨buf, hpop⟩
    | .error e =>
      rw [drain_error hpop] at h
      cases h

/-! ## Encodings -/

/-- `encode` gives the bytes that an item of `S` pops from, as a whole. -/
structure Frames (p : Popper α ε) (S : α → Prop) (encode : α → Bytes) : Prop where
  whole : ∀ a, S a → ∀ more, p.pop (encode a ++ more) = (.ok (some a), more)
  part : ∀ a, S a → ∀ buf, buf <+: encode a → buf.length < (encode a).length →
    p.pop buf = (.ok none, buf)
  empty : p.pop [] = (.ok none, [])

namespace Frames

variable {S : α → Prop} {encode : α → Bytes}

/-- Draining a part of the encodings pops the items that are whole in it. -/
theorem drain (h : p.Frames S encode) {items : List α} (hitems : ∀ a ∈ items, S a)
    {buf coming : Bytes} (heq : buf ++ coming = items.flatMap encode) :
    ∃ done left rest, items = done ++ left ∧ p.drain buf = (done, .ok (), rest) ∧
      rest ++ coming = left.flatMap encode ∧
      ∀ a more, left = a :: more → rest.length < (encode a).length := by
  induction items generalizing buf with
  | nil =>
    obtain ⟨rfl, rfl⟩ := List.append_eq_nil_iff.mp heq
    exact ⟨[], [], [], rfl, drain_none h.empty, rfl, nofun⟩
  | cons a items ih =>
    rw [List.forall_mem_cons] at hitems
    rw [List.flatMap_cons] at heq
    rcases List.append_eq_append_iff.mp heq with ⟨tail, hencode, htail⟩ | ⟨tail, rfl, htail⟩
    · by_cases hshort : buf.length < (encode a).length
      · have hpart := h.part a hitems.1 buf ⟨tail, hencode.symm⟩ hshort
        refine ⟨[], a :: items, buf, rfl, drain_none hpart, ?_, ?_⟩
        · rw [List.flatMap_cons, hencode, htail, List.append_assoc]
        · rintro b more hb
          cases hb
          exact hshort
      · -- the buffer ends with the encoding of `a`
        obtain rfl : tail = [] := by
          have hlength := congrArg List.length hencode
          rw [List.length_append] at hlength
          exact List.length_eq_zero_iff.mp (by omega)
        rw [List.append_nil] at hencode
        rw [List.nil_append] at htail
        obtain ⟨done, left, rest, rfl, hdrain, hrest, hpart⟩ :=
          ih hitems.2 (show [] ++ _ = _ by rw [List.nil_append, htail])
        have hpop := h.whole a hitems.1 []
        rw [List.append_nil, hencode] at hpop
        refine ⟨a :: done, left, rest, rfl, ?_, hrest, hpart⟩
        rw [drain_some hpop, hdrain]
    · obtain ⟨done, left, rest, rfl, hdrain, hrest, hpart⟩ := ih hitems.2 htail.symm
      refine ⟨a :: done, left, rest, rfl, ?_, hrest, hpart⟩
      rw [drain_some (h.whole a hitems.1 tail), hdrain]

theorem receive (h : p.Frames S encode) {items : List α} (hitems : ∀ a ∈ items, S a)
    {buf : Bytes} {chunks : List Bytes} (heq : buf ++ chunks.flatten = items.flatMap encode)
    (hpart : ∀ a more, items = a :: more → buf.length < (encode a).length) :
    p.receive buf chunks = (items, .ok (), []) := by
  induction chunks generalizing buf items with
  | nil =>
    rw [List.flatten_nil, List.append_nil] at heq
    cases items with
    | nil => rw [heq]; rfl
    | cons a items =>
      have hshort := hpart a items rfl
      rw [heq, List.flatMap_cons, List.length_append] at hshort
      omega
  | cons chunk chunks ih =>
    rw [List.flatten_cons, ← List.append_assoc] at heq
    obtain ⟨done, left, rest, rfl, hdrain, hrest, hleft⟩ := h.drain hitems heq
    have hmore := ih (fun a ha => hitems a (List.mem_append_right _ ha)) hrest hleft
    rw [Popper.receive, hdrain]
    simp only [hmore]

end Frames

end Popper

end Slt.Lib
