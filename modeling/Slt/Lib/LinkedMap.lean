import Mathlib.Data.List.Nodup
import Mathlib.Data.List.Basic
import Mathlib.Logic.Function.Basic
import Slt.Lib.Trace

/-!
# Linked lists inside maps

A map whose entries carry the keys of their neighbours, so that an entry can be
taken out of the list by its key alone. `Lists m keys` says that the entries form
one list with these keys, from head to tail, and that the map has no others.
-/

namespace Slt.Lib

structure LinkedMap.Node (κ α : Type) where
  item : α
  prev : Option κ
  next : Option κ

structure LinkedMap (κ α : Type) where
  nodes : κ → Option (LinkedMap.Node κ α)
  head : Option κ
  tail : Option κ

namespace LinkedMap

variable {κ α : Type}

def empty : LinkedMap κ α := ⟨fun _ => none, none, none⟩

def item (m : LinkedMap κ α) (k : κ) : Option α := (m.nodes k).map (·.item)

structure Lists (m : LinkedMap κ α) (keys : List κ) : Prop where
  nodup : keys.Nodup
  head : m.head = keys.head?
  tail : m.tail = keys.getLast?
  outside : ∀ k, k ∉ keys → m.nodes k = none
  links : ∀ pre k post, keys = pre ++ k :: post →
    ∃ a, m.nodes k = some ⟨a, pre.getLast?, post.head?⟩

theorem lists_empty : (empty : LinkedMap κ α).Lists [] where
  nodup := List.nodup_nil
  head := rfl
  tail := rfl
  outside := fun _ _ => rfl
  links := fun pre k post h => by simp at h

theorem getLast?_ne {pre post : List κ} {k x : κ} (h : (pre ++ k :: x :: post).Nodup) :
    (pre ++ k :: x :: post).getLast? ≠ some k := by
  intro hlast
  rw [List.getLast?_append, List.getLast?_cons_cons] at hlast
  have hin : k ∈ x :: post := by
    cases hend : (x :: post).getLast? with
    | none => simp at hend
    | some y =>
      rw [hend, Option.some_or, Option.some.injEq] at hlast
      exact hlast ▸ List.mem_of_getLast? hend
  exact (List.nodup_cons.mp (List.nodup_append.mp h).2.1).1 hin

def walk (m : LinkedMap κ α) : Nat → Option κ → List α
  | 0, _ => []
  | _, none => []
  | limit + 1, some k =>
    match m.nodes k with
    | none => []
    | some node => node.item :: m.walk limit node.next

variable [DecidableEq κ]

/-- Change the entry of a key, if there is a key and it has an entry. -/
def modifyAt (nodes : κ → Option (Node κ α)) (k : Option κ) (f : Node κ α → Node κ α) :
    κ → Option (Node κ α) :=
  fun j => if k = some j then (nodes j).map f else nodes j

def pushBack (m : LinkedMap κ α) (k : κ) (a : α) : LinkedMap κ α where
  nodes := Function.update (modifyAt m.nodes m.tail ({ · with next := some k })) k
    (some ⟨a, m.tail, none⟩)
  head := if m.tail.isSome then m.head else some k
  tail := some k

def remove (m : LinkedMap κ α) (k : κ) : Option α × LinkedMap κ α :=
  match m.nodes k with
  | none => (none, m)
  | some node =>
    let nodes := Function.update m.nodes k none
    let nodes := modifyAt nodes node.prev ({ · with next := node.next })
    let nodes := modifyAt nodes node.next ({ · with prev := node.prev })
    (some node.item,
      { nodes := nodes
        head := if node.prev.isSome then m.head else node.next
        tail := if node.next.isSome then m.tail else node.prev })

section Items

variable (m : LinkedMap κ α) (k : κ)

theorem map_modifyAt {β : Type} (g : Node κ α → β) (nodes : κ → Option (Node κ α))
    (target : Option κ) (f : Node κ α → Node κ α) (hf : ∀ node, g (f node) = g node) (j : κ) :
    (modifyAt nodes target f j).map g = (nodes j).map g := by
  unfold modifyAt
  split
  · cases nodes j with
    | none => rfl
    | some node => exact congrArg some (hf node)
  · rfl

theorem item_pushBack (a : α) : (m.pushBack k a).item = Function.update m.item k (some a) := by
  funext j
  by_cases hj : j = k
  · subst hj
    simp [item, pushBack]
  · simp only [item, pushBack, Function.update_of_ne hj]
    exact map_modifyAt _ _ _ ({ · with next := some k }) (fun _ => rfl) j

theorem remove_fst : (m.remove k).1 = m.item k := by
  unfold remove item
  split <;> simp [*]

theorem item_remove : (m.remove k).2.item = Function.update m.item k none := by
  funext j
  unfold remove
  split
  · rename_i hnone
    by_cases hj : j = k
    · subst hj
      simp [item, hnone]
    · rw [Function.update_of_ne hj]
  · rename_i node _
    simp only [item]
    rw [map_modifyAt _ _ _ ({ · with prev := node.prev }) (fun _ => rfl),
      map_modifyAt _ _ _ ({ · with next := node.next }) (fun _ => rfl)]
    by_cases hj : j = k
    · subst hj
      simp
    · rw [Function.update_of_ne hj, Function.update_of_ne hj]
      rfl

end Items

namespace Lists

variable {m : LinkedMap κ α} {keys : List κ} {k : κ}

theorem item_isSome (h : m.Lists keys) : (m.item k).isSome ↔ k ∈ keys := by
  constructor
  · intro hsome
    by_contra hout
    simp [item, h.outside k hout] at hsome
  · intro hin
    obtain ⟨pre, post, hsplit⟩ := List.append_of_mem hin
    obtain ⟨a, hnode⟩ := h.links pre k post hsplit
    simp [item, hnode]

theorem pushBack (h : m.Lists keys) (hk : k ∉ keys) (a : α) :
    (m.pushBack k a).Lists (keys ++ [k]) where
  nodup := by
    rw [List.nodup_append]
    refine ⟨h.nodup, List.nodup_singleton k, fun x hx y hy heq => hk ?_⟩
    rw [← List.mem_singleton.mp hy, ← heq]
    exact hx
  head := by
    cases keys with
    | nil => simp [LinkedMap.pushBack, h.tail]
    | cons x keys => simp [LinkedMap.pushBack, h.tail, h.head]
  tail := by simp [LinkedMap.pushBack]
  outside := by
    intro j hj
    rw [List.mem_append, not_or, List.mem_singleton] at hj
    simp only [LinkedMap.pushBack, Function.update_of_ne hj.2, modifyAt, h.outside j hj.1,
      Option.map_none, ite_self]
  links := by
    intro pre j post hsplit
    rcases append_eq_append_cons hsplit with ⟨mid, hkeys, rfl⟩ | ⟨mid, rfl, hlast⟩
    · -- an old entry, which gets a new neighbour when it is the last
      obtain ⟨b, hnode⟩ := h.links pre j mid hkeys
      have hj : j ≠ k := fun heq => hk (by rw [hkeys, heq]; simp)
      refine ⟨b, ?_⟩
      simp only [LinkedMap.pushBack, Function.update_of_ne hj, modifyAt, h.tail, hnode]
      cases mid with
      | nil => simp [hkeys]
      | cons x mid =>
        have hne : keys.getLast? ≠ some j := hkeys ▸ getLast?_ne (hkeys ▸ h.nodup)
        rw [if_neg hne]
        rfl
    · obtain ⟨rfl, rfl, rfl⟩ : mid = [] ∧ j = k ∧ post = [] := by
        cases mid with
        | nil => simpa [eq_comm] using hlast
        | cons x mid => simp at hlast
      exact ⟨a, by simp [LinkedMap.pushBack, h.tail]⟩

theorem remove_node {node : Node κ α} (hnode : m.nodes k = some node) {j : κ} (hj : j ≠ k) :
    (m.remove k).2.nodes j = (m.nodes j).map fun other =>
      ⟨other.item, if node.next = some j then node.prev else other.prev,
        if node.prev = some j then node.next else other.next⟩ := by
  simp only [LinkedMap.remove, hnode, modifyAt, Function.update_of_ne hj]
  cases m.nodes j with
  | none => simp
  | some other =>
    by_cases hnext : node.next = some j <;> by_cases hprev : node.prev = some j <;>
      simp [hnext, hprev]

theorem remove_split {pre post : List κ} (h : m.Lists (pre ++ k :: post)) :
    (m.remove k).2.Lists (pre ++ post) := by
  obtain ⟨a, hnode⟩ := h.links pre k post rfl
  have hperm : (k :: (pre ++ post)).Nodup := (List.perm_middle.nodup_iff).mp h.nodup
  have hkout : k ∉ pre ++ post := (List.nodup_cons.mp hperm).1
  have hdisjoint := (List.nodup_append.mp (List.nodup_cons.mp hperm).2).2.2
  constructor
  case nodup => exact (List.nodup_cons.mp hperm).2
  case head =>
    simp only [LinkedMap.remove, hnode, h.head]
    cases pre <;> simp
  case tail =>
    simp only [LinkedMap.remove, hnode, h.tail]
    cases post <;> simp
  case outside =>
    intro j hj
    by_cases hjk : j = k
    · subst hjk
      simp [LinkedMap.remove, hnode, modifyAt]
    · rw [remove_node hnode hjk, h.outside j (by simpa [hjk] using hj), Option.map_none]
  case links =>
    intro before j after hsplit
    have hjk : j ≠ k := by
      rintro rfl
      exact hkout (by rw [hsplit]; simp)
    rw [remove_node hnode hjk]
    rcases append_eq_append_cons hsplit with ⟨mid, rfl, rfl⟩ | ⟨mid, rfl, rfl⟩
    · -- before the entry: only its neighbour gets a new successor
      obtain ⟨b, hother⟩ := h.links before j (mid ++ k :: post) (by simp)
      refine ⟨b, ?_⟩
      have hnext : post.head? ≠ some j := fun hhead =>
        hdisjoint j (by simp) j (List.mem_of_head? hhead) rfl
      rw [hother, Option.map_some, if_neg hnext]
      cases mid with
      | nil => simp
      | cons x mid =>
        have hprev : (before ++ j :: x :: mid).getLast? ≠ some j :=
          getLast?_ne (List.nodup_append.mp h.nodup).1
        rw [if_neg hprev]
        rfl
    · -- behind the entry: only its neighbour gets a new predecessor
      obtain ⟨b, hother⟩ := h.links (pre ++ k :: mid) j after (by simp)
      refine ⟨b, ?_⟩
      have hprev : pre.getLast? ≠ some j := fun hlast =>
        hdisjoint j (List.mem_of_getLast? hlast) j (by simp) rfl
      rw [hother, Option.map_some, if_neg hprev]
      cases mid with
      | nil => simp
      | cons x mid =>
        have hnext : (x :: mid ++ j :: after).head? ≠ some j := by
          rintro hhead
          cases hhead
          have htail := (List.nodup_append.mp h.nodup).2.1
          simp at htail
        rw [if_neg hnext]
        simp

theorem remove (h : m.Lists keys) (k : κ) : (m.remove k).2.Lists (keys.erase k) := by
  by_cases hk : k ∈ keys
  · obtain ⟨pre, post, rfl⟩ := List.append_of_mem hk
    have hout : k ∉ pre := fun hin =>
      (List.nodup_append.mp h.nodup).2.2 k hin k (List.mem_cons_self ..) rfl
    rw [List.erase_append_right _ hout, List.erase_cons_head]
    exact h.remove_split
  · rw [List.erase_of_not_mem hk, LinkedMap.remove, h.outside k hk]
    exact h

end Lists

end LinkedMap

end Slt.Lib
