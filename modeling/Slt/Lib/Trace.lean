import Mathlib.Data.List.Basic

/-!
# Records of what happened

A record lists events, the oldest first. `Since P a log` is the past-time
operator: `a` happened, and every event after it satisfies `P`.
-/

namespace Slt.Lib

variable {α : Type} {P : α → Prop} {a : α} {log more : List α}

/-- An event of an extended record is in the old part or in the new one. -/
theorem append_eq_append_cons {pre post : List α} (h : log ++ more = pre ++ a :: post) :
    (∃ mid, log = pre ++ a :: mid ∧ post = mid ++ more) ∨
      ∃ mid, pre = log ++ mid ∧ more = mid ++ a :: post := by
  rcases List.append_eq_append_iff.mp h with ⟨mid, hpre, hmore⟩ | ⟨mid, hlog, hpost⟩
  · exact .inr ⟨mid, hpre, hmore⟩
  · cases mid with
    | nil => exact .inr ⟨[], by simpa using hlog.symm, hpost.symm⟩
    | cons x mid =>
      obtain ⟨rfl, rfl⟩ : a = x ∧ post = mid ++ more := by simpa using hpost
      exact .inl ⟨mid, hlog, rfl⟩

def Since (P : α → Prop) (a : α) (log : List α) : Prop :=
  ∃ pre post, log = pre ++ a :: post ∧ ∀ e ∈ post, P e

theorem Since.mem (h : Since P a log) : a ∈ log := by
  obtain ⟨pre, post, rfl, -⟩ := h
  simp

theorem since_last (log : List α) (h : ∀ e ∈ more, P e) : Since P a (log ++ a :: more) :=
  ⟨log, more, rfl, h⟩

theorem Since.append (h : Since P a log) (hmore : ∀ e ∈ more, P e) :
    Since P a (log ++ more) := by
  obtain ⟨pre, post, rfl, hpost⟩ := h
  refine ⟨pre, post ++ more, by simp, ?_⟩
  intro e he
  rcases List.mem_append.mp he with he | he
  · exact hpost e he
  · exact hmore e he

/-- If the newest events are not `a`, all of them satisfy the condition. -/
theorem Since.of_append (h : Since P a (log ++ more)) (ha : a ∉ more) :
    Since P a log ∧ ∀ e ∈ more, P e := by
  obtain ⟨pre, post, heq, hpost⟩ := h
  rcases List.append_eq_append_iff.mp heq with ⟨mid, -, rfl⟩ | ⟨mid, rfl, htail⟩
  · simp at ha
  · cases mid with
    | nil =>
      rw [List.nil_append] at htail
      exact absurd (htail ▸ List.mem_cons_self) ha
    | cons x mid =>
      obtain ⟨rfl, rfl⟩ : a = x ∧ post = mid ++ more := by simpa using htail
      refine ⟨⟨pre, mid, rfl, fun e he => hpost e ?_⟩, fun e he => hpost e ?_⟩
      · exact List.mem_append_left _ he
      · exact List.mem_append_right _ he

/-! ## A record seen through a partial view -/

section View

variable {β : Type} {view : α → Option β} {Q : β → Prop} {b : β}

theorem Since.filterMap (h : Since P a log) (ha : view a = some b)
    (hpq : ∀ e c, P e → view e = some c → Q c) : Since Q b (log.filterMap view) := by
  obtain ⟨pre, post, rfl, hpost⟩ := h
  refine ⟨pre.filterMap view, post.filterMap view, ?_, fun c hc => ?_⟩
  · rw [List.filterMap_append, List.filterMap_cons_some ha]
  · obtain ⟨e, he, hview⟩ := List.mem_filterMap.mp hc
    exact hpq e c (hpost e he) hview

/-- What has been seen to happen has happened, and what was not seen since does
not matter to `P`. -/
theorem Since.of_filterMap (h : Since Q b (log.filterMap view))
    (hqp : ∀ e, (∀ c, view e = some c → Q c) → P e) :
    ∃ a, view a = some b ∧ Since P a log := by
  obtain ⟨pre, post, heq, hpost⟩ := h
  obtain ⟨front, back, rfl, -, hback⟩ := List.filterMap_eq_append_iff.mp heq
  obtain ⟨hidden, a, rest, rfl, -, ha, rfl⟩ := List.filterMap_eq_cons_iff.mp hback
  refine ⟨a, ha, front ++ hidden, rest, by simp, fun e he => hqp e fun c hc => ?_⟩
  exact hpost c (List.mem_filterMap.mpr ⟨e, he, hc⟩)

theorem map_filter_isSome (events : List α) :
    (events.filter fun e => (view e).isSome).map view = (events.filterMap view).map some := by
  induction events with
  | nil => rfl
  | cons e events ih => cases he : view e <;> simp [he, ih]

theorem sublist_of_filterMap {seen : List β} (h : seen.Sublist (log.filterMap view)) :
    ∃ events : List α, events.Sublist log ∧ events.map view = seen.map some := by
  obtain ⟨events, hsub, rfl⟩ := List.sublist_filterMap_iff.mp h
  exact ⟨_, List.filter_sublist.trans hsub, map_filter_isSome events⟩

end View

end Slt.Lib
