import Slt.Server.AdmissionLaws
import Mathlib.Data.List.Induction

/-!
# Admission under every interleaving

The invariant of the memory is carried through the steps of any number of tasks.
What the tasks add is small: whose drop is between its swap and its lock, and
whether a call has evicted already.
-/

namespace Slt.Server

open Lib

/-! ## What a step leaves alone -/

/-- An event inside a call, where nobody but `evictor` evicts. -/
def AdmissionEvent.Inside (evictor : Option Nat) : AdmissionEvent → Prop
  | .called _ => False
  | .returned _ _ => False
  | .evicted task _ => evictor = some task
  | _ => True

namespace AdmissionMemory

/-- What the steps inside a call do to the memory. -/
structure Grows (evictor : Option Nat) (m m' : AdmissionMemory) : Prop where
  cap : m'.cap = m.cap
  permits : m.permits.length ≤ m'.permits.length
  trace : ∃ added, m'.trace = m.trace ++ added ∧ ∀ event ∈ added, event.Inside evictor

namespace Grows

variable {evictor : Option Nat} {m m' m'' : AdmissionMemory}

theorem refl (m : AdmissionMemory) : m.Grows evictor m :=
  ⟨rfl, Nat.le_refl _, [], (List.append_nil _).symm, List.forall_mem_nil _⟩

theorem trans (h : m.Grows evictor m') (h' : m'.Grows evictor m'') : m.Grows evictor m'' := by
  obtain ⟨added, hadded, hinside⟩ := h.trace
  obtain ⟨added', hadded', hinside'⟩ := h'.trace
  refine ⟨h'.cap.trans h.cap, h.permits.trans h'.permits, added ++ added', ?_,
    List.forall_mem_append.mpr ⟨hinside, hinside'⟩⟩
  rw [hadded', hadded, List.append_assoc]

theorem one (event : AdmissionEvent) (hinside : event.Inside evictor) (hcap : m'.cap = m.cap)
    (hpermits : m.permits.length ≤ m'.permits.length) (htrace : m'.trace = m.trace ++ [event]) :
    m.Grows evictor m' :=
  ⟨hcap, hpermits, [event], htrace, List.forall_mem_singleton.mpr hinside⟩

theorem log (event : AdmissionEvent) (hinside : event.Inside evictor) :
    m.Grows evictor (m.log event) :=
  .one event hinside rfl (Nat.le_refl _) rfl

theorem evictionsInCall {task : Nat} (h : m.Grows evictor m') (hother : evictor ≠ some task) :
    evictionsInCall task m'.trace = evictionsInCall task m.trace := by
  obtain ⟨added, hadded, hinside⟩ := h.trace
  rw [hadded]
  clear hadded
  induction added using List.reverseRecOn with
  | nil => rw [List.append_nil]
  | append_singleton added event ih =>
    obtain ⟨hbefore, hlast⟩ := List.forall_mem_append.mp hinside
    have hevent := List.forall_mem_singleton.mp hlast
    rw [← List.append_assoc, evictionsInCall_concat, ← ih hbefore]
    cases event with
    | called => exact hevent.elim
    | evicted t i =>
      have hne : t ≠ task := fun heq => hother (heq ▸ hevent)
      exact if_neg hne
    | _ => rfl

theorem returned {t : Nat} {attempt : TcpAdmissionAttempt} (h : m.Grows evictor m')
    (hmem : .returned t attempt ∈ m'.trace) : .returned t attempt ∈ m.trace := by
  obtain ⟨added, hadded, hinside⟩ := h.trace
  rw [hadded] at hmem
  exact (List.mem_append.mp hmem).resolve_right fun hadded => hinside _ hadded

end Grows

variable (m : AdmissionMemory) (task : Nat) (id : UInt64) (permit : TcpAdmissionPermit)

theorem grows_admission : m.Grows none m.admitIfUnderCap.2 := by
  unfold admitIfUnderCap
  split
  · exact .one (.created _) trivial rfl (by simp [admitLocked]) rfl
  · exact .refl m

theorem grows_remove {evictor : Option Nat} : m.Grows evictor (m.removeNoDataLocked id).2 :=
  .one (.unqueued id) trivial rfl (Nat.le_refl _) rfl

theorem grows_swap {evictor : Option Nat} (flag : Nat) :
    m.Grows evictor (m.swapReleased flag).2 :=
  ⟨rfl, Nat.le_refl _, [], (List.append_nil _).symm, List.forall_mem_nil _⟩

theorem grows_tryEvictEmpty :
    m.Grows ((m.tryEvictEmpty task id).1.map fun _ => task) (m.tryEvictEmpty task id).2 := by
  have hremoved {evictor : Option Nat} : m.Grows evictor _ := m.grows_remove id
  rcases m.tryEvictEmpty_cases task id with hevict | hevict | ⟨entry, -, -, hevict⟩ |
    ⟨entry, -, -, hevict⟩ <;> rw [hevict]
  · exact .refl m
  · exact hremoved
  · exact hremoved.trans (grows_swap _ _)
  · exact hremoved.trans (.one (.evicted task _) rfl rfl (Nat.le_refl _) rfl)

theorem grows_markEmpty : m.Grows none (m.markEmpty permit).2 := by
  have hmarked : m.Grows none (m.log (.markedEmpty permit.released)) := .log _ trivial
  unfold markEmpty
  split
  · exact .refl m
  split
  · exact hmarked
  · exact hmarked.trans (.one (.queued _) trivial rfl (Nat.le_refl _) rfl)

theorem grows_markDataSeen : m.Grows none (m.markDataSeen permit).2 := by
  unfold markDataSeen
  split
  · exact .refl m
  · exact (m.grows_remove _).trans (.log _ trivial)

theorem grows_subtract : m.Grows none (m.subtract permit) := by
  have hremoved : m.Grows none (m.lowerActive.removeNoDataLocked permit.id).2 :=
    .one (.unqueued _) trivial rfl (Nat.le_refl _) rfl
  exact hremoved.trans (.log _ trivial)

theorem active_markEmpty : (m.markEmpty permit).2.state.active = m.state.active := by
  unfold markEmpty
  split
  · rfl
  split <;> rfl

theorem active_markDataSeen : (m.markDataSeen permit).2.state.active = m.state.active := by
  unfold markDataSeen
  split <;> rfl

theorem admit_isSome (h : m.state.active < m.cap) : m.admitIfUnderCap.1.isSome := by
  unfold admitIfUnderCap
  rw [if_pos h]
  rfl

end AdmissionMemory

/-! ## The invariant -/

def AdmissionTask.permit : AdmissionTask → Option TcpAdmissionPermit
  | .look p | .markEmpty p | .markDataSeen p | .drop p | .subtract p => some p
  | _ => none

def AdmissionTask.dropping : AdmissionTask → Option TcpAdmissionPermit
  | .drop p | .subtract p => some p
  | _ => none

def AdmitPoint.evicted : AdmitPoint → Bool
  | .last _ evictedEmpty => evictedEmpty
  | .finish _ _ evictedEmpty => evictedEmpty
  | _ => false

namespace AdmissionWorld

def busy (w : AdmissionWorld) (i : Nat) : Prop := ∃ t, w.tasks t = .subtract (permitAt i)

structure Inv (w : AdmissionWorld) : Prop where
  memory : w.memory.Inv w.busy
  held : ∀ t p, (w.tasks t).permit = some p →
    ∃ i, i < w.memory.permits.length ∧ p = permitAt i
  alone : ∀ t t' p, (w.tasks t).dropping = some p → (w.tasks t').dropping = some p → t = t'
  surrendered : ∀ t p, (w.tasks t).dropping = some p → w.surrendered p.released = true
  first : ∀ t point, w.tasks t = .admitting point → point.evicted = false →
    evictionsInCall t w.memory.trace = 0

theorem inv_new (cap : Nat) : (new cap).Inv where
  memory := by
    have hbusy : (new cap).busy = fun _ => False := by
      funext i
      exact eq_false fun ⟨_, h⟩ => nomatch h
    rw [hbusy]
    exact AdmissionMemory.inv_new cap
  held := fun _ _ h => nomatch h
  alone := fun _ _ _ h => nomatch h
  surrendered := fun _ _ h => nomatch h
  first := fun _ _ h => nomatch h

variable {w : AdmissionWorld}

theorem setTask_self (t : Nat) (next : AdmissionTask) : (w.setTask t next).tasks t = next :=
  Function.update_self ..

theorem setTask_of_ne {t t' : Nat} (h : t' ≠ t) (next : AdmissionTask) :
    (w.setTask t next).tasks t' = w.tasks t' :=
  Function.update_of_ne h ..

/-- A task whose drop is not between swap and lock, before and after. -/
theorem busy_setTask {t : Nat} {next : AdmissionTask} (hold : ∀ p, w.tasks t ≠ .subtract p)
    (hnext : ∀ p, next ≠ .subtract p) : (w.setTask t next).busy = w.busy := by
  funext i
  refine propext ⟨fun ⟨t', ht'⟩ => ?_, fun ⟨t', ht'⟩ => ⟨t', ?_⟩⟩
  · by_cases heq : t' = t
    · subst heq
      rw [setTask_self] at ht'
      exact absurd ht' (hnext _)
    · rw [setTask_of_ne heq] at ht'
      exact ⟨t', ht'⟩
  · rw [setTask_of_ne]
    · exact ht'
    · rintro rfl
      exact hold _ ht'

theorem permitAt_inj {i j : Nat} (h : permitAt i = permitAt j) : i = j :=
  congrArg TcpAdmissionPermit.released h

theorem busy_swapped {t i : Nat} (hold : ∀ p, w.tasks t ≠ .subtract p) :
    (w.setTask t (.subtract (permitAt i))).busy = fun j => w.busy j ∨ j = i := by
  funext j
  refine propext ⟨fun ⟨t', ht'⟩ => ?_, ?_⟩
  · by_cases heq : t' = t
    · subst heq
      rw [setTask_self] at ht'
      exact .inr (permitAt_inj (AdmissionTask.subtract.inj ht')).symm
    · rw [setTask_of_ne heq] at ht'
      exact .inl ⟨t', ht'⟩
  · rintro (⟨t', ht'⟩ | rfl)
    · refine ⟨t', ?_⟩
      rw [setTask_of_ne]
      · exact ht'
      · rintro rfl
        exact hold _ ht'
    · exact ⟨t, setTask_self t _⟩

namespace Inv

variable (h : w.Inv)
include h

theorem busy_subtracted {t i : Nat} (hold : w.tasks t = .subtract (permitAt i)) :
    (w.setTask t .idle).busy = fun j => w.busy j ∧ j ≠ i := by
  funext j
  refine propext ⟨fun ⟨t', ht'⟩ => ?_, fun ⟨⟨t', ht'⟩, hji⟩ => ⟨t', ?_⟩⟩
  · by_cases heq : t' = t
    · subst heq
      rw [setTask_self] at ht'
      cases ht'
    · rw [setTask_of_ne heq] at ht'
      refine ⟨⟨t', ht'⟩, ?_⟩
      rintro rfl
      exact heq (h.alone t' t (permitAt j) (by rw [ht']; rfl) (by rw [hold]; rfl))
  · rw [setTask_of_ne]
    · exact ht'
    · rintro rfl
      rw [hold] at ht'
      exact hji (permitAt_inj (AdmissionTask.subtract.inj ht')).symm

theorem update {t : Nat} {next : AdmissionTask} {m : AdmissionMemory} {surrendered : Nat → Bool}
    (hmemory : m.Inv (w.setTask t next).busy)
    (hgrow : w.memory.permits.length ≤ m.permits.length)
    (hheld : ∀ p, next.permit = some p → ∃ i, i < m.permits.length ∧ p = permitAt i)
    (hgiven : ∀ i, w.surrendered i = true → surrendered i = true)
    (hdropping : ∀ p, next.dropping = some p → surrendered p.released = true ∧
      ∀ t', t' ≠ t → (w.tasks t').dropping ≠ some p)
    (hothers : ∀ t', t' ≠ t → evictionsInCall t' m.trace = evictionsInCall t' w.memory.trace)
    (hfirst : ∀ point, next = .admitting point → point.evicted = false →
      evictionsInCall t m.trace = 0) :
    ({ w.put t (m, next) with surrendered := surrendered } : AdmissionWorld).Inv := by
  have hself : (w.put t (m, next)).tasks t = next := setTask_self t next
  have hother : ∀ t', t' ≠ t → (w.put t (m, next)).tasks t' = w.tasks t' :=
    fun t' heq => setTask_of_ne heq next
  constructor
  case memory => exact hmemory
  case held =>
    intro t' p ht'
    by_cases heq : t' = t
    · subst heq
      exact hheld p ((congrArg _ hself).symm.trans ht')
    · obtain ⟨i, hi, hp⟩ := h.held t' p ((congrArg _ (hother t' heq)).symm.trans ht')
      exact ⟨i, Nat.lt_of_lt_of_le hi hgrow, hp⟩
  -- A permit is dropped by one task only; `hdropping` gives it for the changed task.
  case alone =>
    have hclash : ∀ t' p, t' ≠ t → ((w.put t (m, next)).tasks t).dropping = some p →
        ((w.put t (m, next)).tasks t').dropping ≠ some p := by
      intro t' p heq hp
      rw [hother t' heq]
      rw [hself] at hp
      exact (hdropping p hp).2 t' heq
    intro t' t'' p h' h''
    by_cases heq' : t' = t
    · by_cases heq'' : t'' = t
      · rw [heq', heq'']
      · subst heq'
        exact absurd h'' (hclash t'' p heq'' h')
    · by_cases heq'' : t'' = t
      · subst heq''
        exact absurd h' (hclash t' p heq' h'')
      · exact h.alone t' t'' p ((congrArg _ (hother t' heq')).symm.trans h')
          ((congrArg _ (hother t'' heq'')).symm.trans h'')
  case surrendered =>
    intro t' p ht'
    by_cases heq : t' = t
    · subst heq
      exact (hdropping p ((congrArg _ hself).symm.trans ht')).1
    · exact hgiven _ (h.surrendered t' p ((congrArg _ (hother t' heq)).symm.trans ht'))
  case first =>
    intro t' point ht' hevicted
    by_cases heq : t' = t
    · subst heq
      exact hfirst point (hself.symm.trans ht') hevicted
    · exact (hothers t' heq).trans
        (h.first t' point ((hother t' heq).symm.trans ht') hevicted)

/-- A task that goes on drops what it was dropping before, or nothing. -/
theorem setTask {t : Nat} {next : AdmissionTask} {m : AdmissionMemory}
    (hmemory : m.Inv (w.setTask t next).busy) (hgrow : w.memory.permits.length ≤ m.permits.length)
    (hheld : ∀ p, next.permit = some p → ∃ i, i < m.permits.length ∧ p = permitAt i)
    (hdropping : ∀ p, next.dropping = some p → (w.tasks t).dropping = some p)
    (hothers : ∀ t', t' ≠ t → evictionsInCall t' m.trace = evictionsInCall t' w.memory.trace)
    (hfirst : ∀ point, next = .admitting point → point.evicted = false →
      evictionsInCall t m.trace = 0) : (w.put t (m, next)).Inv :=
  h.update hmemory hgrow hheld (fun _ hgiven => hgiven)
    (fun p hp => ⟨h.surrendered t p (hdropping p hp), fun t' heq hother =>
      heq (h.alone t' t p hother (hdropping p hp))⟩) hothers hfirst

theorem admitting {t : Nat} {point next : AdmitPoint} {m : AdmissionMemory}
    {evictor : Option Nat} (hold : w.tasks t = .admitting point) (hmemory : m.Inv w.busy)
    (hgrows : w.memory.Grows evictor m) (hown : ∀ t', evictor = some t' → t' = t)
    (hfirst : next.evicted = false → evictor = none ∧ point.evicted = false) :
    (w.put t (m, .admitting next)).Inv := by
  have hbusy : (w.setTask t (.admitting next)).busy = w.busy :=
    busy_setTask (fun p hp => by rw [hold] at hp; cases hp) fun p hp => by cases hp
  refine h.setTask (hbusy ▸ hmemory) hgrows.permits (fun p hp => nomatch hp)
    (fun p hp => nomatch hp) (fun t' ht' => hgrows.evictionsInCall fun heq => ht' (hown t' heq))
    fun point' hpoint hnext => ?_
  cases hpoint
  obtain ⟨rfl, hpoint⟩ := hfirst hnext
  exact (hgrows.evictionsInCall nofun).trans (h.first t point hold hpoint)

theorem advance_admission {t : Nat} {point : AdmitPoint} (hold : w.tasks t = .admitting point)
    (empty : Bool) :
    (w.put t (point.advance w.memory t empty)).Inv := by
  have hquiet {m : AdmissionMemory} {next : AdmitPoint} (hmemory : m.Inv w.busy)
      (hgrows : w.memory.Grows none m) (hfirst : next.evicted = false → point.evicted = false) :
      (w.put t (m, .admitting next)).Inv :=
    h.admitting hold hmemory hgrows nofun fun hnext => ⟨rfl, hfirst hnext⟩
  have hlocal {next : AdmitPoint} := @hquiet _ next h.memory (.refl _)
  have hadmission {next : AdmitPoint} :=
    @hquiet _ next h.memory.admitIfUnderCap w.memory.grows_admission
  cases point with
  | start => exact hadmission fun _ => rfl
  | pass left => cases left <;> exact hlocal fun _ => rfl
  | scan left removedStale rest =>
    cases rest with
    | nil => cases removedStale <;> exact hlocal fun _ => rfl
    | cons entry rest => cases empty <;> exact hlocal fun _ => rfl
  | evict left removedStale entry rest =>
    have hevicted := h.memory.tryEvictEmpty (h.first t _ hold rfl) entry.id
    have hgrows := w.memory.grows_tryEvictEmpty t entry.id
    refine h.admitting hold hevicted hgrows ?_ fun hnext => ⟨?_, rfl⟩
    · cases (w.memory.tryEvictEmpty t entry.id).1 <;> simp
    · cases hresult : (w.memory.tryEvictEmpty t entry.id).1 with
      | none => rfl
      | some cancel => simp [hresult, AdmitPoint.evicted] at hnext
  | removeStale left entry rest =>
    exact hquiet (h.memory.removeNoDataLocked entry.id) (w.memory.grows_remove _) fun _ => rfl
  | retry left => exact hadmission fun _ => rfl
  | last evictCancel evictedEmpty => exact hadmission id
  | finish permit evictCancel evictedEmpty =>
    have hbusy : (w.setTask t .idle).busy = w.busy :=
      busy_setTask (fun p hp => by rw [hold] at hp; cases hp) fun p hp => by cases hp
    -- whether a connection is cancelled or none, only its token changes
    have hfinish {m : AdmissionMemory} (hmemory : m.Inv w.busy)
        (hpermits : m.permits = w.memory.permits) (htrace : m.trace = w.memory.trace) :
        (w.put t (m.log (.returned t ⟨permit, evictedEmpty⟩), .idle)).Inv := by
      refine h.setTask (hbusy ▸ hmemory.log trivial (fun _ => rfl) rfl fun _ _ => rfl)
        (Nat.le_of_eq (congrArg List.length hpermits.symm)) (fun p hp => by cases hp)
        (fun p hp => by cases hp) (fun t' _ => ?_) fun _ hnext => by cases hnext
      simp [AdmissionMemory.log, htrace, AdmissionEvent.onEvictions]
    cases evictCancel with
    | none => exact hfinish h.memory rfl rfl
    | some token =>
      exact @hfinish (w.memory.cancel token)
        ⟨h.memory.counts, h.memory.queue, h.memory.justified⟩ rfl rfl

theorem idle {t : Nat} {m : AdmissionMemory} (hmemory : m.Inv (w.setTask t .idle).busy)
    (hgrows : w.memory.Grows none m) : (w.put t (m, .idle)).Inv :=
  h.setTask hmemory hgrows.permits (fun _ hp => nomatch hp) (fun _ hp => nomatch hp)
    (fun _ _ => hgrows.evictionsInCall nofun) fun _ hnext => nomatch hnext

/-- A permit that is dropped is taken off the count, unless it was before. -/
theorem advance_drop {t : Nat} {p : TcpAdmissionPermit} (hold : w.tasks t = .drop p)
    (empty : Bool) : (w.put t ((AdmissionTask.drop p).advance w.memory t empty)).Inv := by
  obtain ⟨i, hi, rfl⟩ := h.held t p (by rw [hold]; rfl)
  cases hflag : w.memory.released i with
  | true =>
    have hbusy : (w.setTask t .idle).busy = w.busy := busy_setTask (by simp [hold]) (by simp)
    -- no other task drops this permit, so it has been taken off the count
    have hgone : i ∈ subtractions w.memory.trace := by
      refine (h.memory.counts.settled i hi hflag).resolve_right ?_
      rintro ⟨t', ht'⟩
      have hsame := h.alone t' t (permitAt i) (by rw [ht']; rfl) (by rw [hold]; rfl)
      rw [hsame, hold] at ht'
      cases ht'
    have hlogged := (h.memory.swap_set hflag).log (show AdmissionEvent.Ok _ (.dropped i) from hgone)
      (fun _ => rfl) rfl fun _ _ => rfl
    have hadvanced : (AdmissionTask.drop (permitAt i)).advance w.memory t empty =
        ((w.memory.swapReleased i).2.log (.dropped i), .idle) := if_pos hflag
    rw [hadvanced]
    exact h.idle (hbusy ▸ hlogged) ((w.memory.grows_swap i).trans (.log _ trivial))
  | false =>
    have hbusy := @busy_swapped w t i (by simp [hold])
    have hadvanced : (AdmissionTask.drop (permitAt i)).advance w.memory t empty =
        ((w.memory.swapReleased i).2, .subtract (permitAt i)) := by
      refine if_neg ?_
      show ¬w.memory.released i = true
      rw [hflag]
      exact Bool.false_ne_true
    rw [hadvanced]
    refine h.setTask (hbusy ▸ h.memory.swap hi hflag) (Nat.le_refl _) (fun q hq => ?_)
      (fun q hq => ?_) (fun _ _ => rfl) fun _ hp => by cases hp
    · exact ⟨i, hi, (Option.some.inj hq).symm⟩
    · rw [hold, ← hq]
      rfl

theorem advance_subtract {t : Nat} {p : TcpAdmissionPermit} (hold : w.tasks t = .subtract p)
    (empty : Bool) :
    (w.put t ((AdmissionTask.subtract p).advance w.memory t empty)).Inv := by
  obtain ⟨i, hi, rfl⟩ := h.held t p (by rw [hold]; rfl)
  have hbusy := h.busy_subtracted hold
  have hsubtracted := h.memory.subtract ⟨t, hold⟩
  have hlogged := hsubtracted.log (show AdmissionEvent.Ok _ (.dropped i) from by
    simp [AdmissionEvent.Ok, AdmissionMemory.subtract, AdmissionMemory.log,
      AdmissionEvent.subtracts, permitAt]) (fun _ => rfl) rfl fun _ _ => rfl
  exact h.idle (hbusy ▸ hlogged) ((w.memory.grows_subtract _).trans (.log _ trivial))

theorem advance (t : Nat) (empty : Bool) : (w.step (.advance t empty)).Inv := by
  have hquiet {next : AdmissionTask} (hold : ∀ p, w.tasks t ≠ .subtract p)
      (hnext : ∀ p, next ≠ .subtract p) : w.memory.Inv (w.setTask t next).busy :=
    busy_setTask hold hnext ▸ h.memory
  have hidle (hold : ∀ p, w.tasks t ≠ .subtract p) : (w.setTask t .idle).busy = w.busy :=
    busy_setTask hold (by simp)
  show (w.put t ((w.tasks t).advance w.memory t empty)).Inv
  cases hold : w.tasks t with
  | idle =>
    have hbusy := hidle (by simp [hold])
    exact h.idle (hbusy ▸ h.memory) (.refl _)
  | admitting point => exact h.advance_admission hold empty
  | look p =>
    -- After the look the task marks the permit, either way; it still holds it.
    have hlooked {next : AdmissionTask} (hnext : ∀ p, next ≠ .subtract p)
        (hpermit : next.permit = some p) (hdropping : next.dropping = none)
        (hpoint : ∀ point, next ≠ .admitting point) :
        (w.put t (w.memory, next)).Inv := by
      refine h.setTask (hquiet (by simp [hold]) hnext) (Nat.le_refl _) (fun q hq => ?_)
        (fun q hq => ?_) (fun _ _ => rfl) fun point hp => absurd hp (hpoint point)
      · rw [hpermit] at hq
        exact h.held t q (by rw [hold, ← hq]; rfl)
      · rw [hdropping] at hq
        cases hq
    cases empty with
    | true => exact @hlooked (.markEmpty p) (by simp) rfl rfl (by simp)
    | false => exact @hlooked (.markDataSeen p) (by simp) rfl rfl (by simp)
  | markEmpty p =>
    obtain ⟨i, hi, rfl⟩ := h.held t p (by rw [hold]; rfl)
    have hbusy := hidle (by simp [hold])
    exact h.idle (hbusy ▸ h.memory.markEmpty hi) (w.memory.grows_markEmpty _)
  | markDataSeen p =>
    obtain ⟨i, -, rfl⟩ := h.held t p (by rw [hold]; rfl)
    have hbusy := hidle (by simp [hold])
    exact h.idle (hbusy ▸ @AdmissionMemory.Inv.markDataSeen _ _ i h.memory)
      (w.memory.grows_markDataSeen _)
  | drop p => exact h.advance_drop hold empty
  | subtract p => exact h.advance_subtract hold empty

/-- The permits that are handed to calls are those that were created. -/
theorem permitOf_spec {i : Nat} {p : TcpAdmissionPermit} (hp : w.permitOf i = some p) :
    i < w.memory.permits.length ∧ p = permitAt i ∧ w.surrendered i = false := by
  unfold permitOf at hp
  split at hp
  · cases hp
  · rename_i hkept
    exact ⟨(List.getElem?_eq_some_iff.mp hp).1, h.memory.counts.named i p hp, by simpa using hkept⟩

theorem call (t : Nat) (hold : w.tasks t = .idle) (c : AdmissionCall) : (w.call t c).Inv := by
  have hquiet {next : AdmissionTask} (hnext : ∀ p, next ≠ .subtract p) :
      w.memory.Inv (w.setTask t next).busy := by
    have hbusy : (w.setTask t next).busy = w.busy := busy_setTask (by simp [hold]) hnext
    exact hbusy ▸ h.memory
  -- The calls that only mark a permit leave the memory as it is.
  have hmark {next : AdmissionTask} {i : Nat} {p : TcpAdmissionPermit}
      (hp : w.permitOf i = some p) (hnext : ∀ p, next ≠ .subtract p)
      (hpermit : next.permit = some p) (hdropping : next.dropping = none)
      (hpoint : ∀ point, next ≠ .admitting point) : (w.put t (w.memory, next)).Inv := by
    obtain ⟨hi, hp, -⟩ := h.permitOf_spec hp
    refine h.setTask (hquiet hnext) (Nat.le_refl _) (fun q hq => ?_) (fun q hq => ?_)
      (fun _ _ => rfl) fun point hp => absurd hp (hpoint point)
    · rw [hpermit, hp] at hq
      exact ⟨i, hi, (Option.some.inj hq).symm⟩
    · rw [hdropping] at hq
      cases hq
  cases c with
  | admitOrEvictEmpty =>
    have hlogged := (@hquiet (.admitting .start) (by simp)).log
      (show AdmissionEvent.Ok _ (.called t) from trivial) (fun _ => rfl) rfl fun _ _ => rfl
    refine h.setTask hlogged (Nat.le_refl _) (fun _ hp => by cases hp) (fun _ hp => by cases hp)
      (fun t' ht' => ?_) fun _ _ _ => ?_
    · simp [AdmissionEvent.onEvictions, Ne.symm ht']
    · simp [AdmissionEvent.onEvictions]
  | markNoDataIfEmpty i =>
    cases hp : w.permitOf i with
    | none =>
      simp only [AdmissionWorld.call, hp]
      exact h
    | some p =>
      simp only [AdmissionWorld.call, hp]
      exact @hmark (.look p) i p hp (by simp) rfl rfl (by simp)
  | markDataSeen i =>
    cases hp : w.permitOf i with
    | none =>
      simp only [AdmissionWorld.call, hp]
      exact h
    | some p =>
      simp only [AdmissionWorld.call, hp]
      exact @hmark (.markDataSeen p) i p hp (by simp) rfl rfl (by simp)
  | drop i =>
    cases hp : w.permitOf i with
    | none =>
      simp only [AdmissionWorld.call, hp]
      exact h
    | some p =>
      obtain ⟨hi, rfl, hkept⟩ := h.permitOf_spec hp
      simp only [AdmissionWorld.call, hp]
      refine @update w h t (.drop (permitAt i)) w.memory _ (hquiet (by simp)) (Nat.le_refl _)
        (fun q hq => ⟨i, hi, (Option.some.inj hq).symm⟩) (fun j hj => ?_) (fun q hq => ?_)
        (fun _ _ => rfl) fun _ hp => by cases hp
      · by_cases hji : j = i
        · rw [hji, Function.update_self]
        · rwa [Function.update_of_ne hji]
      · obtain rfl : permitAt i = q := Option.some.inj hq
        -- A permit that another task drops was given up before, and this one was not.
        refine ⟨Function.update_self .., fun t' _ hother => ?_⟩
        have hgiven : w.surrendered i = true := h.surrendered t' _ hother
        rw [hkept] at hgiven
        cases hgiven

theorem step (move : AdmissionMove) : (w.step move).Inv := by
  cases move with
  | call t c =>
    unfold AdmissionWorld.step
    dsimp only
    split
    · exact h.call t (by assumption) c
    · exact h
  | advance t empty => exact h.advance t empty

theorem run (moves : List AdmissionMove) : (w.run moves).Inv := by
  induction moves generalizing w with
  | nil => exact h
  | cons move moves ih => exact ih (h.step move)

end Inv

/-! ## One task that admits -/

/-- Only this task admits. Once it has evicted there is room until it admits
again, since the steps of the others never raise the count. -/
structure Lone (task : Nat) (w : AdmissionWorld) : Prop where
  only : ∀ t point, w.tasks t = .admitting point → t = task
  room : ∀ evictCancel, w.tasks task = .admitting (.last evictCancel true) →
    w.memory.state.active < w.memory.cap
  given : ∀ permit evictCancel, w.tasks task = .admitting (.finish permit evictCancel true) →
    permit.isSome
  returned : ∀ t permit, .returned t ⟨permit, true⟩ ∈ w.memory.trace → permit.isSome

namespace Lone

variable {task : Nat}

theorem new (task cap : Nat) : (AdmissionWorld.new cap).Lone task where
  only := fun _ _ h => nomatch h
  room := fun _ h => nomatch h
  given := fun _ _ h => nomatch h
  returned := fun _ _ h => nomatch h

theorem other (h : w.Lone task) {t : Nat} {m : AdmissionMemory} {next : AdmissionTask}
    (hold : ∀ point, w.tasks t ≠ .admitting point) (hnext : ∀ point, next ≠ .admitting point)
    (hactive : m.state.active ≤ w.memory.state.active) (hgrows : w.memory.Grows none m) :
    (w.put t (m, next)).Lone task := by
  have hsame : ∀ t' point, (w.put t (m, next)).tasks t' = .admitting point →
      w.tasks t' = .admitting point := by
    intro t' point ht'
    by_cases heq : t' = t
    · subst heq
      exact absurd ((setTask_self t' next).symm.trans ht') (hnext point)
    · exact (setTask_of_ne heq next).symm.trans ht'
  constructor
  case only => exact fun t' point ht' => h.only t' point (hsame t' point ht')
  case room =>
    intro evictCancel ht
    have hroom := h.room evictCancel (hsame _ _ ht)
    have hcap := hgrows.cap
    show m.state.active < m.cap
    omega
  case given => exact fun permit evictCancel ht => h.given permit evictCancel (hsame _ _ ht)
  case returned => exact fun t' permit hmem => h.returned t' permit (hgrows.returned hmem)

theorem own (h : w.Lone task) {m : AdmissionMemory} {next : AdmissionTask}
    (hroom : ∀ evictCancel, next = .admitting (.last evictCancel true) → m.state.active < m.cap)
    (hgiven : ∀ permit evictCancel, next = .admitting (.finish permit evictCancel true) →
      permit.isSome)
    (htrace : ∀ t permit, .returned t ⟨permit, true⟩ ∈ m.trace →
      .returned t ⟨permit, true⟩ ∈ w.memory.trace ∨ permit.isSome) :
    (w.put task (m, next)).Lone task := by
  have hself : (w.put task (m, next)).tasks task = next := setTask_self task next
  constructor
  case only =>
    intro t' point ht'
    by_contra heq
    exact heq (h.only t' point ((setTask_of_ne heq next).symm.trans ht'))
  case room => exact fun evictCancel ht => hroom evictCancel (hself.symm.trans ht)
  case given => exact fun permit evictCancel ht => hgiven permit evictCancel (hself.symm.trans ht)
  case returned =>
    intro t' permit hmem
    exact (htrace t' permit hmem).elim (h.returned t' permit) id

theorem advance_admission (h : w.Lone task) (hinv : w.Inv) {point : AdmitPoint}
    (hold : w.tasks task = .admitting point) (empty : Bool) :
    (w.put task (point.advance w.memory task empty)).Lone task := by
  -- Points before an eviction: nothing is claimed about them.
  have hquiet {m : AdmissionMemory} {next : AdmitPoint} (hgrows : w.memory.Grows none m)
      (hevicted : next.evicted = false) : (w.put task (m, .admitting next)).Lone task := by
    refine h.own (fun c hc => ?_) (fun p c hc => ?_) fun _ _ hmem => .inl (hgrows.returned hmem)
    · cases hc
      cases hevicted
    · cases hc
      cases hevicted
  have hlocal {next : AdmitPoint} := @hquiet _ next (.refl _)
  have hadmission {next : AdmitPoint} := @hquiet _ next w.memory.grows_admission
  cases point with
  | start =>
    refine hadmission ?_
    cases w.memory.admitIfUnderCap.1 <;> rfl
  | pass left => cases left <;> exact hlocal rfl
  | scan left removedStale rest =>
    cases rest with
    | nil => cases removedStale <;> exact hlocal rfl
    | cons entry rest => cases empty <;> exact hlocal rfl
  | evict left removedStale entry rest =>
    have hroom := @AdmissionMemory.Inv.evicted_room _ _ hinv.memory task entry.id
    refine h.own (fun c hc => ?_) (fun p c hc => ?_) fun _ _ hmem =>
      .inl ((w.memory.grows_tryEvictEmpty task entry.id).returned hmem)
    · refine hroom ?_
      cases hresult : (w.memory.tryEvictEmpty task entry.id).1 with
      | none => simp [hresult] at hc
      | some cancel => rfl
    · cases hresult : (w.memory.tryEvictEmpty task entry.id).1 <;> simp [hresult] at hc
  | removeStale left entry rest =>
    exact hquiet (w.memory.grows_remove _) rfl
  | retry left =>
    refine hadmission ?_
    cases w.memory.admitIfUnderCap.1 <;> rfl
  -- The eviction has made room and nobody else admits, so the last try succeeds.
  | last evictCancel evictedEmpty =>
    refine h.own (fun c hc => by cases hc) (fun p c hc => ?_) fun _ _ hmem =>
      .inl (w.memory.grows_admission.returned hmem)
    cases hc
    exact w.memory.admit_isSome (h.room _ hold)
  | finish permit evictCancel evictedEmpty =>
    refine h.own (fun c hc => by cases hc) (fun p c hc => by cases hc) fun t' p hmem => ?_
    have hlast : .returned t' ⟨p, true⟩ ∈ w.memory.trace ∨
        AdmissionEvent.returned t' ⟨p, true⟩ = .returned task ⟨permit, evictedEmpty⟩ := by
      cases evictCancel <;> simpa [AdmissionMemory.log, AdmissionMemory.cancel] using hmem
    refine hlast.imp_right fun heq => ?_
    cases heq
    exact h.given _ _ hold

theorem step (h : w.Lone task) (hinv : w.Inv) (move : AdmissionMove)
    (honly : ∀ t, move = .call t .admitOrEvictEmpty → t = task) : (w.step move).Lone task := by
  cases move with
  | call t c =>
    unfold AdmissionWorld.step
    dsimp only
    split
    case h_2 => exact h
    rename_i hold
    have hmark {next : AdmissionTask} (hnext : ∀ point, next ≠ .admitting point) :
        (w.put t (w.memory, next)).Lone task :=
      h.other (by simp [hold]) hnext (Nat.le_refl _) (.refl _)
    cases c with
    | admitOrEvictEmpty =>
      -- No other task starts an admission.
      obtain rfl := honly t rfl
      refine h.own (fun c hc => nomatch hc) (fun p c hc => nomatch hc) fun _ _ hmem => .inl ?_
      simpa [AdmissionMemory.log] using hmem
    | markNoDataIfEmpty i =>
      cases hp : w.permitOf i <;> simp only [AdmissionWorld.call, hp]
      · exact h
      · exact hmark (by simp)
    | markDataSeen i =>
      cases hp : w.permitOf i <;> simp only [AdmissionWorld.call, hp]
      · exact h
      · exact hmark (by simp)
    | drop i =>
      cases hp : w.permitOf i <;> simp only [AdmissionWorld.call, hp]
      · exact h
      · rename_i p
        have hdropped := @hmark (.drop p) (by simp)
        exact ⟨hdropped.only, hdropped.room, hdropped.given, hdropped.returned⟩
  | advance t empty =>
    show (w.put t ((w.tasks t).advance w.memory t empty)).Lone task
    cases hold : w.tasks t with
    | idle =>
      exact h.other (by simp [hold]) (by simp) (Nat.le_refl _) (.refl _)
    | admitting point =>
      obtain rfl := h.only t point hold
      exact h.advance_admission hinv hold empty
    | look p =>
      cases empty <;> exact h.other (by simp [hold]) (by simp) (Nat.le_refl _) (.refl _)
    | markEmpty p =>
      exact h.other (by simp [hold]) (by simp) (w.memory.active_markEmpty p).le
        (w.memory.grows_markEmpty p)
    | markDataSeen p =>
      exact h.other (by simp [hold]) (by simp) (w.memory.active_markDataSeen p).le
        (w.memory.grows_markDataSeen p)
    | drop p =>
      unfold AdmissionTask.advance
      dsimp only
      split
      · exact h.other (by simp [hold]) (by simp) (Nat.le_refl _)
          ((w.memory.grows_swap _).trans (.log _ trivial))
      · exact h.other (by simp [hold]) (by simp) (Nat.le_refl _) (w.memory.grows_swap _)
    | subtract p =>
      exact h.other (by simp [hold]) (by simp) (Nat.sub_le _ _)
        ((w.memory.grows_subtract p).trans (.log _ trivial))

theorem run (h : w.Lone task) (hinv : w.Inv) {moves : List AdmissionMove}
    (honly : ∀ t, .call t .admitOrEvictEmpty ∈ moves → t = task) : (w.run moves).Lone task := by
  induction moves generalizing w with
  | nil => exact h
  | cons move moves ih =>
    have hstep := h.step hinv move fun t heq => honly t (heq ▸ List.mem_cons_self)
    exact ih hstep (hinv.step move) fun t hmem => honly t (List.mem_cons_of_mem _ hmem)

end Lone

/-! ## What the record of a run says -/

theorem mem_subtractions_of_evicted {trace : List AdmissionEvent} {t i : Nat}
    (h : .evicted t i ∈ trace) : i ∈ subtractions trace :=
  List.mem_filterMap.mpr ⟨_, h, rfl⟩

theorem evictionsInCall_le {trace : List AdmissionEvent} (h : Justified trace) (task : Nat) :
    evictionsInCall task trace ≤ 1 := by
  induction trace using List.reverseRecOn with
  | nil => exact Nat.zero_le _
  | append_singleton trace event ih =>
    have hbefore := ih fun pre e post hsplit => h pre e (post ++ [event]) (by simp [hsplit])
    have hok := h trace event [] rfl
    rw [evictionsInCall_concat]
    cases event with
    | evicted t i =>
      by_cases heq : t = task
      · subst heq
        simp [AdmissionEvent.onEvictions, hok.2.2]
      · simpa [AdmissionEvent.onEvictions, heq] using hbefore
    | called t =>
      by_cases heq : t = task
      · simp [AdmissionEvent.onEvictions, heq]
      · simpa [AdmissionEvent.onEvictions, heq] using hbefore
    | _ => exact hbefore

/-- After data has been seen, only a mark makes the permit empty again. -/
theorem markedEmpty_mem {i : Nat} {pre mid : List AdmissionEvent}
    (h : emptySince i (pre ++ .dataSeen i :: mid) = true) : .markedEmpty i ∈ mid := by
  induction mid using List.reverseRecOn with
  | nil => simp [AdmissionEvent.onEmpty] at h
  | append_singleton mid event ih =>
    rw [← List.cons_append, ← List.append_assoc, emptySince_concat] at h
    cases event with
    | markedEmpty j =>
      by_cases heq : j = i
      · simp [heq]
      · rw [AdmissionEvent.onEmpty, if_neg heq] at h
        exact List.mem_append_left _ (ih h)
    | dataSeen j =>
      by_cases heq : j = i
      · rw [AdmissionEvent.onEmpty, if_pos heq] at h
        cases h
      · rw [AdmissionEvent.onEmpty, if_neg heq] at h
        exact List.mem_append_left _ (ih h)
    | _ => exact List.mem_append_left _ (ih h)

theorem cap_advance (m : AdmissionMemory) (t : Nat) (empty : Bool) (task : AdmissionTask) :
    (task.advance m t empty).1.cap = m.cap := by
  have hadmission := m.grows_admission.cap
  cases task with
  | idle => rfl
  | look p => cases empty <;> rfl
  | markEmpty p => exact (m.grows_markEmpty p).cap
  | markDataSeen p => exact (m.grows_markDataSeen p).cap
  | drop p =>
    unfold AdmissionTask.advance
    dsimp only
    split <;> rfl
  | subtract p => rfl
  | admitting point =>
    cases point with
    | start => exact hadmission
    | pass left => cases left <;> rfl
    | scan left removedStale rest =>
      cases rest with
      | nil => cases removedStale <;> rfl
      | cons entry rest => cases empty <;> rfl
    | evict left removedStale entry rest => exact (m.grows_tryEvictEmpty t entry.id).cap
    | removeStale left entry rest => rfl
    | retry left => exact hadmission
    | last evictCancel evictedEmpty => exact hadmission
    | finish permit evictCancel evictedEmpty => cases evictCancel <;> rfl

theorem cap_run (w : AdmissionWorld) (moves : List AdmissionMove) :
    (w.run moves).memory.cap = w.memory.cap := by
  induction moves generalizing w with
  | nil => rfl
  | cons move moves ih =>
    refine (ih (w.step move)).trans ?_
    cases move with
    | advance t empty => exact cap_advance w.memory t empty (w.tasks t)
    | call t c =>
      unfold step
      dsimp only
      split
      · cases c with
        | admitOrEvictEmpty => rfl
        | markNoDataIfEmpty i => cases hp : w.permitOf i <;> simp [call, hp, setTask]
        | markDataSeen i => cases hp : w.permitOf i <;> simp [call, hp, setTask]
        | drop i => cases hp : w.permitOf i <;> simp [call, hp, setTask]
      · rfl

/-- However the steps of the tasks interleave, the count is that of the permits
that have been created and not taken off it, every permit is taken off once, the
list is well formed and holds only permits that may be evicted, and a call evicts
at most one connection. -/
theorem admission_control (cap : Nat) (moves : List AdmissionMove)
    (hfew : ((new cap).run moves).memory.permits.length < 2 ^ 64) :
    let m := ((new cap).run moves).memory
    (m.state.active + (subtractions m.trace).length = m.permits.length ∧
      m.state.active ≤ cap) ∧
    -- Each permit is taken off the count once, at the latest by its drop.
    ((subtractions m.trace).Nodup ∧ (∀ i ∈ subtractions m.trace, i < m.permits.length) ∧
      ∀ i, .dropped i ∈ m.trace → i ∈ subtractions m.trace) ∧
    m.state.noData.Lists (waiting m.trace) ∧
    (∀ i permit, m.permits[i]? = some permit → i ∈ subtractions m.trace →
      permit.id ∉ waiting m.trace) ∧
    -- Data that has been seen protects from eviction.
    (∀ task i pre mid post, m.trace = pre ++ .dataSeen i :: mid ++ .evicted task i :: post →
      .markedEmpty i ∈ mid) ∧
    (∀ i pre post, m.trace = pre ++ .markedEmpty i :: post ∨ m.trace = pre ++ .dataSeen i :: post →
      ∀ task, .evicted task i ∉ pre) ∧
    (∀ task, evictionsInCall task m.trace ≤ 1) ∧
    ((∃ task, ∀ t, .call t .admitOrEvictEmpty ∈ moves → t = task) →
      ∀ t permit, .returned t ⟨permit, true⟩ ∈ m.trace → permit.isSome) := by
  have hinv := (inv_new cap).run moves
  have hcounts := hinv.memory.counts
  have hjustified := hinv.memory.justified
  have hcap : ((new cap).run moves).memory.cap = cap := cap_run _ moves
  refine ⟨⟨hcounts.total, Nat.le_trans hcounts.capped (Nat.le_of_eq hcap)⟩,
    ⟨hcounts.once, fun i hi => (hcounts.flagged i hi).1, fun i hdropped => ?_⟩,
    hinv.memory.queue.lists, fun i permit hpermit hgone hwaits => ?_,
    fun task i pre mid post htrace => ?_, fun i pre post htrace task hevicted => ?_,
    evictionsInCall_le hjustified, fun ⟨task, honly⟩ => ?_⟩
  · obtain ⟨pre, post, htrace⟩ := List.append_of_mem hdropped
    have hgone : i ∈ subtractions pre := hjustified pre _ post htrace
    rw [htrace, subtractions, List.filterMap_append]
    exact List.mem_append_left _ hgone
  · obtain rfl := hcounts.named i permit hpermit
    obtain ⟨entry, hentry⟩ := Option.isSome_iff_exists.mp
      (hinv.memory.queue.lists.item_isSome.mpr hwaits)
    obtain ⟨j, hj, hid, -, hfresh, -⟩ := hinv.memory.queue.entries _ entry hentry
    have hi := (List.getElem?_eq_some_iff.mp hpermit).1
    obtain rfl := Lib.U64.ofNat_inj (Nat.le_of_lt hfew) hi hj hid
    exact hfresh hgone
  · have hok := hjustified (pre ++ .dataSeen i :: mid) _ post htrace
    exact markedEmpty_mem hok.2.1
  · have hfresh : i ∉ subtractions pre := by
      rcases htrace with htrace | htrace
      · exact hjustified pre _ post htrace
      · exact hjustified pre _ post htrace
    exact hfresh (mem_subtractions_of_evicted hevicted)
  · exact ((Lone.new task cap).run (inv_new cap) honly).returned

/-- With room for one connection, the second evicts the first, and the drop of
the first comes after that. -/
def evictingMoves : List AdmissionMove :=
  [.call 0 .admitOrEvictEmpty, .advance 0 false, .advance 0 false,
    .call 1 (.markNoDataIfEmpty 0), .advance 1 true, .advance 1 true,
    .call 0 .admitOrEvictEmpty, .advance 0 false, .advance 0 false, .advance 0 true,
    .call 1 (.drop 0), .advance 0 true, .advance 1 false, .advance 0 false, .advance 0 false]

theorem admission_control_evicting :
    ((new 1).run evictingMoves).memory.trace =
        [.called 0, .created 0, .returned 0 ⟨some ⟨0, 0, 0⟩, false⟩, .markedEmpty 0, .queued 0,
          .called 0, .unqueued 0, .evicted 0 0, .dropped 0, .created 1,
          .returned 0 ⟨some ⟨1, 1, 1⟩, true⟩] ∧
      ((new 1).run evictingMoves).memory.state.active = 1 := by
  have htrace : ((new 1).run evictingMoves).memory.trace =
      [.called 0, .created 0, .returned 0 ⟨some ⟨0, 0, 0⟩, false⟩, .markedEmpty 0, .queued 0,
        .called 0, .unqueued 0, .evicted 0 0, .dropped 0, .created 1,
        .returned 0 ⟨some ⟨1, 1, 1⟩, true⟩] := by decide +kernel
  have hpermits : ((new 1).run evictingMoves).memory.permits.length = 2 := by decide +kernel
  have hcontrol := admission_control 1 evictingMoves (by rw [hpermits]; decide)
  refine ⟨htrace, ?_⟩
  have htotal := hcontrol.1.1
  rw [htrace, hpermits] at htotal
  simpa [subtractions, AdmissionEvent.subtracts] using htotal

end AdmissionWorld

end Slt.Server
