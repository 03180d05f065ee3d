import Slt.Server.Admission
import Slt.Lib.U64

/-!
# Admission keeps its count and its list

The invariant has three parts. `Counts` relates the count to the permits and
their flags; `Queue` relates the list to the permits that may be evicted; and
`Justified` says of every event of the record what held when it happened. Each
section under the lock keeps all three, whatever the other tasks are doing.
-/

namespace Slt.Server

open Lib

/-- The permit with this flag, as long as the ids do not wrap around. -/
def permitAt (i : Nat) : TcpAdmissionPermit := ⟨UInt64.ofNat i, i, i⟩

def entryAt (i : Nat) : NoDataAdmission := ⟨UInt64.ofNat i, i, i⟩

/-! ## The count -/

/-- The permits of `busy` are between the swap of their drop and its lock. -/
structure Counts (cap active : Nat) (nextId : UInt64) (permits : List TcpAdmissionPermit)
    (released : Nat → Bool) (busy : Nat → Prop) (gone : List Nat) : Prop where
  next : nextId = UInt64.ofNat permits.length
  named : ∀ i p, permits[i]? = some p → p = permitAt i
  once : gone.Nodup
  flagged : ∀ i ∈ gone, i < permits.length ∧ released i = true
  between : ∀ i, busy i → i < permits.length ∧ released i = true ∧ i ∉ gone
  settled : ∀ i, i < permits.length → released i = true → i ∈ gone ∨ busy i
  total : active + gone.length = permits.length
  capped : active ≤ cap

namespace Counts

variable {cap active : Nat} {nextId : UInt64} {permits : List TcpAdmissionPermit}
  {released : Nat → Bool} {busy : Nat → Prop} {gone : List Nat} {i : Nat}

theorem new (cap : Nat) : Counts cap 0 0 [] (fun _ => false) (fun _ => False) [] where
  next := rfl
  named := fun _ _ h => by simp at h
  once := List.nodup_nil
  flagged := fun _ h => by simp at h
  between := fun _ h => h.elim
  settled := fun _ h => by simp at h
  total := rfl
  capped := Nat.zero_le _

variable (h : Counts cap active nextId permits released busy gone)
include h

theorem counted (hi : i < permits.length) (hgone : i ∉ gone) : 0 < active := by
  have hnodup : (i :: gone).Nodup := List.nodup_cons.mpr ⟨hgone, h.once⟩
  have hsubset : i :: gone ⊆ List.range permits.length := by
    intro j hj
    rcases List.mem_cons.mp hj with rfl | hj
    · exact List.mem_range.mpr hi
    · exact List.mem_range.mpr (h.flagged j hj).1
  have hlength := (List.subperm_of_subset hnodup hsubset).length_le
  rw [List.length_cons, List.length_range] at hlength
  have := h.total
  omega

theorem create (hroom : active < cap) :
    Counts cap (active + 1) (nextId + 1)
      (permits ++ [⟨nextId, permits.length, permits.length⟩])
      (Function.update released permits.length false) busy gone where
  next := by
    rw [h.next, List.length_append, List.length_singleton, UInt64.ofNat_add]
    rfl
  named := by
    intro j p hp
    rcases Nat.lt_trichotomy j permits.length with hj | rfl | hj
    · rw [List.getElem?_append_left hj] at hp
      exact h.named j p hp
    · rw [List.getElem?_append_right (Nat.le_refl _), Nat.sub_self] at hp
      cases hp
      rw [h.next]
      rfl
    · rw [List.getElem?_eq_none (by simp; omega)] at hp
      cases hp
  once := h.once
  flagged := by
    intro j hj
    obtain ⟨hlt, hreleased⟩ := h.flagged j hj
    rw [Function.update_of_ne (by omega), List.length_append]
    exact ⟨by omega, hreleased⟩
  between := by
    intro j hj
    obtain ⟨hlt, hreleased, hgone⟩ := h.between j hj
    rw [Function.update_of_ne (by omega), List.length_append]
    exact ⟨by omega, hreleased, hgone⟩
  settled := by
    intro j hj hreleased
    by_cases hjn : j = permits.length
    · rw [hjn, Function.update_self] at hreleased
      cases hreleased
    · rw [Function.update_of_ne hjn] at hreleased
      rw [List.length_append, List.length_singleton] at hj
      exact h.settled j (by omega) hreleased
  total := by
    have := h.total
    rw [List.length_append, List.length_singleton]
    omega
  capped := hroom

theorem swap (hi : i < permits.length) (hclear : released i = false) :
    Counts cap active nextId permits (Function.update released i true) (fun j => busy j ∨ j = i)
      gone where
  next := h.next
  named := h.named
  once := h.once
  flagged := fun j hj => ⟨(h.flagged j hj).1, by
    by_cases hji : j = i
    · rw [hji, Function.update_self]
    · rw [Function.update_of_ne hji]
      exact (h.flagged j hj).2⟩
  between := by
    rintro j (hj | rfl)
    · obtain ⟨hlt, hreleased, hgone⟩ := h.between j hj
      have hji : j ≠ i := by
        rintro rfl
        rw [hclear] at hreleased
        cases hreleased
      rw [Function.update_of_ne hji]
      exact ⟨hlt, hreleased, hgone⟩
    · rw [Function.update_self]
      refine ⟨hi, rfl, fun hgone => ?_⟩
      rw [(h.flagged j hgone).2] at hclear
      cases hclear
  settled := by
    intro j hj hreleased
    by_cases hji : j = i
    · exact .inr (.inr hji)
    · rw [Function.update_of_ne hji] at hreleased
      exact (h.settled j hj hreleased).imp_right .inl
  total := h.total
  capped := h.capped

theorem subtract (hbusy : busy i) :
    Counts cap (active - 1) nextId permits released (fun j => busy j ∧ j ≠ i) (gone ++ [i]) where
  next := h.next
  named := h.named
  once := by
    rw [List.nodup_append]
    refine ⟨h.once, List.nodup_singleton i, fun x hx y hy heq => (h.between i hbusy).2.2 ?_⟩
    rw [← List.mem_singleton.mp hy, ← heq]
    exact hx
  flagged := by
    intro j hj
    rcases List.mem_append.mp hj with hj | hj
    · exact h.flagged j hj
    · rw [List.mem_singleton.mp hj]
      exact ⟨(h.between i hbusy).1, (h.between i hbusy).2.1⟩
  between := by
    rintro j ⟨hj, hji⟩
    obtain ⟨hlt, hreleased, hgone⟩ := h.between j hj
    refine ⟨hlt, hreleased, ?_⟩
    rw [List.mem_append, List.mem_singleton, not_or]
    exact ⟨hgone, hji⟩
  settled := by
    intro j hj hreleased
    by_cases hji : j = i
    · exact .inl (by rw [hji]; simp)
    · exact (h.settled j hj hreleased).imp (List.mem_append_left _) fun hb => ⟨hb, hji⟩
  total := by
    have hactive := h.total
    have hcounted := h.counted (h.between i hbusy).1 (h.between i hbusy).2.2
    rw [List.length_append, List.length_singleton]
    omega
  capped := Nat.le_trans (Nat.sub_le _ _) h.capped

theorem evict (hi : i < permits.length) (hclear : released i = false) :
    Counts cap (active - 1) nextId permits (Function.update released i true) busy
      (gone ++ [i]) := by
  have hboth := (h.swap hi hclear).subtract (.inr rfl)
  have hbusy : (fun j => (busy j ∨ j = i) ∧ j ≠ i) = busy := by
    funext j
    refine propext ⟨fun hj => hj.1.resolve_right hj.2, fun hj => ⟨.inl hj, ?_⟩⟩
    rintro rfl
    rw [(h.between j hj).2.1] at hclear
    cases hclear
  rwa [hbusy] at hboth

end Counts

/-! ## The list -/

structure Queue (noData : LinkedMap UInt64 NoDataAdmission) (created : Nat)
    (waiting : List UInt64) (gone : List Nat) (empty : Nat → Bool) : Prop where
  lists : noData.Lists waiting
  entries : ∀ k entry, noData.item k = some entry → ∃ i, i < created ∧ k = UInt64.ofNat i ∧
    entry = entryAt i ∧ i ∉ gone ∧ empty i = true

namespace Queue

variable {noData : LinkedMap UInt64 NoDataAdmission} {created : Nat} {waiting : List UInt64}
  {gone : List Nat} {empty : Nat → Bool} {i : Nat}

theorem new : Queue .empty 0 [] [] (fun _ => false) where
  lists := LinkedMap.lists_empty
  entries := fun _ _ h => nomatch h

variable (h : Queue noData created waiting gone empty)
include h

theorem grow : Queue noData (created + 1) waiting gone empty where
  lists := h.lists
  entries := by
    intro k entry hk
    obtain ⟨i, hi, hrest⟩ := h.entries k entry hk
    exact ⟨i, Nat.lt_succ_of_lt hi, hrest⟩

theorem remove (k : UInt64) : Queue (noData.remove k).2 created (waiting.erase k) gone empty where
  lists := h.lists.remove k
  entries := by
    intro j entry hj
    rw [LinkedMap.item_remove] at hj
    by_cases hjk : j = k
    · rw [hjk, Function.update_self] at hj
      cases hj
    · rw [Function.update_of_ne hjk] at hj
      exact h.entries j entry hj

theorem insert (hi : i < created) (hgone : i ∉ gone) (hempty : empty i = true)
    (hnone : noData.nodes (UInt64.ofNat i) = none) :
    Queue (noData.pushBack (UInt64.ofNat i) (entryAt i)) created (waiting ++ [UInt64.ofNat i])
      gone empty where
  lists := by
    refine h.lists.pushBack (fun hin => ?_) _
    have hsome := h.lists.item_isSome.mpr hin
    simp [LinkedMap.item, hnone] at hsome
  entries := by
    intro k entry hk
    rw [LinkedMap.item_pushBack] at hk
    by_cases hki : k = UInt64.ofNat i
    · rw [hki, Function.update_self] at hk
      cases hk
      exact ⟨i, hi, hki, rfl, hgone, hempty⟩
    · rw [Function.update_of_ne hki] at hk
      exact h.entries k entry hk

theorem change {gone' : List Nat} {empty' : Nat → Bool}
    (hkept : ∀ j, UInt64.ofNat j ∈ waiting → j < created → j ∉ gone → empty j = true →
      j ∉ gone' ∧ empty' j = true) : Queue noData created waiting gone' empty' where
  lists := h.lists
  entries := by
    intro k entry hk
    obtain ⟨i, hi, rfl, hentry, hgone, hempty⟩ := h.entries k entry hk
    have hin : UInt64.ofNat i ∈ waiting := h.lists.item_isSome.mp (by rw [hk]; rfl)
    exact ⟨i, hi, rfl, hentry, hkept i hin hi hgone hempty⟩

end Queue

/-! ## The record -/

def AdmissionEvent.Ok (pre : List AdmissionEvent) : AdmissionEvent → Prop
  | .evicted task i => i ∉ subtractions pre ∧ emptySince i pre = true ∧ evictionsInCall task pre = 0
  | .markedEmpty i => i ∉ subtractions pre
  | .dataSeen i => i ∉ subtractions pre
  | .dropped i => i ∈ subtractions pre
  | _ => True

def Justified (trace : List AdmissionEvent) : Prop :=
  ∀ pre event post, trace = pre ++ event :: post → event.Ok pre

theorem Justified.concat {trace : List AdmissionEvent} {event : AdmissionEvent}
    (h : Justified trace) (hok : event.Ok trace) : Justified (trace ++ [event]) := by
  intro pre e post hsplit
  rcases append_eq_append_cons hsplit with ⟨mid, htrace, -⟩ | ⟨mid, hpre, hlast⟩
  · exact h pre e mid htrace
  · cases mid with
    | nil =>
      obtain ⟨rfl, -⟩ : event = e ∧ post = [] := by simpa [eq_comm] using hlast
      rw [hpre, List.append_nil]
      exact hok
    | cons x mid => simp at hlast

/-! ## The sections under the lock -/

namespace AdmissionMemory

def afterEviction (m : AdmissionMemory) (task : Nat) (id : UInt64) (flag : Nat) :
    AdmissionMemory :=
  ((m.removeNoDataLocked id).2.swapReleased flag).2.lowerActive.log (.evicted task flag)

theorem tryEvictEmpty_cases (m : AdmissionMemory) (task : Nat) (id : UInt64) :
    m.tryEvictEmpty task id = (none, m) ∨
    m.tryEvictEmpty task id = (none, (m.removeNoDataLocked id).2) ∨
    (∃ entry, m.state.noData.item id = some entry ∧ m.released entry.released = true ∧
      m.tryEvictEmpty task id =
        (none, ((m.removeNoDataLocked id).2.swapReleased entry.released).2)) ∨
    ∃ entry, m.state.noData.item id = some entry ∧ m.released entry.released = false ∧
      m.tryEvictEmpty task id =
        (some entry.cancel, m.afterEviction task id entry.released) := by
  unfold tryEvictEmpty
  split
  · exact .inl rfl
  have hfst : (m.removeNoDataLocked id).1 = m.state.noData.item id := LinkedMap.remove_fst _ _
  cases hentry : m.state.noData.item id with
  | none =>
    rw [hentry] at hfst
    rw [← Prod.eta (m.removeNoDataLocked id), hfst]
    exact .inr (.inl rfl)
  | some entry =>
    rw [hentry] at hfst
    rw [← Prod.eta (m.removeNoDataLocked id), hfst]
    have hflag : ((m.removeNoDataLocked id).2.swapReleased entry.released).1 =
        m.released entry.released := rfl
    dsimp only
    rw [← Prod.eta ((m.removeNoDataLocked id).2.swapReleased entry.released), hflag]
    cases hreleased : m.released entry.released with
    | true => exact .inr (.inr (.inl ⟨entry, rfl, hreleased, rfl⟩))
    | false => exact .inr (.inr (.inr ⟨entry, rfl, hreleased, rfl⟩))

structure Inv (busy : Nat → Prop) (m : AdmissionMemory) : Prop where
  counts : Counts m.cap m.state.active m.state.nextId m.permits m.released busy
    (subtractions m.trace)
  queue : Queue m.state.noData m.permits.length (waiting m.trace) (subtractions m.trace)
    (emptySince · m.trace)
  justified : Justified m.trace

theorem inv_new (cap : Nat) : (new cap).Inv (fun _ => False) where
  counts := .new cap
  queue := .new
  justified := fun pre event post h => by simp [new] at h

namespace Inv

variable {busy : Nat → Prop} {m : AdmissionMemory} {i : Nat}

variable (h : m.Inv busy)
include h

theorem log {event : AdmissionEvent} (hok : event.Ok m.trace)
    (hwaiting : ∀ ids, event.onWaiting ids = ids) (hsubtracts : event.subtracts = none)
    (hempty : ∀ i empty, event.onEmpty i empty = empty) : (m.log event).Inv busy where
  counts := by simpa [AdmissionMemory.log, hsubtracts] using h.counts
  queue := by simpa [AdmissionMemory.log, hsubtracts, hwaiting, hempty] using h.queue
  justified := h.justified.concat hok

theorem removeNoDataLocked (id : UInt64) : (m.removeNoDataLocked id).2.Inv busy where
  counts := by simpa [AdmissionMemory.removeNoDataLocked, AdmissionEvent.subtracts] using h.counts
  queue := by
    simpa [AdmissionMemory.removeNoDataLocked, AdmissionEvent.subtracts, AdmissionEvent.onWaiting,
      AdmissionEvent.onEmpty] using h.queue.remove id
  justified := h.justified.concat trivial

theorem admitIfUnderCap : m.admitIfUnderCap.2.Inv busy := by
  unfold AdmissionMemory.admitIfUnderCap
  split
  · rename_i hroom
    constructor
    case counts =>
      simpa [admitLocked, AdmissionEvent.subtracts] using h.counts.create hroom
    case queue =>
      simpa [admitLocked, AdmissionEvent.subtracts, AdmissionEvent.onWaiting,
        AdmissionEvent.onEmpty] using h.queue.grow
    case justified => exact h.justified.concat trivial
  · exact h

theorem not_gone (hclear : m.released i = false) : i ∉ subtractions m.trace := by
  intro hgone
  rw [(h.counts.flagged i hgone).2] at hclear
  cases hclear

theorem swap (hi : i < m.permits.length) (hclear : m.released i = false) :
    (m.swapReleased i).2.Inv (fun j => busy j ∨ j = i) where
  counts := h.counts.swap hi hclear
  queue := h.queue
  justified := h.justified

theorem swap_set (hset : m.released i = true) : (m.swapReleased i).2.Inv busy where
  counts := by
    have hsame : Function.update m.released i true = m.released := by
      rw [← hset, Function.update_eq_self]
    simpa [swapReleased, hsame] using h.counts
  queue := h.queue
  justified := h.justified

theorem removed (id : UInt64) : id ∉ waiting (m.removeNoDataLocked id).2.trace := by
  have htrace : waiting (m.removeNoDataLocked id).2.trace = (waiting m.trace).erase id := by
    simp [AdmissionMemory.removeNoDataLocked, AdmissionEvent.onWaiting]
  rw [htrace]
  exact h.queue.lists.nodup.not_mem_erase

theorem change (hout : UInt64.ofNat i ∉ waiting m.trace) {gone : List Nat} {empty : Nat → Bool}
    (hgone : ∀ j, j ≠ i → j ∉ subtractions m.trace → j ∉ gone)
    (hempty : ∀ j, j ≠ i → emptySince j m.trace = true → empty j = true) :
    Queue m.state.noData m.permits.length (waiting m.trace) gone empty := by
  refine h.queue.change fun j hj hlt hfresh hmarked => ?_
  have hji : j ≠ i := by
    rintro rfl
    exact hout hj
  exact ⟨hgone j hji hfresh, hempty j hji hmarked⟩

theorem change_gone (hout : UInt64.ofNat i ∉ waiting m.trace) :
    Queue m.state.noData m.permits.length (waiting m.trace) (subtractions m.trace ++ [i])
      (emptySince · m.trace) := by
  refine h.change hout (fun j hji hfresh => ?_) fun _ _ hempty => hempty
  rw [List.mem_append, List.mem_singleton, not_or]
  exact ⟨hfresh, hji⟩

theorem subtracted (hbusy : busy i) (hout : UInt64.ofNat i ∉ waiting m.trace) :
    (m.lowerActive.log (.subtracted i)).Inv (fun j => busy j ∧ j ≠ i) where
  counts := by
    simpa [AdmissionMemory.log, lowerActive, AdmissionEvent.subtracts] using h.counts.subtract hbusy
  queue := by
    have hqueue := h.change_gone hout
    simpa [AdmissionMemory.log, lowerActive, AdmissionEvent.subtracts, AdmissionEvent.onWaiting,
      AdmissionEvent.onEmpty] using hqueue
  justified := h.justified.concat trivial

theorem subtract (hbusy : busy i) : (m.subtract (permitAt i)).Inv (fun j => busy j ∧ j ≠ i) :=
  (h.removeNoDataLocked (UInt64.ofNat i)).subtracted hbusy (h.removed _)

theorem evicted (hi : i < m.permits.length) (hclear : m.released i = false)
    (hout : UInt64.ofNat i ∉ waiting m.trace)
    (hempty : emptySince i m.trace = true) {task : Nat}
    (hfirst : evictionsInCall task m.trace = 0) :
    ((m.swapReleased i).2.lowerActive.log (.evicted task i)).Inv busy where
  counts := by
    simpa [AdmissionMemory.log, lowerActive, swapReleased, AdmissionEvent.subtracts]
      using h.counts.evict hi hclear
  queue := by
    have hqueue := h.change_gone hout
    simpa [AdmissionMemory.log, lowerActive, swapReleased, AdmissionEvent.subtracts,
      AdmissionEvent.onWaiting, AdmissionEvent.onEmpty] using hqueue
  justified := h.justified.concat ⟨h.not_gone hclear, hempty, hfirst⟩

theorem tryEvictEmpty {task : Nat} (hfirst : evictionsInCall task m.trace = 0) (id : UInt64) :
    (m.tryEvictEmpty task id).2.Inv busy := by
  have hremoved := h.removeNoDataLocked id
  rcases m.tryEvictEmpty_cases task id with hevict | hevict | ⟨entry, -, hflag, hevict⟩ |
    ⟨entry, hentry, hflag, hevict⟩ <;> rw [hevict]
  · exact h
  · exact hremoved
  · exact hremoved.swap_set hflag
  · obtain ⟨i, hi, rfl, rfl, -, hempty⟩ := h.queue.entries id entry hentry
    refine hremoved.evicted hi hflag (h.removed _) ?_ ?_
    · simpa [AdmissionMemory.removeNoDataLocked, AdmissionEvent.onEmpty] using hempty
    · simpa [AdmissionMemory.removeNoDataLocked, AdmissionEvent.onEvictions] using hfirst

theorem evicted_room {task : Nat} {id : UInt64} (hevicted : (m.tryEvictEmpty task id).1.isSome) :
    (m.tryEvictEmpty task id).2.state.active < (m.tryEvictEmpty task id).2.cap := by
  rcases m.tryEvictEmpty_cases task id with hevict | hevict | ⟨entry, -, hflag, hevict⟩ |
    ⟨entry, hentry, hflag, hevict⟩ <;> rw [hevict] at hevicted ⊢
  · cases hevicted
  · cases hevicted
  · cases hevicted
  · obtain ⟨i, hi, -, -, hgone, -⟩ := h.queue.entries id entry hentry
    have hcounted := h.counts.counted hi hgone
    have hcapped := h.counts.capped
    show m.state.active - 1 < m.cap
    omega

theorem markedEmpty (hclear : m.released i = false) : (m.log (.markedEmpty i)).Inv busy where
  counts := by simpa [AdmissionMemory.log, AdmissionEvent.subtracts] using h.counts
  queue := by
    have hqueue : Queue m.state.noData m.permits.length (waiting m.trace) (subtractions m.trace)
        fun j => if i = j then true else emptySince j m.trace := by
      refine h.queue.change fun j _ _ hgone hempty => ⟨hgone, ?_⟩
      split
      · rfl
      · exact hempty
    simpa [AdmissionMemory.log, AdmissionEvent.subtracts, AdmissionEvent.onWaiting,
      AdmissionEvent.onEmpty] using hqueue
  justified := h.justified.concat (h.not_gone hclear)

theorem insertNoDataLocked (hi : i < m.permits.length) (hclear : m.released i = false)
    (hempty : emptySince i m.trace = true)
    (hnone : m.state.noData.nodes (UInt64.ofNat i) = none) :
    (m.insertNoDataLocked (entryAt i)).Inv busy where
  counts := by
    simpa [AdmissionMemory.insertNoDataLocked, AdmissionEvent.subtracts] using h.counts
  queue := by
    simpa [AdmissionMemory.insertNoDataLocked, AdmissionEvent.subtracts, AdmissionEvent.onWaiting,
      AdmissionEvent.onEmpty, entryAt] using h.queue.insert hi (h.not_gone hclear) hempty hnone
  justified := h.justified.concat trivial

theorem markEmpty (hi : i < m.permits.length) : (m.markEmpty (permitAt i)).2.Inv busy := by
  unfold AdmissionMemory.markEmpty
  split
  · exact h
  rename_i hclear
  rw [Bool.not_eq_true] at hclear
  have hmarked := h.markedEmpty hclear
  split
  · exact hmarked
  · rename_i hnone
    rw [Option.not_isSome_iff_eq_none] at hnone
    refine hmarked.insertNoDataLocked hi hclear ?_ hnone
    simp [AdmissionMemory.log, AdmissionEvent.onEmpty, permitAt]

theorem markDataSeen : (m.markDataSeen (permitAt i)).2.Inv busy := by
  unfold AdmissionMemory.markDataSeen
  split
  · exact h
  rename_i hclear
  rw [Bool.not_eq_true] at hclear
  have hremoved := h.removeNoDataLocked (permitAt i).id
  constructor
  case counts => simpa [AdmissionMemory.log, AdmissionEvent.subtracts] using hremoved.counts
  case queue =>
    have hqueue : Queue _ _ _ _ fun j => if i = j then false else emptySince j
        (m.removeNoDataLocked (permitAt i).id).2.trace :=
      hremoved.change (h.removed _) (fun _ _ hgone => hgone) fun j hji hempty => by
        rwa [if_neg (Ne.symm hji)]
    simpa [AdmissionMemory.log, AdmissionEvent.subtracts, AdmissionEvent.onWaiting,
      AdmissionEvent.onEmpty, permitAt] using hqueue
  case justified => exact hremoved.justified.concat (hremoved.not_gone hclear)

end Inv

end AdmissionMemory

end Slt.Server
