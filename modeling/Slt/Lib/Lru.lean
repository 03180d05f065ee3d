import Mathlib.Data.List.Nodup

/-!
# Least-recently-used caches

A cache of bounded size that lists its entries by recency, the most recently
used first. A key that is read or written moves to the front; a new key that
finds the cache full takes the place of the entry at the end.
-/

namespace Slt.Lib

structure Lru (κ ν : Type) where
  capacity : Nat
  entries : List (κ × ν)
  positive : 0 < capacity
  nodup : (entries.map Prod.fst).Nodup
  bounded : entries.length ≤ capacity

namespace Lru

variable {κ ν : Type} [DecidableEq κ]

def new (capacity : Nat) (positive : 0 < capacity) : Lru κ ν :=
  ⟨capacity, [], positive, List.nodup_nil, Nat.zero_le _⟩

def lookup (cache : Lru κ ν) (key : κ) : Option ν :=
  (cache.entries.find? fun entry => entry.1 = key).map Prod.snd

def others (entries : List (κ × ν)) (key : κ) : List (κ × ν) :=
  entries.filter fun entry => entry.1 ≠ key

theorem mem_others {entries : List (κ × ν)} {key : κ} {entry : κ × ν} :
    entry ∈ others entries key ↔ entry ∈ entries ∧ entry.1 ≠ key := by
  simp [others]

theorem others_nodup {entries : List (κ × ν)} (h : (entries.map Prod.fst).Nodup) (key : κ) :
    ((others entries key).map Prod.fst).Nodup :=
  h.sublist ((List.filter_sublist).map _)

theorem not_mem_others (entries : List (κ × ν)) (key : κ) :
    key ∉ (others entries key).map Prod.fst := by
  simp [others]

theorem length_others_lt {entries : List (κ × ν)} {key : κ} {value : ν}
    (h : (key, value) ∈ entries) : (others entries key).length < entries.length :=
  List.length_filter_lt_length_iff_exists.mpr ⟨_, h, by simp⟩

def erase (cache : Lru κ ν) (key : κ) : Lru κ ν where
  capacity := cache.capacity
  entries := others cache.entries key
  positive := cache.positive
  nodup := others_nodup cache.nodup key
  bounded := Nat.le_trans (List.length_filter_le _ _) cache.bounded

def pop (cache : Lru κ ν) (key : κ) : Option ν × Lru κ ν := (cache.lookup key, cache.erase key)

/-- What stays when a key is written: all other keys, or all but the last
when the key is new and the cache is full. -/
def kept (cache : Lru κ ν) (key : κ) : List (κ × ν) :=
  if (cache.lookup key).isNone ∧ cache.entries.length = cache.capacity then
    (others cache.entries key).dropLast
  else others cache.entries key

theorem lookup_eq_some {cache : Lru κ ν} {key : κ} {value : ν} :
    cache.lookup key = some value ↔ (key, value) ∈ cache.entries := by
  have hnodup := cache.nodup
  unfold lookup
  revert hnodup
  induction cache.entries with
  | nil => simp
  | cons entry entries ih =>
    obtain ⟨other, stored⟩ := entry
    intro hnodup
    rw [List.map_cons, List.nodup_cons] at hnodup
    by_cases heq : other = key
    · subst heq
      have hnew : (other, value) ∉ entries := fun h => hnodup.1 (List.mem_map.mpr ⟨_, h, rfl⟩)
      simp [List.find?_cons_of_pos, hnew, eq_comm]
    · have hne : (key, value) ≠ (other, stored) := fun h => heq (congrArg Prod.fst h).symm
      rw [List.find?_cons_of_neg (by simpa using heq), List.mem_cons, or_iff_right hne]
      exact ih hnodup.2

theorem lookup_eq_none {cache : Lru κ ν} {key : κ} :
    cache.lookup key = none ↔ ∀ value, (key, value) ∉ cache.entries := by
  rw [Option.eq_none_iff_forall_ne_some]
  exact forall_congr' fun value => not_congr lookup_eq_some

theorem length_kept (cache : Lru κ ν) (key : κ) : (cache.kept key).length < cache.capacity := by
  have hbounded := cache.bounded
  have hpositive := cache.positive
  have hle : (others cache.entries key).length ≤ cache.entries.length := List.length_filter_le _ _
  unfold kept
  split
  · rw [List.length_dropLast]
    omega
  · rename_i hroom
    cases h : cache.lookup key with
    | some value =>
      have := length_others_lt (lookup_eq_some.mp h)
      omega
    | none =>
      have hnotfull : cache.entries.length ≠ cache.capacity := fun hfull =>
        hroom ⟨by rw [h]; rfl, hfull⟩
      omega

theorem mem_of_mem_kept {cache : Lru κ ν} {key : κ} {entry : κ × ν} (h : entry ∈ cache.kept key) :
    entry ∈ cache.entries ∧ entry.1 ≠ key := by
  unfold kept at h
  split at h
  · exact mem_others.mp (List.dropLast_subset _ h)
  · exact mem_others.mp h

theorem kept_sublist (cache : Lru κ ν) (key : κ) :
    (cache.kept key).Sublist (others cache.entries key) := by
  unfold kept
  split
  · exact List.dropLast_sublist _
  · exact List.Sublist.refl _

/-- Write a key, which becomes the most recently used. The old value of the
key is returned; an entry that has to make room is not. -/
def put (cache : Lru κ ν) (key : κ) (value : ν) : Option ν × Lru κ ν :=
  (cache.lookup key,
    { capacity := cache.capacity
      entries := (key, value) :: cache.kept key
      positive := cache.positive
      nodup := by
        rw [List.map_cons, List.nodup_cons]
        have hsub := (cache.kept_sublist key).map Prod.fst
        exact ⟨fun h => not_mem_others _ _ (hsub.subset h),
          (others_nodup cache.nodup key).sublist hsub⟩
      bounded := cache.length_kept key })

/-- Change the value of a key, which becomes the most recently used. -/
def getMut (cache : Lru κ ν) (key : κ) (f : ν → ν) : Lru κ ν :=
  match cache.lookup key with
  | some value => (cache.put key (f value)).2
  | none => cache

/-! ## What the operations keep -/

variable {cache : Lru κ ν} {key other : κ} {value stored : ν}

@[simp] theorem capacity_getMut {f : ν → ν} : (cache.getMut key f).capacity = cache.capacity := by
  unfold getMut
  split <;> rfl

theorem lookup_erase :
    (cache.erase key).lookup other = if other = key then none else cache.lookup other := by
  split
  · rename_i heq
    subst heq
    rw [lookup_eq_none]
    exact fun value h => (mem_others.mp h).2 rfl
  · rename_i hne
    refine Option.ext fun value => ?_
    exact lookup_eq_some.trans ((mem_others.trans (and_iff_left hne)).trans lookup_eq_some.symm)

@[simp] theorem lookup_put_self : (cache.put key value).2.lookup key = some value :=
  lookup_eq_some.mpr List.mem_cons_self

theorem lookup_of_put (hne : other ≠ key) (h : (cache.put key value).2.lookup other = some stored) :
    cache.lookup other = some stored := by
  rcases List.mem_cons.mp (lookup_eq_some.mp h) with heq | hkept
  · exact absurd (congrArg Prod.fst heq) hne
  · exact lookup_eq_some.mpr (mem_of_mem_kept hkept).1

/-- With the key present, or room for a new one, no other key is lost. -/
theorem lookup_put_of_ne (hne : other ≠ key)
    (hroom : cache.lookup key = none → cache.entries.length < cache.capacity) :
    (cache.put key value).2.lookup other = cache.lookup other := by
  have hkept : cache.kept key = others cache.entries key := by
    refine if_neg fun ⟨hnone, hfull⟩ => ?_
    exact absurd hfull (Nat.ne_of_lt (hroom (Option.isNone_iff_eq_none.mp hnone)))
  refine Option.ext fun stored => ⟨lookup_of_put hne, fun h => ?_⟩
  refine lookup_eq_some.mpr (List.mem_cons_of_mem _ ?_)
  rw [hkept]
  exact mem_others.mpr ⟨lookup_eq_some.mp h, hne⟩

theorem lookup_getMut {f : ν → ν} :
    (cache.getMut key f).lookup other =
      if other = key then (cache.lookup key).map f else cache.lookup other := by
  unfold getMut
  by_cases heq : other = key
  · subst heq
    rw [if_pos rfl]
    cases h : cache.lookup other with
    | none => exact h
    | some value => exact lookup_put_self
  · rw [if_neg heq]
    cases h : cache.lookup key with
    | none => rfl
    | some value => exact lookup_put_of_ne heq (by simp [h])

theorem length_erase_lt (h : cache.lookup key = some value) :
    (cache.erase key).entries.length < (cache.erase key).capacity :=
  Nat.lt_of_lt_of_le (length_others_lt (lookup_eq_some.mp h)) cache.bounded

/-! ## Recency -/

/-- More recently used entries have later stamps. -/
def Stamped (stamp : ν → Nat) (cache : Lru κ ν) : Prop :=
  cache.entries.Pairwise fun newer older => stamp older.2 ≤ stamp newer.2

section Stamped

variable {stamp : ν → Nat}

omit [DecidableEq κ] in
theorem stamped_new (capacity : Nat) (positive : 0 < capacity) :
    Stamped stamp (new capacity positive : Lru κ ν) :=
  List.Pairwise.nil

theorem Stamped.erase (h : Stamped stamp cache) : Stamped stamp (cache.erase key) :=
  List.Pairwise.sublist List.filter_sublist h

/-- A key that is written with the latest stamp goes where it belongs. -/
theorem Stamped.put (h : Stamped stamp cache)
    (hlatest : ∀ entry ∈ cache.entries, entry.1 ≠ key → stamp entry.2 ≤ stamp value) :
    Stamped stamp (cache.put key value).2 := by
  refine List.pairwise_cons.mpr ⟨fun entry hentry => ?_, ?_⟩
  · obtain ⟨hmem, hne⟩ := mem_of_mem_kept hentry
    exact hlatest entry hmem hne
  · exact List.Pairwise.sublist ((cache.kept_sublist key).trans List.filter_sublist) h

theorem Stamped.le_of_dropped (h : Stamped stamp cache) {dropped entry : κ × ν}
    (hdropped : dropped ∈ cache.entries) (hne : dropped.1 ≠ key)
    (hgone : dropped ∉ (cache.put key value).2.entries) (hentry : entry ∈ cache.entries) :
    stamp dropped.2 ≤ stamp entry.2 := by
  have hothers : dropped ∈ others cache.entries key := mem_others.mpr ⟨hdropped, hne⟩
  have hkept : dropped ∉ cache.kept key := fun hmem => hgone (List.mem_cons_of_mem _ hmem)
  unfold kept at hkept
  split at hkept
  next hfull =>
    -- The key is new, so the other entries are all entries.
    have hall : others cache.entries key = cache.entries := by
      refine List.filter_eq_self.mpr fun other hother => ?_
      have := lookup_eq_none.mp (Option.isNone_iff_eq_none.mp hfull.1) other.2
      simp only [ne_eq, decide_not, Bool.not_eq_eq_eq_not, Bool.not_true, decide_eq_false_iff_not]
      rintro rfl
      exact this hother
    rw [hall] at hkept hothers
    rw [Stamped] at h
    rcases List.eq_nil_or_concat cache.entries with hnil | ⟨front, last, hconcat⟩
    · rw [hnil] at hentry
      cases hentry
    · rw [List.concat_eq_append] at hconcat
      rw [hconcat] at h hkept hothers hentry
      rw [List.dropLast_concat] at hkept
      have hlast : dropped = last := by simpa [hkept] using hothers
      rcases List.mem_append.mp hentry with hfront | hsame
      · exact hlast ▸ (List.pairwise_append.mp h).2.2 entry hfront last (List.mem_singleton_self _)
      · exact Nat.le_of_eq (by rw [hlast, List.mem_singleton.mp hsame])
  next => exact absurd hothers hkept

omit [DecidableEq κ] in
theorem eq_of_entries {cache cache' : Lru κ ν} (hcapacity : cache.capacity = cache'.capacity)
    (hentries : cache.entries = cache'.entries) : cache = cache' := by
  cases cache
  cases cache'
  simp_all

/-- Taking the most recently used entry out and writing it again changes
nothing. -/
theorem put_erase_head {entries : List (κ × ν)} (h : cache.entries = (key, value) :: entries) :
    ((cache.erase key).put key value).2 = cache := by
  have hnodup := cache.nodup
  rw [h, List.map_cons, List.nodup_cons] at hnodup
  have hrest : others entries key = entries := by
    refine List.filter_eq_self.mpr fun entry hentry => ?_
    simp only [ne_eq, decide_not, Bool.not_eq_eq_eq_not, Bool.not_true, decide_eq_false_iff_not]
    rintro rfl
    exact hnodup.1 (List.mem_map.mpr ⟨entry, hentry, rfl⟩)
  have hothers : others cache.entries key = entries := by
    rw [h, others, List.filter_cons_of_neg (by simp)]
    exact hrest
  have hkept : (cache.erase key).kept key = entries := by
    have hroom : (cache.erase key).entries.length < (cache.erase key).capacity :=
      length_erase_lt (lookup_eq_some.mpr (h ▸ List.mem_cons_self))
    rw [kept, if_neg fun hfull => Nat.ne_of_lt hroom hfull.2]
    exact (congrArg (others · key) hothers).trans hrest
  refine eq_of_entries rfl ?_
  rw [h, ← hkept]
  rfl

end Stamped

end Lru

end Slt.Lib
