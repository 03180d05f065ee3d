import Slt.Lib.Files
import Mathlib.Data.Fintype.Defs

/-!
# Processes that share a file

Processes take file operations in any order, one at a time, and none of them
fails. Some open the file at a path, lock its inode and change it in place; the
others replace it without a lock. As long as no process is between its first and
its last operation while one of the latter is, the runs are serialisable: the
file ends as if the processes had run one after the other, in the order in which
they ended.
-/

namespace Slt.Lib

inductive Proc (Path α : Type) where
  | waiting
  | running (rest : Prog Path α)
  | finished (a : α)

/-- The process has taken its first operation, and not yet its last. -/
def Proc.isRunning {Path α : Type} : Proc Path α → Bool
  | running _ => true
  | _ => false

def Proc.rest {Path α : Type} (job : Prog Path α) : Proc Path α → Option (Prog Path α)
  | waiting => some job
  | running rest => some rest
  | finished _ => none

def Proc.result {Path α : Type} : Proc Path α → Option α
  | finished a => some a
  | _ => none

theorem Proc.result_eq_some {Path α : Type} {proc : Proc Path α} {a : α} :
    proc.result = some a ↔ proc = .finished a := by
  cases proc <;> simp [result]

structure System (Path Pid α : Type) where
  files : Files Path Pid
  procs : Pid → Proc Path α

/-- The locks of a process go with the files it had open. -/
@[simps names data locks]
def Files.release {Path Pid : Type} [DecidableEq Pid] (files : Files Path Pid) (pid : Pid) :
    Files Path Pid :=
  { files with
    locks := fun inode => if files.locks inode = some pid then none else files.locks inode }

variable {Path Pid α : Type}

namespace System

variable [DecidableEq Pid]

def start (files : Files Path Pid) : System Path Pid α := ⟨files, fun _ => .waiting⟩

/-- The process goes on, with the files changed. -/
def put (s : System Path Pid α) (pid : Pid) (files : Files Path Pid) (proc : Proc Path α) :
    System Path Pid α :=
  ⟨files, Function.update s.procs pid proc⟩

@[simp] theorem procs_put (s : System Path Pid α) (pid : Pid) (files : Files Path Pid)
    (proc : Proc Path α) : (s.put pid files proc).procs pid = proc :=
  Function.update_self _ _ _

@[simp] theorem procs_put_of_ne (s : System Path Pid α) {pid p : Pid} (h : p ≠ pid)
    (files : Files Path Pid) (proc : Proc Path α) :
    (s.put pid files proc).procs p = s.procs p :=
  Function.update_of_ne h _ _

/-- The process has this left to do; with nothing left it ends. -/
def proceed (s : System Path Pid α) (pid : Pid) (files : Files Path Pid) :
    Prog Path α → System Path Pid α
  | .pure a => s.put pid (files.release pid) (.finished a)
  | .op o next => s.put pid files (.running (.op o next))

theorem procs_proceed_of_ne (s : System Path Pid α) {pid p : Pid} (h : p ≠ pid)
    (files : Files Path Pid) (rest : Prog Path α) :
    (s.proceed pid files rest).procs p = s.procs p := by
  cases rest <;> exact procs_put_of_ne s h _ _

variable [DecidableEq Path]

/-- A process takes an operation that succeeds. -/
def step (jobs : Pid → Prog Path α) (s : System Path Pid α) (pid : Pid) :
    Option (System Path Pid α) :=
  match (s.procs pid).rest (jobs pid) with
  | some (.pure a) => some (s.proceed pid s.files (.pure a))
  | some (.op o next) =>
    if o.blocked pid s.files then none
    else
      match o.exec pid s.files with
      | (.ok r, files) => some (s.proceed pid files (next (.ok r)))
      | (.error _, _) => none
  | none => none

/-- A process that runs alone has no other beside it. -/
def Exclusive (solo : Pid → Bool) (s : System Path Pid α) : Prop :=
  ∀ p q, solo p → (s.procs p).isRunning → (s.procs q).isRunning → q = p

instance [Fintype Pid] (solo : Pid → Bool) (s : System Path Pid α) : Decidable (s.Exclusive solo) :=
  inferInstanceAs (Decidable (∀ _ _, _ → _ → _ → _))

def run (jobs : Pid → Prog Path α) (schedule : List Pid) (s : System Path Pid α) :
    Option (System Path Pid α) :=
  schedule.foldlM (step jobs) s

/-- The states that the schedule passes through are exclusive. -/
def Apart (jobs : Pid → Prog Path α) (solo : Pid → Bool) : List Pid → System Path Pid α → Prop
  | [], s => s.Exclusive solo
  | pid :: schedule, s => s.Exclusive solo ∧
    match s.step jobs pid with
    | some s' => Apart jobs solo schedule s'
    | none => True

instance decidableApart [Fintype Pid] (jobs : Pid → Prog Path α) (solo : Pid → Bool) :
    (schedule : List Pid) → (s : System Path Pid α) → Decidable (Apart jobs solo schedule s)
  | [], s => inferInstanceAs (Decidable (s.Exclusive solo))
  | pid :: schedule, s =>
    have : Decidable (match s.step jobs pid with
        | some s' => Apart jobs solo schedule s'
        | none => True) :=
      match s.step jobs pid with
      | some s' => decidableApart jobs solo schedule s'
      | none => .isTrue trivial
    inferInstanceAs (Decidable (_ ∧ _))

end System

/-! ## What the processes do to the file -/

/-- The process has the file to itself, by its lock: what it reads is what it left there. Of
other files nothing is known. -/
def owning (path : Path) (inode : Inode) : Transformer Path Bytes
  | .lock _, _, _ => False
  | .createTruncated p, post, text => p ≠ path ∧ ∀ i ≠ inode, post (.ok i) text
  | .readToEnd i offset, post, text =>
    if i = inode then post (.ok (text.drop offset)) text else ∀ bytes, post (.ok bytes) text
  | .setLen i len, post, text => post (.ok ()) (if i = inode then resize text len else text)
  | .writeAll i offset bytes, post, text =>
    post (.ok ()) (if i = inode then patch text offset bytes else text)
  | o, post, text => o.SparesName path ∧ ∀ r, post (.ok r) text

section Locks

variable [DecidableEq Path]

theorem locks_exec {pid : Pid} {o : FileOp Path} {files files' : Files Path Pid}
    {r : Except FileError o.Result} (hlock : ∀ inode, o ≠ .lock inode)
    (hexec : o.exec pid files = (r, files')) {i : Inode} {p : Pid}
    (h : files'.locks i = some p) : files.locks i = some p := by
  obtain rfl : (o.exec pid files).2 = files' := congrArg Prod.snd hexec
  cases o with
  | lock inode => exact absurd rfl (hlock inode)
  | createTruncated p =>
    simp only [FileOp.exec] at h
    split at h
    · exact h
    · rw [Files.create_locks, Function.update_apply] at h
      split at h
      · cases h
      · exact h
  | openFile p | setPermissions p mode | rename source target | removeFile p =>
    simp only [FileOp.exec] at h
    split at h <;> exact h
  | _ => exact h

theorem locks_exec_of_named (pid : Pid) {o : FileOp Path} {files : Files Path Pid} {path : Path}
    {inode : Inode} (hnamed : files.names path = some inode) (hlock : ∀ i, o ≠ .lock i) :
    (o.exec pid files).2.locks inode = files.locks inode := by
  cases o with
  | lock i => exact absurd rfl (hlock i)
  | createTruncated p =>
    simp only [FileOp.exec]
    split
    · rfl
    · rw [Files.create_locks, Function.update_of_ne (Files.ne_next hnamed).symm]
  | openFile p | setPermissions p mode | rename source target | removeFile p =>
    simp only [FileOp.exec]
    split <;> rfl
  | _ => rfl

end Locks

section Owning

theorem mono_owning (path : Path) (inode : Inode) : (owning path inode).Mono := by
  intro o post post' text h howning
  cases o with
  | lock i => exact howning
  | createTruncated p => exact ⟨howning.1, fun i hi => h _ _ (howning.2 i hi)⟩
  | readToEnd i offset =>
    simp only [owning] at howning ⊢
    split at howning
    · rename_i hi
      rw [if_pos hi]
      exact h _ _ howning
    · rename_i hi
      rw [if_neg hi]
      exact fun bytes => h _ _ (howning bytes)
  | setLen i len | writeAll i offset bytes => exact h _ _ howning
  | _ => exact ⟨howning.1, fun r => h _ _ (howning.2 r)⟩

variable {path : Path} {inode : Inode} {o : FileOp Path}
  {post : Except FileError o.Result → Bytes → Prop} {text : Bytes}

theorem owning.not_lock (h : owning path inode o post text) (i : Inode) : o ≠ .lock i := by
  rintro rfl
  exact h

theorem owning.sparesName (h : owning path inode o post text) : o.SparesName path := by
  cases o with
  | createTruncated p => exact h.1
  | rename source target | removeFile p => exact h.1
  | _ => trivial

variable [DecidableEq Path]

theorem owning.exec {pid : Pid} {files files' : Files Path Pid} {r : o.Result}
    (h : owning path inode o post (files.data inode)) (hnamed : files.names path = some inode)
    (hexec : o.exec pid files = (.ok r, files')) : post (.ok r) (files'.data inode) := by
  have hspared : o.SparesData inode → files'.data inode = files.data inode := by
    intro hdata
    have hkept := FileOp.data_exec pid hnamed h.sparesName hdata
    rwa [hexec] at hkept
  cases o with
  | lock i => exact h.elim
  -- Another path names another file, so the contents here stay.
  | createTruncated p =>
    rw [hspared trivial]
    obtain ⟨i, hi, hr⟩ := FileOp.exec_createTruncated pid hnamed h.1
    rw [hexec] at hr
    cases hr
    exact h.2 _ hi
  | readToEnd i offset =>
    cases hexec
    simp only [owning] at h
    split at h
    · rename_i hi
      exact hi ▸ h
    · exact h _
  | setLen i len | writeAll i offset bytes =>
    simp only [owning] at h
    split at h
    · rename_i hi
      cases hexec
      subst hi
      rwa [Files.setData_data, Function.update_self]
    · rename_i hi
      rw [hspared hi]
      exact h
  | _ =>
    rw [hspared trivial]
    exact h.2 _

end Owning

/-! ## Serialisability -/

/-- The value after the processes one after the other, each with its result. -/
inductive Serial {C : Type} (effect : Pid → C → α → C → Prop) (c₀ : C) :
    List (Pid × α) → C → Prop
  | start : Serial effect c₀ [] c₀
  | next {log c pid a c'} : Serial effect c₀ log c → effect pid c a c' →
    Serial effect c₀ (log ++ [(pid, a)]) c'

def Prog.Twice (prog : Prog Path α) : Prop :=
  ∃ o next, prog = .op o next ∧ ∀ r, ∃ o' next', next (.ok r) = .op o' next'

section Sharing

variable {C : Type} (path : Path) (loads : Bytes → C → Prop) (effect : Pid → C → α → C → Prop)

/-- The program locks the file, and then has the effect on what the file holds. -/
def Enters (pid : Pid) (inode : Inode) (rest : Prog Path α) : Prop :=
  ∃ next, rest = .op (.lock inode) next ∧ ∀ text c, loads text c →
    (next (.ok ())).wp (owning path inode)
      (fun a text' => ∃ c', effect pid c a c' ∧ loads text' c') text

def Locks (pid : Pid) (rest : Prog Path α) : Prop :=
  ∃ next, rest = .op (.openFile path) next ∧
    ∀ inode, Enters path loads effect pid inode (next (.ok inode))

/-- How far a process is, while the file at the path is the inode. -/
inductive Stage (log : List (Pid × α)) (c : C) (inode : Inode) (files : Files Path Pid)
    (pid : Pid) : Proc Path α → Prop
  | waiting (hnew : pid ∉ log.map Prod.fst) (hfree : files.locks inode ≠ some pid) :
    Stage log c inode files pid .waiting
  | entering {rest} (hnew : pid ∉ log.map Prod.fst) (hfree : files.locks inode ≠ some pid)
    (hrest : Enters path loads effect pid inode rest) :
    Stage log c inode files pid (.running rest)
  | holding {rest} (hnew : pid ∉ log.map Prod.fst) (hlock : files.locks inode = some pid)
    (hrest : rest.wp (owning path inode)
      (fun a text => ∃ c', effect pid c a c' ∧ loads text c') (files.data inode)) :
    Stage log c inode files pid (.running rest)
  | finished {a} (hdone : (pid, a) ∈ log) (hfree : files.locks inode ≠ some pid) :
    Stage log c inode files pid (.finished a)

inductive Idle (log : List (Pid × α)) (pid : Pid) : Proc Path α → Prop
  | waiting (hnew : pid ∉ log.map Prod.fst) : Idle log pid .waiting
  | finished {a} (hdone : (pid, a) ∈ log) : Idle log pid (.finished a)

structure Shared (s : System Path Pid α) (log : List (Pid × α)) (c : C) (inode : Inode) : Prop where
  named : s.files.names path = some inode
  text : s.files.locks inode = none → loads (s.files.data inode) c
  held : ∀ i p, s.files.locks i = some p → i = inode
  stages : ∀ p, Stage path loads effect log c inode s.files p (s.procs p)

variable {path loads effect}

theorem Locks.twice {pid : Pid} {rest : Prog Path α} (h : Locks path loads effect pid rest) : rest.Twice := by
  obtain ⟨next, hop, henters⟩ := h
  refine ⟨_, next, hop, fun inode => ?_⟩
  obtain ⟨next', hlock, -⟩ := henters inode
  exact ⟨_, next', hlock⟩

section Stages

variable {log : List (Pid × α)} {c : C} {inode : Inode} {files files' : Files Path Pid} {pid : Pid}
  {proc : Proc Path α}

/-- A process without the lock depends neither on the file nor on its value. -/
theorem Stage.other {c' : C} (h : Stage path loads effect log c inode files pid proc)
    (hfree : files.locks inode ≠ some pid) (hfree' : files'.locks inode ≠ some pid) :
    Stage path loads effect log c' inode files' pid proc := by
  cases h with
  | waiting hnew _ => exact .waiting hnew hfree'
  | entering hnew _ hrest => exact .entering hnew hfree' hrest
  | holding _ hlock _ => exact absurd hlock hfree
  | finished hdone _ => exact .finished hdone hfree'

theorem not_mem_log_append {other : Pid} {a : α} (hnew : pid ∉ log.map Prod.fst)
    (hne : pid ≠ other) : pid ∉ (log ++ [(other, a)]).map Prod.fst := by
  simpa [hne] using hnew

theorem Stage.append {other : Pid} (h : Stage path loads effect log c inode files pid proc)
    (hne : pid ≠ other) (a : α) :
    Stage path loads effect (log ++ [(other, a)]) c inode files pid proc := by
  cases h with
  | waiting hnew hfree => exact .waiting (not_mem_log_append hnew hne) hfree
  | entering hnew hfree hrest => exact .entering (not_mem_log_append hnew hne) hfree hrest
  | holding hnew hlock hrest => exact .holding (not_mem_log_append hnew hne) hlock hrest
  | finished hdone hfree => exact .finished (List.mem_append_left _ hdone) hfree

theorem Idle.stage (h : Idle log pid proc) (hfree : files.locks inode ≠ some pid) :
    Stage path loads effect log c inode files pid proc := by
  cases h with
  | waiting hnew => exact .waiting hnew hfree
  | finished hdone => exact .finished hdone hfree

theorem Stage.idle (h : Stage path loads effect log c inode files pid proc)
    (hstill : ¬ proc.isRunning) : Idle log pid proc := by
  cases h with
  | waiting hnew _ => exact .waiting hnew
  | finished hdone _ => exact .finished hdone
  | _ => exact absurd rfl hstill

theorem Stage.isRunning (h : Stage path loads effect log c inode files pid proc)
    (hlock : files.locks inode = some pid) : proc.isRunning := by
  cases h with
  | waiting _ hfree | entering _ hfree _ | finished _ hfree =>
    exact absurd hlock hfree
  | holding => rfl

end Stages

section Processes

variable [DecidableEq Pid] {s : System Path Pid α} {pid : Pid} {log : List (Pid × α)} {c : C}

theorem Shared.put {inode : Inode} {files : Files Path Pid} {proc : Proc Path α}
    (h : Shared path loads effect s log c inode) (hnamed : files.names path = some inode)
    (htext : files.locks inode = none → loads (files.data inode) c)
    (hheld : ∀ i p, files.locks i = some p → i = inode)
    (hothers : ∀ p ≠ pid, Stage path loads effect log c inode s.files p (s.procs p) →
      Stage path loads effect log c inode files p (s.procs p))
    (hproc : Stage path loads effect log c inode files pid proc) :
    Shared path loads effect (s.put pid files proc) log c inode where
  named := hnamed
  text := htext
  held := hheld
  stages p := by
    by_cases hp : p = pid
    · subst hp
      rwa [System.procs_put]
    · rw [System.procs_put_of_ne s hp]
      exact hothers p hp (h.stages p)

variable {inode : Inode}

/-- The process that has the lock gives it up, with its effect on the file. -/
theorem Shared.finish (h : Shared path loads effect s log c inode) {files : Files Path Pid}
    (hnamed : files.names path = some inode) (hlock : files.locks inode = some pid)
    (hheld : ∀ i p, files.locks i = some p → i = inode)
    (hothers : ∀ p ≠ pid, Stage path loads effect log c inode s.files p (s.procs p) →
      Stage path loads effect log c inode files p (s.procs p))
    {a : α} {c' : C} (hloads : loads (files.data inode) c') :
    Shared path loads effect (s.put pid (files.release pid) (.finished a))
      (log ++ [(pid, a)]) c' inode := by
  have hfree : ∀ p, (files.release pid).locks inode ≠ some p := by
    intro p
    rw [Files.release_locks, if_pos hlock]
    nofun
  refine ⟨hnamed, fun _ => hloads, fun i p hp => ?_, fun p => ?_⟩
  · change (if files.locks i = some pid then none else files.locks i) = some p at hp
    split at hp
    · cases hp
    · exact hheld i p hp
  · by_cases hp : p = pid
    · subst hp
      rw [System.procs_put]
      exact .finished (List.mem_append_right _ (List.mem_singleton_self _)) (hfree p)
    · have hother : files.locks inode ≠ some p := by
        rw [hlock]
        exact fun heq => hp (Option.some.inj heq).symm
      rw [System.procs_put_of_ne s hp]
      exact ((hothers p hp (h.stages p)).other hother (hfree p)).append hp a

end Processes

/-! ## Alone -/

variable [DecidableEq Path]

/-- The process is the only one, and locks nothing. -/
def alone (pid : Pid) : Transformer Path (Files Path Pid) := fun o post files =>
  (∀ inode, o ≠ .lock inode) ∧
    ∀ r files', o.exec pid files = (.ok r, files') → post (.ok r) files'

theorem mono_alone (pid : Pid) : (alone pid : Transformer Path (Files Path Pid)).Mono :=
  fun _ _ _ _ h halone => ⟨halone.1, fun r files' hexec => h _ _ (halone.2 r files' hexec)⟩

variable (path loads effect)

/-- Where a process that runs alone leaves the file. -/
def Replaced (pid : Pid) (c : C) (a : α) (files : Files Path Pid) : Prop :=
  ∃ inode c', files.names path = some inode ∧ effect pid c a c' ∧ loads (files.data inode) c'

/-- The program takes at least two operations, and with no other process beside it has the
effect on what the file holds. -/
def Replaces (pid : Pid) (rest : Prog Path α) : Prop :=
  rest.Twice ∧
    ∀ files inode c, files.names path = some inode → loads (files.data inode) c →
      rest.wp (alone pid) (Replaced path loads effect pid c) files

structure Single (s : System Path Pid α) (log : List (Pid × α)) (c : C) (pid : Pid) : Prop where
  running : ∃ rest, s.procs pid = .running rest ∧
    rest.wp (alone pid) (Replaced path loads effect pid c) s.files
  new : pid ∉ log.map Prod.fst
  idle : ∀ p ≠ pid, Idle log p (s.procs p)
  free : ∀ i, s.files.locks i = none

/-- The processes that have ended, in their order, explain the file as far as it is settled. -/
def Settled (c₀ : C) (solo : Pid → Bool) (s : System Path Pid α) : Prop :=
  ∃ log c, Serial effect c₀ log c ∧ (log.map Prod.fst).Nodup ∧
    ((∃ inode, Shared path loads effect s log c inode) ∨
      ∃ pid, solo pid ∧ Single path loads effect s log c pid)

variable {path loads effect}

variable {c₀ : C} {solo : Pid → Bool}

theorem settled_start {inode : Inode} {files : Files Path Pid} (hfree : ∀ i, files.locks i = none)
    (hnamed : files.names path = some inode) (hloads : loads (files.data inode) c₀) :
    Settled path loads effect c₀ solo (System.start files : System Path Pid α) := by
  refine ⟨[], c₀, .start, List.nodup_nil, .inl ⟨inode, hnamed, fun _ => hloads, fun i p hp => ?_,
    fun p => .waiting List.not_mem_nil ?_⟩⟩
  · change files.locks i = some p at hp
    rw [hfree] at hp
    cases hp
  · change files.locks inode ≠ some p
    rw [hfree]
    nofun

/-- When all have ended, the file is what the processes make of it one after the other. -/
theorem Settled.serial {s : System Path Pid α} (h : Settled path loads effect c₀ solo s)
    (hdone : ∀ p, ∃ a, s.procs p = .finished a) :
    ∃ log c inode, Serial effect c₀ log c ∧ (log.map Prod.fst).Nodup ∧
      (∀ p a, s.procs p = .finished a → (p, a) ∈ log) ∧
      s.files.names path = some inode ∧ loads (s.files.data inode) c := by
  obtain ⟨log, c, hserial, hnodup, ⟨inode, hshared⟩ | ⟨p, -, hsingle⟩⟩ := h
  · refine ⟨log, c, inode, hserial, hnodup, fun p a hp => ?_, hshared.named, hshared.text ?_⟩
    · have hstage := hshared.stages p
      rw [hp] at hstage
      cases hstage with
      | finished hmem _ => exact hmem
    · by_contra hlock
      obtain ⟨p, hp⟩ := Option.ne_none_iff_exists'.mp hlock
      obtain ⟨a, ha⟩ := hdone p
      have hrunning := (hshared.stages p).isRunning hp
      rw [ha] at hrunning
      cases hrunning
  · obtain ⟨rest, hproc, -⟩ := hsingle.running
    obtain ⟨a, ha⟩ := hdone p
    rw [ha] at hproc
    cases hproc

variable [DecidableEq Pid] {jobs : Pid → Prog Path α}
  {s s' : System Path Pid α} {pid : Pid} {log : List (Pid × α)} {c : C}

theorem step_cases (h : s.step jobs pid = some s') :
    (∃ a, (s.procs pid).rest (jobs pid) = some (.pure a) ∧ s' = s.proceed pid s.files (.pure a)) ∨
    ∃ o next r files, (s.procs pid).rest (jobs pid) = some (.op o next) ∧
      o.blocked pid s.files = false ∧ o.exec pid s.files = (.ok r, files) ∧
      s' = s.proceed pid files (next (.ok r)) := by
  unfold System.step at h
  split at h
  · rename_i a hrest
    cases h
    exact .inl ⟨a, hrest, rfl⟩
  · rename_i o next hrest
    split at h
    · cases h
    · rename_i hblocked
      split at h
      · rename_i r files hexec
        cases h
        exact .inr ⟨o, next, r, files, hrest, Bool.eq_false_iff.mpr hblocked, hexec, rfl⟩
      · cases h
  · cases h

/-- A process that has taken only the first of its operations is running. -/
theorem isRunning_of_first (hwaiting : s.procs pid = .waiting) (hjob : (jobs pid).Twice)
    (hstep : s.step jobs pid = some s') : (s'.procs pid).isRunning := by
  obtain ⟨o, next, hop, htwice⟩ := hjob
  obtain ⟨a, hrest, -⟩ | ⟨_, _, r, files, hrest, -, -, rfl⟩ := step_cases hstep
  · rw [hwaiting, Proc.rest, hop] at hrest
    cases hrest
  · rw [hwaiting, Proc.rest, hop] at hrest
    cases hrest
    obtain ⟨o', next', hnext⟩ := htwice r
    rw [hnext, System.proceed, System.procs_put]
    rfl

variable {inode : Inode}

section Advance

variable {files : Files Path Pid} {rest : Prog Path α} (hserial : Serial effect c₀ log c)
  (hnodup : (log.map Prod.fst).Nodup) (hnew : pid ∉ log.map Prod.fst)
include hserial hnodup hnew

omit hserial [DecidableEq Path] [DecidableEq Pid] in
theorem nodup_log_append (a : α) : ((log ++ [(pid, a)]).map Prod.fst).Nodup := by
  rw [List.map_append, List.map_singleton, List.nodup_append_comm]
  exact List.nodup_cons.mpr ⟨hnew, hnodup⟩

/-- The process that has the lock goes on, or ends. -/
theorem Shared.proceed (h : Shared path loads effect s log c inode)
    (hnamed : files.names path = some inode) (hlock : files.locks inode = some pid)
    (hheld : ∀ i p, files.locks i = some p → i = inode)
    (hothers : ∀ p ≠ pid, Stage path loads effect log c inode s.files p (s.procs p) →
      Stage path loads effect log c inode files p (s.procs p))
    (hrest : rest.wp (owning path inode)
      (fun a text => ∃ c', effect pid c a c' ∧ loads text c') (files.data inode)) :
    Settled path loads effect c₀ solo (s.proceed pid files rest) := by
  cases rest with
  | pure a =>
    obtain ⟨c', heffect, hloads⟩ := hrest
    exact ⟨_, c', hserial.next heffect, nodup_log_append hnodup hnew a,
      .inl ⟨inode, h.finish hnamed hlock hheld hothers hloads⟩⟩
  | op o next =>
    refine ⟨log, c, hserial, hnodup, .inl ⟨inode, h.put hnamed (fun hnone => ?_) hheld hothers
      (.holding hnew hlock hrest)⟩⟩
    rw [hlock] at hnone
    cases hnone

/-- The process that replaces the file goes on, or ends. -/
theorem Single.proceed (hsolo : solo pid)
    (hrest : rest.wp (alone pid) (Replaced path loads effect pid c) files)
    (hidle : ∀ p ≠ pid, Idle log p (s.procs p)) (hfree : ∀ i, files.locks i = none) :
    Settled path loads effect c₀ solo (s.proceed pid files rest) := by
  cases rest with
  -- The process ends: its locks are released and the file is open to all again.
  | pure a =>
    obtain ⟨inode, c', hnamed, heffect, hloads⟩ := hrest
    have hreleased : ∀ i, (files.release pid).locks i = none := by
      intro i
      rw [Files.release_locks, hfree i, ite_self]
    have hother : ∀ p, (files.release pid).locks inode ≠ some p := by
      intro p
      rw [hreleased]
      nofun
    refine ⟨_, c', hserial.next heffect, nodup_log_append hnodup hnew a,
      .inl ⟨inode, hnamed, fun _ => hloads, fun i p hp => ?_, fun p => ?_⟩⟩
    · change (files.release pid).locks i = some p at hp
      rw [hreleased i] at hp
      cases hp
    · by_cases hp : p = pid
      · subst hp
        rw [System.proceed, System.procs_put]
        exact .finished (List.mem_append_right _ (List.mem_singleton_self _)) (hother p)
      · rw [System.procs_proceed_of_ne s hp]
        exact ((hidle p hp).stage (hother p)).append hp a
  | op o next =>
    refine ⟨log, c, hserial, hnodup, .inr ⟨pid, hsolo, ⟨_, System.procs_put _ _ _ _, hrest⟩, hnew,
      fun p hp => ?_, hfree⟩⟩
    rw [System.procs_proceed_of_ne s hp]
    exact hidle p hp

end Advance

omit [DecidableEq Path] in
/-- No process has the lock when none but the process that replaces the file is running. -/
theorem Shared.unlocked (h : Shared path loads effect s log c inode)
    (hwaiting : s.procs pid = .waiting) (hstill : ∀ p ≠ pid, ¬ (s.procs p).isRunning) (i : Inode) :
    s.files.locks i = none := by
  by_contra hlock
  obtain ⟨p, hp⟩ := Option.ne_none_iff_exists'.mp hlock
  have hi := h.held i p hp
  subst hi
  have hrunning := (h.stages p).isRunning hp
  by_cases hpid : p = pid
  · rw [hpid, hwaiting] at hrunning
    cases hrunning
  · exact hstill p hpid hrunning

section Operation

variable {o : FileOp Path} {next : Except FileError o.Result → Prog Path α} {r : o.Result}
  {files : Files Path Pid} (hserial : Serial effect c₀ log c)
  (hnodup : (log.map Prod.fst).Nodup) (hexec : o.exec pid s.files = (.ok r, files))
include hserial hnodup hexec

/-- The operations of a process that locks the file. -/
theorem Shared.op (h : Shared path loads effect s log c inode)
    (hrest : (s.procs pid).rest (jobs pid) = some (.op o next))
    (hjob : s.procs pid = .waiting → Locks path loads effect pid (jobs pid))
    (hblocked : o.blocked pid s.files = false) :
    Settled path loads effect c₀ solo (s.proceed pid files (next (.ok r))) := by
  have hstage := h.stages pid
  cases hproc : s.procs pid with
  | waiting =>
    rw [hproc] at hstage hrest
    obtain ⟨next', hop, henters⟩ := hjob hproc
    rw [Proc.rest, hop] at hrest
    cases hrest
    have hopened : r = inode ∧ files = s.files := by
      simp only [FileOp.exec, h.named] at hexec
      cases hexec
      exact ⟨rfl, rfl⟩
    obtain ⟨rfl, rfl⟩ := hopened
    obtain ⟨next, hlock, -⟩ := id (henters r)
    cases hstage with
    | waiting hnew hfree =>
      refine ⟨log, c, hserial, hnodup, .inl ⟨r, ?_⟩⟩
      rw [hlock, System.proceed, ← hlock]
      exact h.put h.named h.text h.held (fun _ _ => id) (.entering hnew hfree (henters r))
  | finished a =>
    rw [hproc] at hrest
    cases hrest
  | running rest =>
    rw [hproc] at hstage hrest
    obtain rfl : rest = .op o next := Option.some.inj hrest
    cases hstage with
    | entering hnew hfree hrest =>
      obtain ⟨next', hop, hinside⟩ := hrest
      cases hop
      cases hexec
      -- the lock is free, as the process did not have to wait
      have hnone : s.files.locks inode = none := by
        cases hlock : s.files.locks inode with
        | none => rfl
        | some p =>
          have : p = pid := by simpa [FileOp.blocked, hlock] using hblocked
          exact absurd hlock (this ▸ hfree)
      have hmine : (s.files.setLock inode (some pid)).locks inode = some pid := by simp
      refine h.proceed hserial hnodup hnew h.named hmine (fun i p hp => ?_) (fun p hp hother => ?_)
        (hinside _ _ (h.text hnone))
      · rw [Files.setLock_locks, Function.update_apply] at hp
        split at hp
        · assumption
        · exact h.held i p hp
      · refine hother.other (by simp [hnone]) ?_
        rw [hmine]
        exact fun heq => hp (Option.some.inj heq).symm
    | holding hnew hlock hrest =>
      have hnamed := FileOp.names_exec pid s.files hrest.sparesName
      have hmine := locks_exec_of_named pid h.named hrest.not_lock
      rw [hexec] at hnamed hmine
      rw [hlock] at hmine
      refine h.proceed hserial hnodup hnew (hnamed.trans h.named) hmine
        (fun i p hp => h.held i p (locks_exec hrest.not_lock hexec hp)) (fun p hp hother => ?_)
        (hrest.exec h.named hexec)
      have hne : some pid ≠ some p := fun heq => hp (Option.some.inj heq).symm
      exact hother.other (hlock ▸ hne) (hmine ▸ hne)

/-- The operations of a process that replaces the file. -/
theorem Single.op (hsolo : solo pid) (hnew : pid ∉ log.map Prod.fst)
    (hwp : (Prog.op o next).wp (alone pid) (Replaced path loads effect pid c) s.files)
    (hidle : ∀ p ≠ pid, Idle log p (s.procs p)) (hfree : ∀ i, s.files.locks i = none) :
    Settled path loads effect c₀ solo (s.proceed pid files (next (.ok r))) := by
  obtain ⟨hlock, hwp⟩ := hwp
  refine Single.proceed hserial hnodup hnew hsolo (hwp r files hexec) hidle fun i => ?_
  cases hlocked : files.locks i with
  | none => rfl
  | some p =>
    have hbefore := locks_exec hlock hexec hlocked
    rw [hfree i] at hbefore
    cases hbefore

end Operation

/-- One step. Locking processes share the file, and the others have it for themselves. -/
theorem Settled.step (hjobs : ∀ p, if solo p then Replaces path loads effect p (jobs p)
      else Locks path loads effect p (jobs p))
    (h : Settled path loads effect c₀ solo s) (hstep : s.step jobs pid = some s')
    (hexclusive : s'.Exclusive solo) : Settled path loads effect c₀ solo s' := by
  have htwice : ∀ p, (jobs p).Twice := by
    intro p
    have hjob := hjobs p
    split at hjob
    · exact hjob.1
    · exact hjob.twice
  obtain ⟨log, c, hserial, hnodup, ⟨inode, hshared⟩ | ⟨p, hsolo, hsingle⟩⟩ := h
  · have hstage := hshared.stages pid
    obtain ⟨a, hrest, rfl⟩ | ⟨o, next, r, files, hrest, hblocked, hexec, rfl⟩ := step_cases hstep
    · cases hproc : s.procs pid with
      | waiting =>
        obtain ⟨o, next, hop, -⟩ := htwice pid
        rw [hproc, Proc.rest, hop] at hrest
        cases hrest
      | running rest =>
        rw [hproc] at hstage hrest
        obtain rfl : rest = .pure a := Option.some.inj hrest
        cases hstage with
        | entering _ _ hrest =>
          obtain ⟨_, hop, -⟩ := hrest
          cases hop
        | holding hnew hlock hrest =>
          exact hshared.proceed hserial hnodup hnew hshared.named hlock hshared.held
            (fun _ _ => id) hrest
      | finished b =>
        rw [hproc] at hrest
        cases hrest
    · by_cases hfirst : s.procs pid = .waiting ∧ solo pid
      · obtain ⟨hwaiting, hsolo⟩ := hfirst
        have hstill : ∀ p ≠ pid, ¬ (s.procs p).isRunning := by
          intro p hp hrunning
          refine hp (hexclusive pid p hsolo (isRunning_of_first hwaiting (htwice pid) hstep) ?_)
          rwa [System.procs_proceed_of_ne s hp]
        have hunlocked := hshared.unlocked hwaiting hstill
        have hjob := hjobs pid
        rw [if_pos hsolo] at hjob
        have hwp := hjob.2 _ _ _ hshared.named (hshared.text (hunlocked inode))
        rw [hwaiting] at hstage hrest
        rw [Option.some.inj hrest] at hwp
        cases hstage with
        | waiting hnew _ =>
          exact Single.op hserial hnodup hexec hsolo hnew hwp
            (fun p hp => (hshared.stages p).idle (hstill p hp)) hunlocked
      · refine hshared.op hserial hnodup hexec hrest (fun hwaiting => ?_) hblocked
        have hjob := hjobs pid
        rwa [if_neg fun hsolo => hfirst ⟨hwaiting, hsolo⟩] at hjob
  · obtain ⟨rest, hproc, hwp⟩ := hsingle.running
    by_cases hpid : pid = p
    · subst hpid
      obtain ⟨a, hrest, rfl⟩ | ⟨o, next, r, files, hrest, -, hexec, rfl⟩ := step_cases hstep
      · rw [hproc] at hrest
        obtain rfl : rest = .pure a := Option.some.inj hrest
        exact Single.proceed hserial hnodup hsingle.new hsolo hwp hsingle.idle hsingle.free
      · rw [hproc] at hrest
        obtain rfl : rest = .op o next := Option.some.inj hrest
        exact Single.op hserial hnodup hexec hsolo hsingle.new hwp hsingle.idle hsingle.free
    · -- nobody else can start beside it
      have hsame : s'.procs p = s.procs p := by
        obtain ⟨a, -, rfl⟩ | ⟨o, next, r, files, -, -, -, rfl⟩ := step_cases hstep <;>
          exact System.procs_proceed_of_ne s (Ne.symm hpid) _ _
      cases hwaiting : s.procs pid with
      | waiting =>
        refine absurd (hexclusive p pid hsolo ?_
          (isRunning_of_first hwaiting (htwice pid) hstep)) hpid
        rw [hsame, hproc]
        rfl
      | running rest' =>
        have hidle := hsingle.idle pid hpid
        rw [hwaiting] at hidle
        cases hidle
      | finished b =>
        rw [System.step, hwaiting] at hstep
        cases hstep

theorem Settled.run (hjobs : ∀ p, if solo p then Replaces path loads effect p (jobs p)
      else Locks path loads effect p (jobs p)) {schedule : List Pid}
    (h : Settled path loads effect c₀ solo s) (hrun : s.run jobs schedule = some s')
    (hapart : s.Apart jobs solo schedule) : Settled path loads effect c₀ solo s' := by
  induction schedule generalizing s with
  | nil =>
    cases hrun
    exact h
  | cons pid schedule ih =>
    rw [System.run, List.foldlM_cons] at hrun
    cases hstep : s.step jobs pid with
    | none =>
      rw [hstep] at hrun
      cases hrun
    | some next =>
      rw [hstep] at hrun
      have hapart := hapart.2
      rw [hstep] at hapart
      refine ih (h.step hjobs hstep ?_) hrun hapart
      cases schedule with
      | nil => exact hapart
      | cons => exact hapart.1

end Sharing

end Slt.Lib
