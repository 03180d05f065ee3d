import Slt.Lib.Bytes
import Mathlib.Logic.Function.Basic

/-!
# Programs on files

A file system names inodes by paths; what a file holds, and who has locked it,
belongs to the inode. A program asks for one file operation after the other and
goes on with the answer. What it does is said by a predicate transformer for the
operations: here the one for a process that is alone but may meet a failure at
any operation, or be stopped there, with a write cut short.
-/

namespace Slt.Lib

abbrev Inode := Nat

/-- No two paths name the same inode, and the inodes from `next` on are unused. -/
structure Files (Path Pid : Type) where
  names : Path → Option Inode
  data : Inode → Bytes
  mode : Inode → Nat
  locks : Inode → Option Pid
  dirs : Path → Bool
  next : Inode
  apart : ∀ {p q i}, names p = some i → names q = some i → p = q
  fresh : ∀ {p i}, names p = some i → i < next

/-- A text cut or filled up with zeros to a length. -/
def resize (text : Bytes) (len : Nat) : Bytes :=
  text.take len ++ List.replicate (len - text.length) 0

/-- A text with the bytes written at an offset. -/
def patch (text : Bytes) (offset : Nat) (bytes : Bytes) : Bytes :=
  if bytes = [] then text
  else resize text offset ++ bytes ++ text.drop (offset + bytes.length)

@[simp] theorem resize_zero (text : Bytes) : resize text 0 = [] := by
  simp [resize]

@[simp] theorem patch_nil (bytes : Bytes) : patch [] 0 bytes = bytes := by
  unfold patch
  split
  · rename_i h
    exact h.symm
  · simp

namespace Files

variable {Path Pid : Type}

theorem ne_of_names {files : Files Path Pid} {path other : Path} {inode i : Inode}
    (hnamed : files.names path = some inode) (hother : files.names other = some i)
    (hne : other ≠ path) : i ≠ inode := by
  rintro rfl
  exact hne (files.apart hother hnamed)

theorem ne_next {files : Files Path Pid} {path : Path} {inode : Inode}
    (hnamed : files.names path = some inode) : files.next ≠ inode :=
  (files.fresh hnamed).ne'

variable [DecidableEq Path]

@[simps names data locks]
def setData (files : Files Path Pid) (inode : Inode) (text : Bytes) : Files Path Pid :=
  { files with data := Function.update files.data inode text }

@[simps names data locks]
def setMode (files : Files Path Pid) (inode : Inode) (mode : Nat) : Files Path Pid :=
  { files with mode := Function.update files.mode inode mode }

@[simps names data locks]
def setLock (files : Files Path Pid) (inode : Inode) (owner : Option Pid) : Files Path Pid :=
  { files with locks := Function.update files.locks inode owner }

@[simps names data locks]
def setDir (files : Files Path Pid) (path : Path) : Files Path Pid :=
  { files with dirs := Function.update files.dirs path true }

theorem names_of_linked (files : Files Path Pid) {path p : Path} {inode i : Inode}
    (h : Function.update files.names path (some inode) p = some i) :
    (p = path ∧ i = inode) ∨ (p ≠ path ∧ files.names p = some i) := by
  by_cases hp : p = path
  · subst hp
    rw [Function.update_self, Option.some.injEq] at h
    exact .inl ⟨rfl, h.symm⟩
  · rw [Function.update_of_ne hp] at h
    exact .inr ⟨hp, h⟩

theorem apart_of_linked (files : Files Path Pid) {path : Path} {inode : Inode}
    (hfree : ∀ p, files.names p ≠ some inode) {p q : Path} {i : Inode}
    (hp : Function.update files.names path (some inode) p = some i)
    (hq : Function.update files.names path (some inode) q = some i) : p = q := by
  obtain ⟨hp, hi⟩ | ⟨-, hp⟩ := files.names_of_linked hp <;>
    obtain ⟨hq, hi'⟩ | ⟨-, hq⟩ := files.names_of_linked hq
  · exact hp.trans hq.symm
  · exact absurd (hi ▸ hq) (hfree q)
  · exact absurd (hi' ▸ hp) (hfree p)
  · exact files.apart hp hq

@[simps names data locks]
def create (files : Files Path Pid) (path : Path) : Files Path Pid where
  names := Function.update files.names path (some files.next)
  data := Function.update files.data files.next []
  mode := files.mode
  locks := Function.update files.locks files.next none
  dirs := files.dirs
  next := files.next + 1
  apart := by
    intro p q i hp hq
    have hfree : ∀ p, files.names p ≠ some files.next :=
      fun p hp => Nat.lt_irrefl _ (files.fresh hp)
    exact files.apart_of_linked hfree hp hq
  fresh := by
    intro p i hp
    obtain ⟨-, rfl⟩ | ⟨-, hp⟩ := files.names_of_linked hp
    · exact Nat.lt_succ_self _
    · exact (files.fresh hp).trans (Nat.lt_succ_self _)

theorem names_of_unlinked (files : Files Path Pid) {path p : Path} {inode : Inode}
    (h : Function.update files.names path none p = some inode) :
    p ≠ path ∧ files.names p = some inode := by
  by_cases hp : p = path
  · subst hp
    rw [Function.update_self] at h
    cases h
  · rw [Function.update_of_ne hp] at h
    exact ⟨hp, h⟩

@[simps names data locks]
def unlink (files : Files Path Pid) (path : Path) : Files Path Pid :=
  { files with
    names := Function.update files.names path none
    apart := fun hp hq => files.apart (files.names_of_unlinked hp).2 (files.names_of_unlinked hq).2
    fresh := fun hp => files.fresh (files.names_of_unlinked hp).2 }

/-- The path names the inode, which has no other name. -/
def link (files : Files Path Pid) (path : Path) (inode : Inode)
    (hfree : ∀ p, files.names p ≠ some inode) (hnext : inode < files.next) : Files Path Pid :=
  { files with
    names := Function.update files.names path (some inode)
    apart := files.apart_of_linked hfree
    fresh := by
      intro p i hp
      obtain ⟨-, rfl⟩ | ⟨-, hp⟩ := files.names_of_linked hp
      · exact hnext
      · exact files.fresh hp }

theorem names_unlink (files : Files Path Pid) {path : Path} {inode : Inode}
    (h : files.names path = some inode) (p : Path) : (files.unlink path).names p ≠ some inode := by
  intro hp
  obtain ⟨hne, hp⟩ := files.names_of_unlinked hp
  exact hne (files.apart hp h)

@[simps! names data locks]
def rename (files : Files Path Pid) (source target : Path) {inode : Inode}
    (h : files.names source = some inode) : Files Path Pid :=
  (files.unlink source).link target inode (files.names_unlink h) (files.fresh h)

def contents (files : Files Path Pid) (path : Path) : Option Bytes :=
  (files.names path).map files.data

def single (path : Path) (text : Bytes) : Files Path Pid where
  names p := if p = path then some 0 else none
  data _ := text
  mode _ := 0
  locks _ := none
  dirs _ := false
  next := 1
  apart := by
    intro p q i hp hq
    split at hp <;> split at hq <;> simp_all
  fresh := by
    intro p i hp
    split at hp <;> simp_all

end Files

/-! ## Operations -/

inductive FileError where
  | notFound
  | failed
  deriving DecidableEq

inductive FileOp (Path : Type) where
  | openFile (path : Path)
  | createTruncated (path : Path)
  | lock (inode : Inode)
  | seek (inode : Inode) (offset : Nat)
  | readToEnd (inode : Inode) (offset : Nat)
  | setLen (inode : Inode) (len : Nat)
  | writeAll (inode : Inode) (offset : Nat) (bytes : Bytes)
  | flush (inode : Inode)
  | setPermissions (path : Path) (mode : Nat)
  | rename (source target : Path)
  | removeFile (path : Path)
  | pathExists (path : Path)
  | createDirAll (path : Path)
  deriving DecidableEq

namespace FileOp

variable {Path Pid : Type}

abbrev Result : FileOp Path → Type
  | openFile _ => Inode
  | createTruncated _ => Inode
  | lock _ => Unit
  | seek _ _ => Unit
  | readToEnd _ _ => Bytes
  | setLen _ _ => Unit
  | writeAll _ _ _ => Unit
  | flush _ => Unit
  | setPermissions _ _ => Unit
  | rename _ _ => Unit
  | removeFile _ => Unit
  | pathExists _ => Bool
  | createDirAll _ => Unit

variable [DecidableEq Path]

/-- An operation that is not made to fail. Locking waits before it comes here. -/
def exec (pid : Pid) :
    (op : FileOp Path) → Files Path Pid → Except FileError op.Result × Files Path Pid
  | openFile path, files =>
    match files.names path with
    | some inode => (.ok inode, files)
    | none => (.error .notFound, files)
  | createTruncated path, files =>
    match files.names path with
    | some inode => (.ok inode, files.setData inode [])
    | none => (.ok files.next, files.create path)
  | lock inode, files => (.ok (), files.setLock inode (some pid))
  | seek _ _, files => (.ok (), files)
  | readToEnd inode offset, files => (.ok ((files.data inode).drop offset), files)
  | setLen inode len, files => (.ok (), files.setData inode (resize (files.data inode) len))
  | writeAll inode offset bytes, files =>
    (.ok (), files.setData inode (patch (files.data inode) offset bytes))
  | flush _, files => (.ok (), files)
  | setPermissions path mode, files =>
    match files.names path with
    | some inode => (.ok (), files.setMode inode mode)
    | none => (.error .notFound, files)
  | rename source target, files =>
    match h : files.names source with
    | some _ => (.ok (), files.rename source target h)
    | none => (.error .notFound, files)
  | removeFile path, files =>
    match files.names path with
    | some _ => (.ok (), files.unlink path)
    | none => (.error .notFound, files)
  | pathExists path, files => (.ok (files.dirs path || (files.names path).isSome), files)
  | createDirAll path, files => (.ok (), files.setDir path)

/-- What is left of an operation that does not complete: of a write, its first bytes. -/
def cut (written : Nat) : FileOp Path → Files Path Pid → Files Path Pid
  | writeAll inode offset bytes, files =>
    files.setData inode (patch (files.data inode) offset (bytes.take written))
  | _, files => files

/-- The operation waits for a lock that another process has. -/
def blocked [DecidableEq Pid] (pid : Pid) (files : Files Path Pid) : FileOp Path → Bool
  | lock inode => (files.locks inode).any (· ≠ pid)
  | _ => false

/-- The operation does not change which file the path names. -/
def SparesName (path : Path) : FileOp Path → Prop
  | createTruncated p => p ≠ path
  | rename source target => source ≠ path ∧ target ≠ path
  | removeFile p => p ≠ path
  | _ => True

def SparesData (inode : Inode) : FileOp Path → Prop
  | setLen i _ => i ≠ inode
  | writeAll i _ _ => i ≠ inode
  | _ => True

variable {o : FileOp Path} {files : Files Path Pid} {path : Path} {inode : Inode}

theorem names_exec (pid : Pid) (files : Files Path Pid) (h : o.SparesName path) :
    (o.exec pid files).2.names path = files.names path := by
  cases o with
  | createTruncated p =>
    simp only [exec]
    split
    · rfl
    · rw [Files.create_names, Function.update_of_ne (Ne.symm h)]
  | openFile p | setPermissions p mode =>
    simp only [exec]
    split <;> rfl
  | rename source target =>
    simp only [exec]
    split
    · rw [Files.rename_names, Function.update_of_ne (Ne.symm h.2), Files.unlink_names,
        Function.update_of_ne (Ne.symm h.1)]
    · rfl
  | removeFile p =>
    simp only [exec]
    split
    · rw [Files.unlink_names, Function.update_of_ne (Ne.symm h)]
    · rfl
  | _ => rfl

theorem data_exec (pid : Pid) (hnamed : files.names path = some inode) (hname : o.SparesName path)
    (hdata : o.SparesData inode) : (o.exec pid files).2.data inode = files.data inode := by
  cases o with
  | createTruncated p =>
    simp only [exec]
    split
    · rename_i i hi
      rw [Files.setData_data, Function.update_of_ne (Files.ne_of_names hnamed hi hname).symm]
    · rw [Files.create_data, Function.update_of_ne (Files.ne_next hnamed).symm]
  | setLen i len | writeAll i offset bytes =>
    simp only [exec]
    rw [Files.setData_data, Function.update_of_ne (Ne.symm hdata)]
  | openFile p | setPermissions p mode | rename source target | removeFile p =>
    simp only [exec]
    split <;> rfl
  | _ => rfl

omit [DecidableEq Path] in
@[simp] theorem names_cut (written : Nat) : (o.cut written files).names = files.names := by
  cases o <;> rfl

omit [DecidableEq Path] in
theorem data_cut (written : Nat) (hdata : o.SparesData inode) :
    (o.cut written files).data inode = files.data inode := by
  cases o with
  | writeAll i offset bytes =>
    simp only [cut]
    rw [Files.setData_data, Function.update_of_ne (Ne.symm hdata)]
  | _ => rfl

/-- The file that is opened to replace another's contents is none of those with a name. -/
theorem exec_createTruncated (pid : Pid) (hnamed : files.names path = some inode) {p : Path}
    (h : p ≠ path) : ∃ i ≠ inode, ((createTruncated p).exec pid files).1 = .ok i := by
  simp only [exec]
  split
  · rename_i i hi
    exact ⟨i, Files.ne_of_names hnamed hi h, rfl⟩
  · exact ⟨_, Files.ne_next hnamed, rfl⟩

theorem createTruncated_eq_ok {pid : Pid} {p : Path} {i : Inode} {files' : Files Path Pid}
    (h : (createTruncated p).exec pid files = (.ok i, files')) :
    files'.names p = some i ∧ files'.data i = [] := by
  simp only [exec] at h
  split at h
  · rename_i hi
    cases h
    exact ⟨hi, Function.update_self _ _ _⟩
  · cases h
    exact ⟨Function.update_self _ _ _, Function.update_self _ _ _⟩

theorem rename_eq_ok {pid : Pid} {source target : Path} {i : Inode} {r : Unit}
    {files' : Files Path Pid} (h : (FileOp.rename source target).exec pid files = (.ok r, files'))
    (hsource : files.names source = some i) :
    files'.names target = some i ∧ files'.data = files.data := by
  simp only [exec] at h
  split at h
  · rename_i i' hi
    cases h
    obtain rfl : i' = i := Option.some.inj (hi.symm.trans hsource)
    exact ⟨Function.update_self _ _ _, rfl⟩
  · cases h

end FileOp

/-! ## Programs -/

inductive Prog (Path α : Type) where
  | pure (a : α)
  | op (o : FileOp Path) (next : Except FileError o.Result → Prog Path α)

/-- What must hold before an operation for something to hold after it. -/
abbrev Transformer (Path σ : Type) :=
  (o : FileOp Path) → (Except FileError o.Result → σ → Prop) → σ → Prop

namespace Prog

variable {Path α β ε σ : Type}

def bind : Prog Path α → (α → Prog Path β) → Prog Path β
  | .pure a, f => f a
  | .op o next, f => .op o fun r => (next r).bind f

instance : Monad (Prog Path) where
  pure := .pure
  bind := bind

def attempt (o : FileOp Path) (context : FileError → ε) : ExceptT ε (Prog Path) o.Result :=
  .mk (.op o fun r => .pure (r.mapError context))

/-- What must hold before a program for something to hold where it ends. -/
def wp (t : Transformer Path σ) : Prog Path α → (α → σ → Prop) → σ → Prop
  | .pure a, post => post a
  | .op o next, post => t o fun r => (next r).wp t post

variable (t : Transformer Path σ)

@[simp] theorem wp_bind (x : Prog Path α) (f : α → Prog Path β) (post : β → σ → Prop) :
    wp t (x >>= f) post = wp t x fun a => wp t (f a) post := by
  induction x with
  | pure a => rfl
  | op o next ih => exact congrArg (t o) (funext fun r => ih r)

@[simp] theorem wp_run_attempt (o : FileOp Path) (context : FileError → ε)
    (post : Except ε o.Result → σ → Prop) :
    wp t (attempt o context).run post = t o fun r => post (r.mapError context) := rfl

theorem wp_run_attempt_bind (o : FileOp Path) (context : FileError → ε)
    (f : o.Result → ExceptT ε (Prog Path) β) (post : Except ε β → σ → Prop) :
    wp t (attempt o context >>= f).run post = t o fun r s =>
      match r with
      | .ok a => wp t (f a).run post s
      | .error e => post (.error (context e)) s := by
  refine congrArg (t o) (funext fun r => ?_)
  cases r <;> rfl

end Prog

def Transformer.Mono {Path σ : Type} (t : Transformer Path σ) : Prop :=
  ∀ ⦃o : FileOp Path⦄ ⦃post post' : Except FileError o.Result → σ → Prop⦄ ⦃s : σ⦄,
    (∀ r s, post r s → post' r s) → t o post s → t o post' s

theorem Prog.wp_mono {Path α σ : Type} {t : Transformer Path σ} (ht : t.Mono)
    {prog : Prog Path α} {post post' : α → σ → Prop} (h : ∀ a s, post a s → post' a s) {s : σ}
    (hwp : prog.wp t post s) : prog.wp t post' s := by
  induction prog generalizing s with
  | pure a => exact h a s hwp
  | op o next ih => exact ht (fun r s => ih r) hwp

/-- A part that may end the program with an error, and what follows it otherwise. -/
theorem Prog.wp_run_bind {Path α β ε σ : Type} {t : Transformer Path σ} (ht : t.Mono)
    {x : ExceptT ε (Prog Path) α} {f : α → ExceptT ε (Prog Path) β} {post : Except ε β → σ → Prop}
    (mid : Except ε α → σ → Prop) {s : σ} (hx : x.run.wp t mid s)
    (hok : ∀ a s, mid (.ok a) s → (f a).run.wp t post s)
    (herror : ∀ e s, mid (.error e) s → post (.error e) s) : (x >>= f).run.wp t post s := by
  rw [ExceptT.run_bind, wp_bind]
  refine wp_mono ht (fun r s hmid => ?_) hx
  cases r with
  | ok a => exact hok a s hmid
  | error e => exact herror e s hmid

/-! ## A process that may fail or stop -/

/-- An operation that fails or is stopped may leave the first bytes of a write. -/
inductive Fate where
  | succeed
  | fail (written : Nat)
  | stop (written : Nat)
  deriving DecidableEq

/-- All of so many bytes are written. -/
def Fate.Writes (length : Nat) : Fate → Prop
  | .succeed => True
  | .fail written => length ≤ written
  | .stop written => length ≤ written

section Faulty

variable {Path Pid α : Type} [DecidableEq Path]

/-- The fates of the operations, by their number, decide how far the process gets. There is no
result if it is stopped. -/
def Prog.run (fates : Nat → FileOp Path → Fate) (pid : Pid) :
    Prog Path α → Nat → Files Path Pid → Option α × Files Path Pid
  | .pure a, _, files => (some a, files)
  | .op o next, step, files =>
    match fates step o with
    | .succeed => (next (o.exec pid files).1).run fates pid (step + 1) (o.exec pid files).2
    | .fail written => (next (.error .failed)).run fates pid (step + 1) (o.cut written files)
    | .stop written => (none, o.cut written files)

/-- The operations that the process comes to, with their fates. -/
def Prog.performed (fates : Nat → FileOp Path → Fate) (pid : Pid) :
    Prog Path α → Nat → Files Path Pid → List (FileOp Path × Fate)
  | .pure _, _, _ => []
  | .op o next, step, files =>
    (o, fates step o) ::
      match fates step o with
      | .succeed => (next (o.exec pid files).1).performed fates pid (step + 1) (o.exec pid files).2
      | .fail written => (next (.error .failed)).performed fates pid (step + 1) (o.cut written files)
      | .stop _ => []

/-- The fates that are allowed decide; wherever the process is stopped, `stopped` must hold. -/
def faulty (pid : Pid) (allowed : FileOp Path → Fate → Prop) (stopped : Files Path Pid → Prop) :
    Transformer Path (Files Path Pid) := fun o post files =>
  (allowed o .succeed → post (o.exec pid files).1 (o.exec pid files).2) ∧
    (∀ written, allowed o (.fail written) → post (.error .failed) (o.cut written files)) ∧
    ∀ written, allowed o (.stop written) → stopped (o.cut written files)

variable {pid : Pid} {allowed : FileOp Path → Fate → Prop} {stopped : Files Path Pid → Prop}

theorem mono_faulty : (faulty pid allowed stopped).Mono := by
  rintro o post post' files h ⟨hsucceed, hfail, hstop⟩
  exact ⟨fun hallowed => h _ _ (hsucceed hallowed), fun n hallowed => h _ _ (hfail n hallowed),
    hstop⟩

theorem Prog.run_of_wp (fates : Nat → FileOp Path → Fate) {prog : Prog Path α}
    {post : α → Files Path Pid → Prop} {files : Files Path Pid}
    (h : prog.wp (faulty pid allowed stopped) post files) (step : Nat)
    (hfates : ∀ p ∈ prog.performed fates pid step files, allowed p.1 p.2) :
    (∀ a, (prog.run fates pid step files).1 = some a →
        post a (prog.run fates pid step files).2) ∧
      ((prog.run fates pid step files).1 = none → stopped (prog.run fates pid step files).2) := by
  induction prog generalizing files step with
  | pure a =>
    refine ⟨?_, nofun⟩
    rintro _ ⟨⟩
    exact h
  | op o next ih =>
    obtain ⟨hsucceed, hfail, hstop⟩ := h
    unfold Prog.performed at hfates
    obtain ⟨hallowed, hrest⟩ := List.forall_mem_cons.mp hfates
    unfold Prog.run
    cases hfate : fates step o with
    | succeed =>
      rw [hfate] at hallowed hrest
      exact ih _ (hsucceed hallowed) _ hrest
    | fail written =>
      rw [hfate] at hallowed hrest
      exact ih _ (hfail written hallowed) _ hrest
    | stop written =>
      rw [hfate] at hallowed
      exact ⟨nofun, fun _ => hstop written hallowed⟩

theorem Prog.exists_step_of_performed {fates : Nat → FileOp Path → Fate} {prog : Prog Path α}
    {step : Nat} {files : Files Path Pid} {o : FileOp Path} {fate : Fate}
    (h : (o, fate) ∈ prog.performed fates pid step files) : ∃ step, fate = fates step o := by
  induction prog generalizing files step with
  | pure a => cases h
  | op first next ih =>
    unfold Prog.performed at h
    rcases List.mem_cons.mp h with heq | hrest
    · cases heq
      exact ⟨step, rfl⟩
    · split at hrest
      · exact ih _ hrest
      · exact ih _ hrest
      · cases hrest

/-- An operation that keeps something keeps it whatever becomes of it. -/
theorem faulty_of_kept {o : FileOp Path} {post : Except FileError o.Result → Files Path Pid → Prop}
    {files : Files Path Pid} (holds : Files Path Pid → Prop)
    (hexec : holds (o.exec pid files).2) (hcut : ∀ written, holds (o.cut written files))
    (hpost : ∀ r files', holds files' → post r files')
    (hstopped : ∀ files', holds files' → stopped files') :
    faulty pid allowed stopped o post files :=
  ⟨fun _ => hpost _ _ hexec, fun _ _ => hpost _ _ (hcut _), fun _ _ => hstopped _ (hcut _)⟩

end Faulty

end Slt.Lib
