import Slt.Lib.LinkedMap
import Mathlib.Data.List.Perm.Subperm

/-!
# Server: admission of TCP connections

Connections are admitted up to a cap. A connection that has sent no data yet is
kept in a list and may be evicted for a new one. Every section under the lock,
every swap of a released flag and every look at a stream is one step, and the
steps of any number of tasks interleave.
-/

namespace Slt.Server

open Lib

def emptyEvictionScanLimit : Nat := 32

def emptyEvictionScanPasses : Nat := 2

/-! ## The state -/

/-- The flag and the token are shared with the permit, and are named by where
they are allocated. The links are those of `LinkedMap`. The stream is only looked
at, and what a look finds is up to the peer. -/
structure NoDataAdmission where
  id : UInt64
  cancel : Nat
  released : Nat
  deriving DecidableEq, Repr

structure TcpAdmissionPermit where
  id : UInt64
  cancel : Nat
  released : Nat
  deriving DecidableEq, Repr

structure TcpAdmissionAttempt where
  permit : Option TcpAdmissionPermit
  evictedEmpty : Bool
  deriving DecidableEq, Repr

structure TcpAdmissionState where
  active : Nat
  nextId : UInt64
  noData : LinkedMap UInt64 NoDataAdmission

/-- What the steps do. Permits are named by their flags. -/
inductive AdmissionEvent where
  | called (task : Nat)
  | created (permit : Nat)
  | queued (id : UInt64)
  | unqueued (id : UInt64)
  | evicted (task permit : Nat)
  /-- `mark_no_data_if_empty` has seen an empty stream and returns true. -/
  | markedEmpty (permit : Nat)
  /-- `mark_data_seen` returns true, also for `mark_no_data_if_empty`. -/
  | dataSeen (permit : Nat)
  | subtracted (permit : Nat)
  | dropped (permit : Nat)
  | returned (task : Nat) (attempt : TcpAdmissionAttempt)
  deriving DecidableEq, Repr

/-- What the tasks share, with the permits that have been created, the oldest
first, and the record of the steps. -/
structure AdmissionMemory where
  cap : Nat
  state : TcpAdmissionState
  released : Nat → Bool
  cancelled : Nat → Bool
  permits : List TcpAdmissionPermit
  trace : List AdmissionEvent

namespace AdmissionMemory

def new (cap : Nat) : AdmissionMemory where
  cap := cap
  state := ⟨0, 0, .empty⟩
  released := fun _ => false
  cancelled := fun _ => false
  permits := []
  trace := []

def log (m : AdmissionMemory) (event : AdmissionEvent) : AdmissionMemory :=
  { m with trace := m.trace ++ [event] }

def lowerActive (m : AdmissionMemory) : AdmissionMemory :=
  { m with state := { m.state with active := m.state.active - 1 } }

def swapReleased (m : AdmissionMemory) (flag : Nat) : Bool × AdmissionMemory :=
  (m.released flag, { m with released := Function.update m.released flag true })

def cancel (m : AdmissionMemory) (token : Nat) : AdmissionMemory :=
  { m with cancelled := Function.update m.cancelled token true }

/-! ## The sections under the lock -/

def insertNoDataLocked (m : AdmissionMemory) (entry : NoDataAdmission) : AdmissionMemory :=
  { m with state := { m.state with noData := m.state.noData.pushBack entry.id entry }
           trace := m.trace ++ [.queued entry.id] }

def removeNoDataLocked (m : AdmissionMemory) (id : UInt64) :
    Option NoDataAdmission × AdmissionMemory :=
  ((m.state.noData.remove id).1,
    { m with state := { m.state with noData := (m.state.noData.remove id).2 }
             trace := m.trace ++ [.unqueued id] })

def admitLocked (m : AdmissionMemory) : TcpAdmissionPermit × AdmissionMemory :=
  let fresh := m.permits.length
  let permit : TcpAdmissionPermit := ⟨m.state.nextId, fresh, fresh⟩
  (permit,
    { m with state := { m.state with nextId := m.state.nextId + 1, active := m.state.active + 1 }
             released := Function.update m.released fresh false
             cancelled := Function.update m.cancelled fresh false
             permits := m.permits ++ [permit]
             trace := m.trace ++ [.created fresh] })

def admitIfUnderCap (m : AdmissionMemory) : Option TcpAdmissionPermit × AdmissionMemory :=
  if m.state.active < m.cap then (some m.admitLocked.1, m.admitLocked.2) else (none, m)

def evictionCandidates (m : AdmissionMemory) : List NoDataAdmission :=
  if m.state.active < m.cap then []
  else m.state.noData.walk emptyEvictionScanLimit m.state.noData.head

def tryEvictEmpty (m : AdmissionMemory) (task : Nat) (id : UInt64) :
    Option Nat × AdmissionMemory :=
  if m.state.active < m.cap then (none, m)
  else
    match m.removeNoDataLocked id with
    | (none, m) => (none, m)
    | (some entry, m) =>
      match m.swapReleased entry.released with
      | (true, m) => (none, m)
      | (false, m) => (some entry.cancel, m.lowerActive.log (.evicted task entry.released))

def removeStaleNoData (m : AdmissionMemory) (id : UInt64) : AdmissionMemory :=
  (m.removeNoDataLocked id).2

/-- The rest of `mark_no_data_if_empty` after a look at an empty stream. -/
def markEmpty (m : AdmissionMemory) (permit : TcpAdmissionPermit) : Bool × AdmissionMemory :=
  if m.released permit.released then (false, m)
  else if (m.state.noData.nodes permit.id).isSome then
    (true, m.log (.markedEmpty permit.released))
  else
    (true, (m.log (.markedEmpty permit.released)).insertNoDataLocked
      ⟨permit.id, permit.cancel, permit.released⟩)

def markDataSeen (m : AdmissionMemory) (permit : TcpAdmissionPermit) : Bool × AdmissionMemory :=
  if m.released permit.released then (false, m)
  else (true, (m.removeNoDataLocked permit.id).2.log (.dataSeen permit.released))

def subtract (m : AdmissionMemory) (permit : TcpAdmissionPermit) : AdmissionMemory :=
  (m.lowerActive.removeNoDataLocked permit.id).2.log (.subtracted permit.released)

end AdmissionMemory

/-! ## The tasks -/

inductive AdmitPoint where
  | start
  | pass (left : Nat)
  | scan (left : Nat) (removedStale : Bool) (rest : List NoDataAdmission)
  | evict (left : Nat) (removedStale : Bool) (entry : NoDataAdmission)
      (rest : List NoDataAdmission)
  | removeStale (left : Nat) (entry : NoDataAdmission) (rest : List NoDataAdmission)
  | retry (left : Nat)
  | last (evictCancel : Option Nat) (evictedEmpty : Bool)
  | finish (permit : Option TcpAdmissionPermit) (evictCancel : Option Nat) (evictedEmpty : Bool)

inductive AdmissionTask where
  | idle
  | admitting (point : AdmitPoint)
  /-- `mark_no_data_if_empty`, before the look at the stream. -/
  | look (permit : TcpAdmissionPermit)
  | markEmpty (permit : TcpAdmissionPermit)
  | markDataSeen (permit : TcpAdmissionPermit)
  | drop (permit : TcpAdmissionPermit)
  | subtract (permit : TcpAdmissionPermit)

open AdmissionMemory in
/-- The next step of `admit_or_evict_empty`. If it looks at a stream, `empty` is
what it finds. -/
def AdmitPoint.advance (m : AdmissionMemory) (task : Nat) (empty : Bool) :
    AdmitPoint → AdmissionMemory × AdmissionTask
  | .start =>
    (m.admitIfUnderCap.2, .admitting (match m.admitIfUnderCap.1 with
      | some permit => .finish (some permit) none false
      | none => .pass emptyEvictionScanPasses))
  | .pass 0 => (m, .admitting (.last none false))
  | .pass (left + 1) => (m, .admitting (.scan left false m.evictionCandidates))
  | .scan left removedStale [] =>
    if removedStale then (m, .admitting (.retry left)) else (m, .admitting (.last none false))
  | .scan left removedStale (entry :: rest) =>
    if empty then (m, .admitting (.evict left removedStale entry rest))
    else (m, .admitting (.removeStale left entry rest))
  | .evict left removedStale entry rest =>
    ((m.tryEvictEmpty task entry.id).2, .admitting (match (m.tryEvictEmpty task entry.id).1 with
      | some cancel => .last (some cancel) true
      | none => .scan left removedStale rest))
  | .removeStale left entry rest => (m.removeStaleNoData entry.id, .admitting (.scan left true rest))
  | .retry left =>
    (m.admitIfUnderCap.2, .admitting (match m.admitIfUnderCap.1 with
      | some permit => .finish (some permit) none false
      | none => .pass left))
  | .last evictCancel evictedEmpty =>
    (m.admitIfUnderCap.2, .admitting (.finish m.admitIfUnderCap.1 evictCancel evictedEmpty))
  | .finish permit evictCancel evictedEmpty =>
    ((match evictCancel with
      | some token => m.cancel token
      | none => m).log (.returned task ⟨permit, evictedEmpty⟩), .idle)

def AdmissionTask.advance (m : AdmissionMemory) (task : Nat) (empty : Bool) :
    AdmissionTask → AdmissionMemory × AdmissionTask
  | .idle => (m, .idle)
  | .admitting point => point.advance m task empty
  | .look permit => if empty then (m, .markEmpty permit) else (m, .markDataSeen permit)
  | .markEmpty permit => ((m.markEmpty permit).2, .idle)
  | .markDataSeen permit => ((m.markDataSeen permit).2, .idle)
  | .drop permit =>
    if (m.swapReleased permit.released).1 then
      ((m.swapReleased permit.released).2.log (.dropped permit.released), .idle)
    else ((m.swapReleased permit.released).2, .subtract permit)
  | .subtract permit => ((m.subtract permit).log (.dropped permit.released), .idle)

inductive AdmissionCall where
  | admitOrEvictEmpty
  | markNoDataIfEmpty (permit : Nat)
  | markDataSeen (permit : Nat)
  | drop (permit : Nat)
  deriving DecidableEq, Repr

inductive AdmissionMove where
  | call (task : Nat) (call : AdmissionCall)
  | advance (task : Nat) (empty : Bool)
  deriving DecidableEq, Repr

structure AdmissionWorld where
  memory : AdmissionMemory
  tasks : Nat → AdmissionTask
  surrendered : Nat → Bool

namespace AdmissionWorld

def new (cap : Nat) : AdmissionWorld := ⟨.new cap, fun _ => .idle, fun _ => false⟩

def setTask (w : AdmissionWorld) (task : Nat) (next : AdmissionTask) : AdmissionWorld :=
  { w with tasks := Function.update w.tasks task next }

def put (w : AdmissionWorld) (task : Nat) (out : AdmissionMemory × AdmissionTask) :
    AdmissionWorld :=
  { w.setTask task out.2 with memory := out.1 }

def permitOf (w : AdmissionWorld) (permit : Nat) : Option TcpAdmissionPermit :=
  if w.surrendered permit then none else w.memory.permits[permit]?

def call (w : AdmissionWorld) (task : Nat) : AdmissionCall → AdmissionWorld
  | .admitOrEvictEmpty =>
    { w.setTask task (.admitting .start) with memory := w.memory.log (.called task) }
  | .markNoDataIfEmpty permit =>
    match w.permitOf permit with
    | none => w
    | some p => w.setTask task (.look p)
  | .markDataSeen permit =>
    match w.permitOf permit with
    | none => w
    | some p => w.setTask task (.markDataSeen p)
  | .drop permit =>
    match w.permitOf permit with
    | none => w
    | some p =>
      { w.setTask task (.drop p) with surrendered := Function.update w.surrendered permit true }

/-- A task that is in a call goes on with it, and only an idle one makes a call. -/
def step (w : AdmissionWorld) : AdmissionMove → AdmissionWorld
  | .call task call =>
    match w.tasks task with
    | .idle => w.call task call
    | _ => w
  | .advance task empty => w.put task ((w.tasks task).advance w.memory task empty)

def run (w : AdmissionWorld) (moves : List AdmissionMove) : AdmissionWorld := moves.foldl step w

end AdmissionWorld

/-! ## What a record says -/

def AdmissionEvent.onWaiting (ids : List UInt64) : AdmissionEvent → List UInt64
  | .queued id => ids ++ [id]
  | .unqueued id => ids.erase id
  | _ => ids

/-- The ids that are in the list, in the order of their insertion. -/
def waiting (trace : List AdmissionEvent) : List UInt64 :=
  trace.foldl AdmissionEvent.onWaiting []

def AdmissionEvent.subtracts : AdmissionEvent → Option Nat
  | .evicted _ permit => some permit
  | .subtracted permit => some permit
  | _ => none

/-- The permits that have been taken off the count, by eviction or by drop. -/
def subtractions (trace : List AdmissionEvent) : List Nat := trace.filterMap (·.subtracts)

def AdmissionEvent.onEmpty (permit : Nat) (empty : Bool) : AdmissionEvent → Bool
  | .markedEmpty p => if p = permit then true else empty
  | .dataSeen p => if p = permit then false else empty
  | _ => empty

/-- The permit has been marked empty, and no data has been seen since. -/
def emptySince (permit : Nat) (trace : List AdmissionEvent) : Bool :=
  trace.foldl (AdmissionEvent.onEmpty permit) false

def AdmissionEvent.onEvictions (task count : Nat) : AdmissionEvent → Nat
  | .called t => if t = task then 0 else count
  | .evicted t _ => if t = task then count + 1 else count
  | _ => count

def evictionsInCall (task : Nat) (trace : List AdmissionEvent) : Nat :=
  trace.foldl (AdmissionEvent.onEvictions task) 0

section Records

variable (trace : List AdmissionEvent) (event : AdmissionEvent)

@[simp] theorem waiting_concat :
    waiting (trace ++ [event]) = event.onWaiting (waiting trace) := by
  simp [waiting, List.foldl_append]

@[simp] theorem subtractions_concat :
    subtractions (trace ++ [event]) = subtractions trace ++ event.subtracts.toList := by
  cases h : event.subtracts <;> simp [subtractions, List.filterMap_append, h]

@[simp] theorem emptySince_concat (permit : Nat) :
    emptySince permit (trace ++ [event]) = event.onEmpty permit (emptySince permit trace) := by
  simp [emptySince, List.foldl_append]

@[simp] theorem evictionsInCall_concat (task : Nat) :
    evictionsInCall task (trace ++ [event]) =
      event.onEvictions task (evictionsInCall task trace) := by
  simp [evictionsInCall, List.foldl_append]

end Records

end Slt.Server
