import Slt.Server.State

/-!
# The session manager

The manager spawns a task for every authenticated connection and keeps, for
each client, the session it regards as current together with the sender of
that session's shutdown channel. A reconnecting client takes over from its
old session, and a server shutdown notifies every session.

The registry has its own view of the current sessions. A session that ends
leaves the registry first and the manager later, so the two views can differ
in between. `Step` interleaves the sections that hold the manager's lock, the
sends and the ends of the sessions in any order.
-/

namespace Slt.Server

/-! ## The manager's state -/

/-- Tasks are numbered in the order they are spawned, and a shutdown channel is
named by the number of its task. -/
structure ManagedSession where
  sessionId : UInt64
  shutdown : Option Nat
  deriving DecidableEq

structure SessionManagerState where
  acceptingSessions : Bool
  sessions : ClientId → Option ManagedSession

namespace SessionManagerState

def new : SessionManagerState := ⟨true, fun _ => none⟩

def replaceSession (state : SessionManagerState) (clientId : ClientId) (sessionId : UInt64)
    (shutdown : Nat) : Option ManagedSession × SessionManagerState :=
  (state.sessions clientId,
    { state with
      sessions := Function.update state.sessions clientId (some ⟨sessionId, some shutdown⟩) })

/-- The entry of the session, if it is still the current one of its client. -/
def entryIfCurrent (state : SessionManagerState) (clientId : ClientId) (sessionId : UInt64) :
    Option ManagedSession :=
  (state.sessions clientId).filter (·.sessionId = sessionId)

def removeSessionIfCurrent (state : SessionManagerState) (clientId : ClientId)
    (sessionId : UInt64) : SessionManagerState :=
  if (state.entryIfCurrent clientId sessionId).isSome then
    { state with sessions := Function.update state.sessions clientId none }
  else state

end SessionManagerState

/-! ## Shutdown channels -/

/-- A channel for one reason. `offered` records the reasons that its sender
was used with; the value is lost when the receiver is gone. -/
structure ShutdownChannel where
  offered : List SessionShutdownReason
  value : Option SessionShutdownReason
  senderGone : Bool
  receiverGone : Bool
  deriving DecidableEq

namespace ShutdownChannel

def new : ShutdownChannel := ⟨[], none, false, false⟩

def send (channel : ShutdownChannel) (reason : SessionShutdownReason) : ShutdownChannel :=
  { channel with
    offered := reason :: channel.offered
    value := if channel.receiverGone then channel.value else some reason
    senderGone := true }

def dropSender (channel : ShutdownChannel) : ShutdownChannel := { channel with senderGone := true }

def dropReceiver (channel : ShutdownChannel) : ShutdownChannel :=
  { channel with receiverGone := true }

/-- The receiver learns that no reason will come. -/
def unavailable (channel : ShutdownChannel) : Bool := channel.value.isNone && channel.senderGone

end ShutdownChannel

/-! ## Tasks and the whole system -/

inductive SessionRunOutcome where
  | completed
  | shutdown (reason : SessionShutdownReason)
  | shutdownSignalUnavailable
  deriving DecidableEq

/-- The loop runs; it has ended and the session closes; the session has left
the registry; it has left the manager. -/
inductive TaskPhase where
  | running
  | closing
  | unregistered
  | finished
  deriving DecidableEq

structure SessionTask where
  handle : SessionHandle
  phase : TaskPhase
  channel : ShutdownChannel

/-- Which outcomes the race of the loop against the shutdown signal can have. -/
def SessionTask.canEnd (task : SessionTask) : SessionRunOutcome → Bool
  | .completed => true
  | .shutdown reason => task.channel.value = some reason
  | .shutdownSignalUnavailable => task.channel.unavailable

inductive ManagerEvent where
  | registered (task : Nat)
  | replaced (clientId : ClientId) (sessionId : UInt64) (by_ : Nat)
  | tracked (task : Nat)
  | shutdownStarted (present : List UInt64)
  | trackerClosed
  | ended (task : Nat) (outcome : SessionRunOutcome)
  deriving DecidableEq

/-- `notifying` has, for every shutdown in progress, the senders that it has
taken out of the manager's state and not used yet. -/
structure ManagerWorld where
  registry : SessionRegistry
  state : SessionManagerState
  tasks : List SessionTask
  notifying : List (List Nat)
  log : List ManagerEvent

namespace ManagerWorld

def initial : ManagerWorld := ⟨.new, .new, [], [], []⟩

def modifyTask (w : ManagerWorld) (task : Nat) (f : SessionTask → SessionTask) : ManagerWorld :=
  { w with tasks := w.tasks.modify task f }

def modifyChannel (w : ManagerWorld) (task : Nat) (f : ShutdownChannel → ShutdownChannel) :
    ManagerWorld :=
  w.modifyTask task fun t => { t with channel := f t.channel }

def send (w : ManagerWorld) (reason : SessionShutdownReason) (sender : Option Nat) :
    ManagerWorld :=
  match sender with
  | some task => w.modifyChannel task (·.send reason)
  | none => w

/-- `spawn_session_with_channel` while sessions are accepted; otherwise it
only returns an error. -/
def spawnSession (w : ManagerWorld) (clientId : ClientId) (assignedIpv4 : Ipv4Addr)
    (tx : SessionTx) : ManagerWorld :=
  let (handle, registry) := w.registry.registerSession clientId assignedIpv4 tx
  let task := w.tasks.length
  let (replaced, state) := w.state.replaceSession clientId handle.sessionId task
  let notified := w.send .takeover (replaced.bind (·.shutdown))
  { notified with
    registry := registry
    state := state
    tasks := notified.tasks ++ [⟨handle, .running, .new⟩]
    log := w.log ++ (.registered task ::
      (replaced.map fun old => .replaced clientId old.sessionId task).toList ++ [.tracked task]) }

/-- The part of `start_shutdown` under the lock, for one order of the entries. -/
def startShutdown (w : ManagerWorld) (order : List ClientId) : ManagerWorld :=
  { w with
    state := ⟨false, fun clientId =>
      (w.state.sessions clientId).map fun session => { session with shutdown := none }⟩
    notifying := w.notifying ++
      [order.filterMap fun clientId => (w.state.sessions clientId).bind (·.shutdown)]
    log := w.log ++ [.shutdownStarted
      (order.filterMap fun clientId => (w.state.sessions clientId).map (·.sessionId))] }

def endTask (w : ManagerWorld) (task : Nat) (outcome : SessionRunOutcome) : ManagerWorld :=
  { w.modifyTask task fun t => { t with phase := .closing, channel := t.channel.dropReceiver } with
    log := w.log ++ [.ended task outcome] }

def unregister (w : ManagerWorld) (task : Nat) (handle : SessionHandle) : ManagerWorld :=
  { w.modifyTask task fun t => { t with phase := .unregistered } with
    registry := SessionCall.apply w.registry handle .removeSession }

/-- The task's last step; an entry that it removes takes its sender along. -/
def forget (w : ManagerWorld) (task : Nat) (handle : SessionHandle) : ManagerWorld :=
  let finished := w.modifyTask task fun t => { t with phase := .finished }
  let dropped :=
    match (w.state.entryIfCurrent handle.clientId handle.sessionId).bind (·.shutdown) with
    | some sender => finished.modifyChannel sender (·.dropSender)
    | none => finished
  { dropped with state := w.state.removeSessionIfCurrent handle.clientId handle.sessionId }

/-- The order lists every client that has an entry, once. -/
def Lists (w : ManagerWorld) (order : List ClientId) : Prop :=
  order.Nodup ∧ ∀ clientId, (w.state.sessions clientId).isSome → clientId ∈ order

inductive Step (clients : List ServerClient) : ManagerWorld → ManagerWorld → Prop where
  | spawn {w : ManagerWorld} {clientId : ClientId} {addr : Ipv4Addr} (tx : SessionTx)
      (accepting : w.state.acceptingSessions = true) (assigned : Assigned clients clientId addr) :
      Step clients w (w.spawnSession clientId addr tx)
  | startShutdown {w : ManagerWorld} {order : List ClientId} (lists : w.Lists order) :
      Step clients w (w.startShutdown order)
  | notify {w : ManagerWorld} {before after : List (List Nat)} {sender : Nat}
      {rest : List Nat} (pending : w.notifying = before ++ (sender :: rest) :: after) :
      Step clients w
        { w.send .serverRestart (some sender) with notifying := before ++ rest :: after }
  | closeTracker {w : ManagerWorld} {before after : List (List Nat)}
      (pending : w.notifying = before ++ [] :: after) :
      Step clients w { w with notifying := before ++ after, log := w.log ++ [.trackerClosed] }
  | endTask {w : ManagerWorld} {t : Nat} {task : SessionTask} {outcome : SessionRunOutcome}
      (at_ : w.tasks[t]? = some task) (phase : task.phase = .running)
      (outcome_ : task.canEnd outcome = true) : Step clients w (w.endTask t outcome)
  | callRegistry {w : ManagerWorld} {t : Nat} {task : SessionTask} {call : SessionCall}
      (at_ : w.tasks[t]? = some task) (phase : task.phase = .running ∨ task.phase = .closing)
      (routes : call ≠ .removeSession) :
      Step clients w { w with registry := call.apply w.registry task.handle }
  | unregister {w : ManagerWorld} {t : Nat} {task : SessionTask}
      (at_ : w.tasks[t]? = some task) (phase : task.phase = .closing) :
      Step clients w (w.unregister t task.handle)
  | forget {w : ManagerWorld} {t : Nat} {task : SessionTask}
      (at_ : w.tasks[t]? = some task) (phase : task.phase = .unregistered) :
      Step clients w (w.forget t task.handle)

inductive Reachable (clients : List ServerClient) : ManagerWorld → Prop where
  | initial : Reachable clients .initial
  | step {w w' : ManagerWorld} : Reachable clients w → Step clients w w' → Reachable clients w'

end ManagerWorld

end Slt.Server
