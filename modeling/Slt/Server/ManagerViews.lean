import Slt.Server.Manager
import Slt.Lib.Indexed

/-!
# The two views of the current sessions

Between any two steps, a session that the registry has for a client is also
the manager's session of that client: the manager forgets a session only
after it has left the registry, and both learn of a new one in one step.
-/

namespace Slt.Server

open Lib (getElem?_modify_eq_some map_modify_of_eq getElem?_concat_eq_some)

variable {tun : TunConfig} {clients : List ServerClient}

/-! ## The manager's map -/

namespace SessionManagerState

variable {state : SessionManagerState} {clientId : ClientId} {sessionId : UInt64}

theorem entryIfCurrent_eq_some {session : ManagedSession} :
    state.entryIfCurrent clientId sessionId = some session ↔
      state.sessions clientId = some session ∧ session.sessionId = sessionId := by
  simp [entryIfCurrent, Option.filter_eq_some_iff]

theorem removeSessionIfCurrent_eq_some {other : ClientId} {session : ManagedSession} :
    (state.removeSessionIfCurrent clientId sessionId).sessions other = some session ↔
      state.sessions other = some session ∧
        ¬ (other = clientId ∧ session.sessionId = sessionId) := by
  unfold removeSessionIfCurrent
  by_cases heq : other = clientId
  · subst heq
    cases hentry : state.entryIfCurrent other sessionId with
    | none =>
      simp only [Option.isSome_none, Bool.false_eq_true, if_false, true_and]
      refine ⟨fun h => ⟨h, fun hid => ?_⟩, And.left⟩
      have := entryIfCurrent_eq_some.mpr ⟨h, hid⟩
      rw [hentry] at this
      cases this
    | some current =>
      obtain ⟨hcurrent, hid⟩ := entryIfCurrent_eq_some.mp hentry
      rw [if_pos Option.isSome_some]
      dsimp only
      rw [Function.update_self]
      refine ⟨fun h => (by cases h), fun ⟨h, hne⟩ => ?_⟩
      rw [hcurrent] at h
      cases h
      exact absurd ⟨rfl, hid⟩ hne
  · split <;> simp [heq]

end SessionManagerState

/-! ## Which sessions stay registered -/

namespace SessionRegistry

theorem call_sessions {registry : SessionRegistry} {caller : SessionHandle} {call : SessionCall}
    (h : call ≠ .removeSession) : (call.apply registry caller).sessions = registry.sessions := by
  cases call with
  | removeSession => exact absurd rfl h
  | insertCid dcidPrefix tx =>
    rw [SessionCall.apply]
    cases hinsert : registry.insertCid caller.clientId caller.sessionId dcidPrefix tx with
    | ok inserted => rw [(insertCid_ok hinsert).2.2]
    | error _ => rfl
  | removeCids => rfl
  | removeCidsExcept _ => rfl

theorem Consistent.active_of_removeSession {registry : SessionRegistry}
    {issued : List SessionHandle} {caller handle : SessionHandle}
    (inv : Consistent clients registry issued) (hmem : caller ∈ issued)
    (h : (SessionCall.apply registry caller .removeSession).Active handle) :
    registry.Active handle ∧ handle ≠ caller := by
  by_cases hactive : registry.Active caller
  · rw [SessionCall.apply, inv.removeSession_active hactive, Active] at h
    dsimp only at h
    by_cases heq : handle.clientId = caller.clientId
    · rw [heq, Function.update_self] at h
      cases h
    · rw [Function.update_of_ne heq] at h
      exact ⟨h, fun hsame => heq (congrArg _ hsame)⟩
  · rw [inv.stale_call hmem hactive] at h
    exact ⟨h, fun hsame => hactive (hsame ▸ h)⟩

theorem active_of_register {registry : SessionRegistry} {clientId : ClientId} {addr : Ipv4Addr}
    {tx : SessionTx} {handle : SessionHandle}
    (h : (registry.registerSession clientId addr tx).2.Active handle) :
    handle = (registry.registerSession clientId addr tx).1 ∨
      registry.Active handle ∧ handle.clientId ≠ clientId := by
  rw [Active, Consistent.register_sessions] at h
  by_cases heq : handle.clientId = clientId
  · rw [heq, Function.update_self] at h
    exact .inl (Option.some.inj h).symm
  · rw [Function.update_of_ne heq] at h
    exact .inr ⟨h, heq⟩

end SessionRegistry

/-! ## The invariant -/

namespace ManagerWorld

def handles (w : ManagerWorld) : List SessionHandle := w.tasks.map (·.handle)

structure Views (clients : List ServerClient) (w : ManagerWorld) : Prop where
  consistent : SessionRegistry.Consistent clients w.registry w.handles.reverse
  ids : ∀ (t : Nat) (task : SessionTask), w.tasks[t]? = some task → task.handle.sessionId.toNat = t + 1
  entry : ∀ clientId session, w.state.sessions clientId = some session →
    ∃ (t : Nat) (task : SessionTask), w.tasks[t]? = some task ∧
      task.handle.sessionId = session.sessionId ∧ task.handle.clientId = clientId ∧ task.phase ≠ .finished
  registered : ∀ handle, w.registry.Active handle →
    ∃ (t : Nat) (task : SessionTask), w.tasks[t]? = some task ∧ task.handle = handle ∧
      (task.phase = .running ∨ task.phase = .closing)
  managed : ∀ handle, w.registry.Active handle →
    ∃ session, w.state.sessions handle.clientId = some session ∧
      session.sessionId = handle.sessionId

/-! ## A spawned session -/

section Spawn

variable {w : ManagerWorld} {clientId : ClientId} {addr : Ipv4Addr} {tx : SessionTx}
  {t : Nat} {task : SessionTask}

def notified (task : SessionTask) (t : Nat) (reason : SessionShutdownReason)
    (sender : Option Nat) : SessionTask :=
  if sender = some t then { task with channel := task.channel.send reason } else task

section

variable {reason : SessionShutdownReason} {sender : Option Nat}

theorem notified_handle : (notified task t reason sender).handle = task.handle := by
  unfold notified
  split <;> rfl

theorem notified_phase : (notified task t reason sender).phase = task.phase := by
  unfold notified
  split <;> rfl

theorem send_lookup :
    (w.send reason sender).tasks[t]? = some task ↔
      ∃ before, w.tasks[t]? = some before ∧ task = notified before t reason sender := by
  cases sender with
  | none => simp [send, notified, eq_comm]
  | some sender =>
    refine getElem?_modify_eq_some.trans ?_
    simp [notified]

end

theorem length_send (w : ManagerWorld) (reason : SessionShutdownReason) (sender : Option Nat) :
    (w.send reason sender).tasks.length = w.tasks.length := by
  cases sender <;> simp [send, modifyChannel, modifyTask]

theorem spawn_tasks (w : ManagerWorld) (clientId : ClientId) (addr : Ipv4Addr) (tx : SessionTx) :
    (w.spawnSession clientId addr tx).tasks =
      (w.send .takeover ((w.state.sessions clientId).bind (·.shutdown))).tasks ++
        [⟨(w.registry.registerSession clientId addr tx).1, .running, .new⟩] := rfl

theorem spawn_lookup :
    (w.spawnSession clientId addr tx).tasks[t]? = some task ↔
      (∃ before, w.tasks[t]? = some before ∧ task = notified before t .takeover
        ((w.state.sessions clientId).bind (·.shutdown))) ∨
      t = w.tasks.length ∧
        task = ⟨(w.registry.registerSession clientId addr tx).1, .running, .new⟩ := by
  rw [spawn_tasks, getElem?_concat_eq_some, send_lookup, length_send]

theorem spawn_new (w : ManagerWorld) (clientId : ClientId) (addr : Ipv4Addr) (tx : SessionTx) :
    (w.spawnSession clientId addr tx).tasks[w.tasks.length]? =
      some ⟨(w.registry.registerSession clientId addr tx).1, .running, .new⟩ :=
  spawn_lookup.mpr (.inr ⟨rfl, rfl⟩)

theorem spawn_session_self :
    (w.spawnSession clientId addr tx).state.sessions clientId =
      some ⟨(w.registry.registerSession clientId addr tx).1.sessionId, some w.tasks.length⟩ := by
  simp [spawnSession, SessionManagerState.replaceSession]

theorem spawn_session_of_ne {other : ClientId} (h : other ≠ clientId) :
    (w.spawnSession clientId addr tx).state.sessions other = w.state.sessions other := by
  simp [spawnSession, SessionManagerState.replaceSession, h]

end Spawn

namespace Views

variable {w w' : ManagerWorld} {t t' : Nat} {task task' : SessionTask}

theorem initial : Views clients .initial where
  consistent := .new
  ids _ _ h := by cases h
  entry _ _ h := by cases h
  registered _ h := by cases h
  managed _ h := by cases h

theorem mem_handles (h : w.tasks[t]? = some task) : task.handle ∈ w.handles.reverse :=
  List.mem_reverse.mpr (List.mem_map_of_mem (List.mem_of_getElem? h))

theorem same_task (views : Views clients w) (h : w.tasks[t]? = some task)
    (h' : w.tasks[t']? = some task') (hid : task.handle.sessionId = task'.handle.sessionId) :
    t = t' := by
  have hone := views.ids _ _ h
  have htwo := views.ids _ _ h'
  rw [hid, htwo] at hone
  exact (Nat.succ.inj hone).symm

theorem spawn_id (views : Views clients w) (clientId : ClientId) (addr : Ipv4Addr)
    (tx : SessionTx) :
    (w.registry.registerSession clientId addr tx).1.sessionId.toNat = w.tasks.length + 1 := by
  show w.registry.nextSessionId.toNat = _
  simpa [handles] using views.consistent.next

def face (task : SessionTask) : SessionHandle × TaskPhase := (task.handle, task.phase)

theorem face_lookup {tasks tasks' : List SessionTask} (h : tasks'.map face = tasks.map face)
    (hlookup : tasks[t]? = some task) :
    ∃ other, tasks'[t]? = some other ∧ other.handle = task.handle ∧ other.phase = task.phase := by
  have hface : (tasks'.map face)[t]? = some (face task) := by
    rw [h, List.getElem?_map, hlookup]
    rfl
  rw [List.getElem?_map] at hface
  obtain ⟨other, hother, heq⟩ := Option.map_eq_some_iff.mp hface
  exact ⟨other, hother, congrArg Prod.fst heq, congrArg Prod.snd heq⟩

theorem handles_of_face {tasks tasks' : List SessionTask} (h : tasks'.map face = tasks.map face) :
    tasks'.map (·.handle) = tasks.map (·.handle) := by
  have := congrArg (List.map Prod.fst) h
  simpa [List.map_map, Function.comp_def, face] using this

theorem of_frame (views : Views clients w) (hregistry : w'.registry = w.registry)
    (hfaces : w'.tasks.map face = w.tasks.map face)
    (hsessions : ∀ clientId, (w'.state.sessions clientId).map (·.sessionId) =
      (w.state.sessions clientId).map (·.sessionId)) : Views clients w' where
  consistent := by
    rw [handles, handles_of_face hfaces, hregistry]
    exact views.consistent
  ids t task h := by
    obtain ⟨other, hother, hhandle, -⟩ := face_lookup hfaces.symm h
    rw [← hhandle]
    exact views.ids _ _ hother
  entry clientId session h := by
    have hold := hsessions clientId
    rw [h] at hold
    obtain ⟨old, hold, hid⟩ := Option.map_eq_some_iff.mp hold.symm
    obtain ⟨t, task, htask, hsession, hclient, hphase⟩ := views.entry _ _ hold
    obtain ⟨other, hother, hhandle, hsame⟩ := face_lookup hfaces htask
    refine ⟨t, other, hother, ?_, ?_, ?_⟩
    · rw [hhandle, hsession, hid]
    · rw [hhandle, hclient]
    · rwa [hsame]
  registered handle h := by
    rw [hregistry] at h
    obtain ⟨t, task, htask, rfl, hphase⟩ := views.registered _ h
    obtain ⟨other, hother, hhandle, hsame⟩ := face_lookup hfaces htask
    exact ⟨t, other, hother, hhandle, by rwa [hsame]⟩
  managed handle h := by
    rw [hregistry] at h
    obtain ⟨session, hsession, hid⟩ := views.managed _ h
    have hnew := hsessions handle.clientId
    rw [hsession] at hnew
    obtain ⟨new, hnew, heq⟩ := Option.map_eq_some_iff.mp hnew
    exact ⟨new, hnew, heq.trans hid⟩

theorem face_modifyChannel (w : ManagerWorld) (t : Nat)
    (f : ShutdownChannel → ShutdownChannel) :
    (w.modifyChannel t f).tasks.map face = w.tasks.map face := by
  apply map_modify_of_eq
  exact fun _ => rfl

theorem face_send (w : ManagerWorld) (reason : SessionShutdownReason) (sender : Option Nat) :
    (w.send reason sender).tasks.map face = w.tasks.map face := by
  cases sender with
  | none => rfl
  | some sender => exact face_modifyChannel _ _ _

variable (views : Views clients w)
include views

/-- A task moves on to a later phase, and the registry to a state that agrees with it. -/
theorem of_phase {f : SessionTask → SessionTask} {registry : SessionRegistry}
    (hhandle : ∀ task, (f task).handle = task.handle)
    (hphase : ∀ task, (f task).phase ≠ .finished)
    (hconsistent : SessionRegistry.Consistent clients registry w.handles.reverse)
    (hactive : ∀ handle, registry.Active handle → w.registry.Active handle)
    (hrunning : ∀ task, w.tasks[t]? = some task → registry.Active task.handle →
      (f task).phase = .running ∨ (f task).phase = .closing) :
    Views clients { w.modifyTask t f with registry := registry } where
  consistent := by
    show SessionRegistry.Consistent clients registry ((w.tasks.modify t f).map (·.handle)).reverse
    rw [map_modify_of_eq hhandle]
    exact hconsistent
  ids t' task' h := by
    obtain ⟨task, htask, rfl⟩ := getElem?_modify_eq_some.mp h
    have hid := views.ids _ _ htask
    split
    · rw [hhandle, hid]
    · exact hid
  entry clientId session h := by
    obtain ⟨t', task, htask, hid, hclient, hp⟩ := views.entry _ _ h
    refine ⟨t', _, getElem?_modify_eq_some.mpr ⟨task, htask, rfl⟩, ?_⟩
    split
    · rw [hhandle]
      exact ⟨hid, hclient, hphase _⟩
    · exact ⟨hid, hclient, hp⟩
  registered handle h := by
    obtain ⟨t', task, htask, rfl, hp⟩ := views.registered _ (hactive _ h)
    refine ⟨t', _, getElem?_modify_eq_some.mpr ⟨task, htask, rfl⟩, ?_⟩
    split
    · subst t'
      exact ⟨hhandle _, hrunning _ htask h⟩
    · exact ⟨rfl, hp⟩
  managed handle h := views.managed _ (hactive _ h)

theorem endTask (outcome : SessionRunOutcome) : Views clients (w.endTask t outcome) :=
  (views.of_phase (t := t)
    (f := fun task => { task with phase := .closing, channel := task.channel.dropReceiver })
    (fun _ => rfl) (fun _ h => by cases h) views.consistent (fun _ h => h)
    (fun _ _ _ => .inr rfl)).of_frame rfl rfl (fun _ => rfl)

theorem callRegistry (hvalid : validateClients tun clients = .ok ()) {call : SessionCall}
    (htask : w.tasks[t]? = some task) (hcall : call ≠ .removeSession) :
    Views clients { w with registry := call.apply w.registry task.handle } where
  consistent := views.consistent.call hvalid (mem_handles htask) call
  ids := views.ids
  entry := views.entry
  registered handle h := by
    rw [SessionRegistry.Active, SessionRegistry.call_sessions hcall] at h
    exact views.registered _ h
  managed handle h := by
    rw [SessionRegistry.Active, SessionRegistry.call_sessions hcall] at h
    exact views.managed _ h

theorem unregister (hvalid : validateClients tun clients = .ok ())
    (htask : w.tasks[t]? = some task) : Views clients (w.unregister t task.handle) := by
  have hmem := mem_handles htask
  refine views.of_phase (f := fun task => { task with phase := .unregistered }) (fun _ => rfl)
    (fun _ h => by cases h) (views.consistent.call hvalid hmem _) ?_ ?_
  · exact fun _ h => (views.consistent.active_of_removeSession hmem h).1
  · intro other hother h
    rw [htask] at hother
    cases hother
    exact absurd rfl (views.consistent.active_of_removeSession hmem h).2

/-- A session that has left the registry is not the registered one of its client. -/
theorem not_registered (htask : w.tasks[t]? = some task)
    (hphase : task.phase = .unregistered ∨ task.phase = .finished) {handle : SessionHandle}
    (h : w.registry.Active handle) : handle.sessionId ≠ task.handle.sessionId := by
  intro hid
  obtain ⟨t', other, hother, rfl, hrunning⟩ := views.registered _ h
  cases views.same_task hother htask hid
  rw [htask] at hother
  cases hother
  rcases hphase with hp | hp <;> simp [hp] at hrunning

theorem forget (htask : w.tasks[t]? = some task) (hphase : task.phase = .unregistered) :
    Views clients (w.forget t task.handle) := by
  -- The channel of the entry that is removed is not part of either view.
  have key : Views clients { w.modifyTask t fun t => { t with phase := .finished } with
      state := w.state.removeSessionIfCurrent task.handle.clientId task.handle.sessionId } := by
    constructor
    case consistent =>
      show SessionRegistry.Consistent clients w.registry
        ((w.tasks.modify t _).map (·.handle)).reverse
      rw [map_modify_of_eq (g := SessionTask.handle) (by exact fun _ => rfl)]
      exact views.consistent
    case ids =>
      intro t' task' h
      obtain ⟨other, hother, rfl⟩ := getElem?_modify_eq_some.mp h
      have hid := views.ids _ _ hother
      split <;> exact hid
    case entry =>
      intro clientId session h
      obtain ⟨hsession, hkept⟩ := SessionManagerState.removeSessionIfCurrent_eq_some.mp h
      obtain ⟨t', other, hother, hid, hclient, hp⟩ := views.entry _ _ hsession
      have hne : t ≠ t' := by
        rintro rfl
        rw [htask] at hother
        cases hother
        exact hkept ⟨hclient.symm, hid.symm⟩
      refine ⟨t', other, getElem?_modify_eq_some.mpr ⟨other, hother, ?_⟩, hid, hclient, hp⟩
      rw [if_neg hne]
    case registered =>
      intro handle h
      obtain ⟨t', other, hother, rfl, hrunning⟩ := views.registered _ h
      have hne : t ≠ t' := by
        rintro rfl
        rw [htask] at hother
        cases hother
        exact views.not_registered htask (.inl hphase) h rfl
      refine ⟨t', other, getElem?_modify_eq_some.mpr ⟨other, hother, ?_⟩, rfl, hrunning⟩
      rw [if_neg hne]
    case managed =>
      intro handle h
      obtain ⟨session, hsession, hid⟩ := views.managed _ h
      refine ⟨session, ?_, hid⟩
      refine SessionManagerState.removeSessionIfCurrent_eq_some.mpr ⟨hsession, fun hsame => ?_⟩
      exact views.not_registered htask (.inl hphase) h (hid.symm.trans hsame.2)
  refine key.of_frame ?_ ?_ ?_
  · unfold ManagerWorld.forget
    split <;> rfl
  · unfold ManagerWorld.forget
    split
    · exact face_modifyChannel _ _ _
    · rfl
  · intro clientId
    unfold ManagerWorld.forget
    split <;> rfl

theorem spawn (hvalid : validateClients tun clients = .ok ()) {clientId : ClientId}
    {addr : Ipv4Addr} {tx : SessionTx}
    (hassigned : Assigned clients clientId addr) (hcount : w.tasks.length + 1 < 2 ^ 64 - 1) :
    Views clients (w.spawnSession clientId addr tx) := by
  have hid := views.spawn_id clientId addr tx
  have hnew := spawn_new w clientId addr tx
  constructor
  case consistent =>
    have hhandles : (w.spawnSession clientId addr tx).handles.reverse =
        (w.registry.registerSession clientId addr tx).1 :: w.handles.reverse := by
      have hsame := handles_of_face
        (face_send w .takeover ((w.state.sessions clientId).bind (·.shutdown)))
      simp only [handles, spawnSession, SessionManagerState.replaceSession, List.map_append, hsame]
      simp
    rw [hhandles]
    exact views.consistent.register hvalid hassigned (by simpa [handles] using hcount)
  case ids =>
    intro t task h
    rcases spawn_lookup.mp h with ⟨old, hold, rfl⟩ | ⟨rfl, rfl⟩
    · rw [notified_handle]
      exact views.ids _ _ hold
    · exact hid
  case entry =>
    intro c session h
    by_cases heq : c = clientId
    · subst heq
      rw [spawn_session_self] at h
      cases h
      exact ⟨_, _, hnew, rfl, rfl, by simp⟩
    · rw [spawn_session_of_ne heq] at h
      obtain ⟨t, task, htask, hsame, hc, hp⟩ := views.entry _ _ h
      refine ⟨t, _, spawn_lookup.mpr (.inl ⟨task, htask, rfl⟩), ?_, ?_, ?_⟩
      · rw [notified_handle, hsame]
      · rw [notified_handle, hc]
      · rwa [notified_phase]
  case registered =>
    intro h hactive
    rcases SessionRegistry.active_of_register hactive with rfl | ⟨hbefore, -⟩
    · exact ⟨_, _, hnew, rfl, .inl rfl⟩
    · obtain ⟨t, task, htask, rfl, hp⟩ := views.registered _ hbefore
      refine ⟨t, _, spawn_lookup.mpr (.inl ⟨task, htask, rfl⟩), notified_handle, ?_⟩
      rwa [notified_phase]
  case managed =>
    intro h hactive
    rcases SessionRegistry.active_of_register hactive with rfl | ⟨hbefore, hne⟩
    · exact ⟨_, spawn_session_self, rfl⟩
    · obtain ⟨session, hsession, hsame⟩ := views.managed _ hbefore
      exact ⟨session, (spawn_session_of_ne hne).trans hsession, hsame⟩

theorem step (hvalid : validateClients tun clients = .ok ()) (hcount : w'.tasks.length < 2 ^ 64 - 1)
    (hstep : Step clients w w') : Views clients w' := by
  cases hstep with
  | @spawn clientId addr tx accepting assigned =>
    refine views.spawn hvalid assigned ?_
    rwa [spawn_tasks, List.length_append, length_send] at hcount
  | startShutdown lists =>
    refine views.of_frame rfl rfl fun clientId => ?_
    cases h : w.state.sessions clientId <;> simp [ManagerWorld.startShutdown, h]
  | notify pending => exact views.of_frame rfl (face_send _ _ _) fun _ => rfl
  | closeTracker pending => exact views.of_frame rfl rfl fun _ => rfl
  | endTask at_ phase outcome_ => exact views.endTask _
  | callRegistry at_ phase routes => exact views.callRegistry hvalid at_ routes
  | unregister at_ phase => exact views.unregister hvalid at_
  | forget at_ phase => exact views.forget at_ phase

end Views

end ManagerWorld

end Slt.Server
