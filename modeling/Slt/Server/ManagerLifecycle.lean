import Slt.Server.ManagerViews
import Slt.Lib.Trace
import Mathlib.Data.List.Nodup
import Mathlib.Tactic.Tauto

/-!
# The lifecycle of the sessions

Every session is told once, if at all, why it has to end: by the session
that takes over from it, or by the shutdown of the server. Its sender waits
in the manager's entry, then possibly in a shutdown in progress, and is used
from there; only a task that is over loses it unused.
-/

namespace Slt.Server

open Lib (getElem?_modify_eq_some lt_length_of_getElem?)

variable {tun : TunConfig} {clients : List ServerClient}

/-! ## One task and its channel -/

/-- A task's channel, given whether its sender is in the manager's entry
(`held`) or in a shutdown in progress (`pending`), and whether its entry was
replaced or was there when a shutdown started. -/
structure SessionTask.Sound (held pending replaced present : Prop) (task : SessionTask) : Prop where
  listening : task.channel.receiverGone = false ↔ task.phase = .running
  carried : ∀ reason, task.channel.value = some reason → task.channel.offered = [reason]
  delivered : task.phase = .running → task.channel.value = task.channel.offered.head?
  once : task.channel.offered.length ≤ 1
  waiting : task.channel.senderGone = false ↔ held ∨ pending
  unused : task.channel.senderGone = false → task.channel.offered = []
  used : task.channel.senderGone = true → task.channel.offered ≠ [] ∨ task.phase = .finished
  takeover : .takeover ∈ task.channel.offered ↔ replaced
  restart : .serverRestart ∈ task.channel.offered ∨ pending ↔ present

namespace SessionTask.Sound

variable {held pending replaced present : Prop} {task : SessionTask}

theorem new (handle : SessionHandle) :
    SessionTask.Sound True False False False ⟨handle, .running, .new⟩ := by
  constructor <;> simp [ShutdownChannel.new]

theorem congr {held' pending' replaced' present' : Prop}
    (sound : task.Sound held pending replaced present) (hheld : held' ↔ held)
    (hpending : pending' ↔ pending) (hreplaced : replaced' ↔ replaced)
    (hpresent : present' ↔ present) : task.Sound held' pending' replaced' present' := by
  rwa [hheld, hpending, hreplaced, hpresent]

theorem send {held' pending' replaced' present' : Prop} {reason : SessionShutdownReason}
    (sound : task.Sound held pending replaced present) (hwaiting : held ∨ pending)
    (hheld : ¬ held') (hpending : ¬ pending') (htakeover : reason = .takeover ↔ replaced')
    (hrestart : reason = .serverRestart ↔ present') :
    SessionTask.Sound held' pending' replaced' present'
      { task with channel := task.channel.send reason } := by
  have hgone := sound.waiting.mpr hwaiting
  have hunused := sound.unused hgone
  have hnone : task.channel.value = none := by
    cases h : task.channel.value with
    | none => rfl
    | some other => simp [sound.carried _ h] at hunused
  constructor
  case listening => exact sound.listening
  case carried =>
    intro other h
    cases hreceiver : task.channel.receiverGone <;>
      simp [ShutdownChannel.send, hreceiver, hnone, hunused] at h ⊢
    exact h
  case delivered =>
    intro hrunning
    simp [ShutdownChannel.send, sound.listening.mpr hrunning]
  case once => simp [ShutdownChannel.send, hunused]
  case waiting => simp [ShutdownChannel.send, hheld, hpending]
  case unused => simp [ShutdownChannel.send]
  case used => simp [ShutdownChannel.send]
  case takeover =>
    show .takeover ∈ reason :: task.channel.offered ↔ replaced'
    rw [hunused, List.mem_singleton, ← htakeover, eq_comm]
  case restart =>
    show .serverRestart ∈ reason :: task.channel.offered ∨ pending' ↔ present'
    rw [hunused, List.mem_singleton, ← hrestart, eq_comm, or_iff_left hpending]

theorem taken {now : Prop} (sound : task.Sound held pending replaced present)
    (hheld : held → now) (hnow : now → held ∨ present) :
    task.Sound False (pending ∨ held) replaced (present ∨ now) := by
  refine { sound with waiting := ?_, restart := ?_ }
  · rw [sound.waiting, or_comm, false_or]
  · rw [← or_assoc, sound.restart]
    constructor
    · rintro (h | h)
      · exact .inl h
      · exact .inr (hheld h)
    · rintro (h | h)
      · exact .inl h
      · exact (hnow h).symm

theorem ended (sound : task.Sound held pending replaced present) (hrunning : task.phase = .running) :
    SessionTask.Sound held pending replaced present
      { task with phase := .closing, channel := task.channel.dropReceiver } where
  listening := by simp [ShutdownChannel.dropReceiver]
  carried := sound.carried
  delivered h := by cases h
  once := sound.once
  waiting := sound.waiting
  unused := sound.unused
  used h := .inl ((sound.used h).resolve_right (by simp [hrunning]))
  takeover := sound.takeover
  restart := sound.restart

theorem moved {phase : TaskPhase} (sound : task.Sound held pending replaced present)
    (hbefore : task.phase ≠ .running) (hafter : phase ≠ .running)
    (hfinished : task.phase = .finished → phase = .finished) :
    SessionTask.Sound held pending replaced present { task with phase := phase } where
  listening := ⟨fun h => absurd (sound.listening.mp h) hbefore, fun h => absurd h hafter⟩
  carried := sound.carried
  delivered h := absurd h hafter
  once := sound.once
  waiting := sound.waiting
  unused := sound.unused
  used h := (sound.used h).imp_right hfinished
  takeover := sound.takeover
  restart := sound.restart

theorem dropped (sound : task.Sound held pending replaced present) (hpending : ¬ pending)
    (hfinished : task.phase = .finished) :
    SessionTask.Sound False pending replaced present
      { task with channel := task.channel.dropSender } where
  listening := sound.listening
  carried := sound.carried
  delivered := sound.delivered
  once := sound.once
  waiting := by simp [ShutdownChannel.dropSender, hpending]
  unused := by simp [ShutdownChannel.dropSender]
  used _ := .inr hfinished
  takeover := sound.takeover
  restart := sound.restart

theorem available (sound : task.Sound held pending replaced present)
    (hrunning : task.phase = .running) : task.channel.unavailable = false := by
  unfold ShutdownChannel.unavailable
  cases hgone : task.channel.senderGone with
  | false => simp
  | true =>
    have hoffered := (sound.used hgone).resolve_right (by simp [hrunning])
    rw [sound.delivered hrunning]
    cases h : task.channel.offered with
    | nil => exact absurd h hoffered
    | cons _ _ => rfl

end SessionTask.Sound

/-! ## Where the senders are -/

namespace ManagerWorld

/-- The manager has an entry with this session id. -/
def Current (w : ManagerWorld) (sessionId : UInt64) : Prop :=
  ∃ clientId session, w.state.sessions clientId = some session ∧ session.sessionId = sessionId

def Held (w : ManagerWorld) (task : SessionTask) : Prop :=
  w.state.acceptingSessions = true ∧ w.Current task.handle.sessionId

def Pending (w : ManagerWorld) (t : Nat) : Prop := t ∈ w.notifying.flatten

def Replaced (w : ManagerWorld) (task : SessionTask) : Prop :=
  ∃ later, .replaced task.handle.clientId task.handle.sessionId later ∈ w.log

/-- The session had its entry when a shutdown started. -/
def Present (w : ManagerWorld) (sessionId : UInt64) : Prop :=
  ∃ present, .shutdownStarted present ∈ w.log ∧ sessionId ∈ present

structure Senders (w : ManagerWorld) : Prop where
  shutdown : ∀ clientId session (t : Nat) (task : SessionTask),
    w.state.sessions clientId = some session → w.tasks[t]? = some task →
    task.handle.sessionId = session.sessionId →
    session.shutdown = if w.state.acceptingSessions then some t else none
  quiet : w.state.acceptingSessions = true →
    w.notifying = [] ∧ ∀ present, .shutdownStarted present ∉ w.log
  nodup : w.notifying.flatten.Nodup
  seen : w.state.acceptingSessions = false → ∀ sessionId, w.Current sessionId → w.Present sessionId
  past : ∀ clientId sessionId later, .replaced clientId sessionId later ∈ w.log →
    sessionId.toNat ≤ w.tasks.length
  sound : ∀ (t : Nat) (task : SessionTask), w.tasks[t]? = some task →
    task.Sound (w.Held task) (w.Pending t) (w.Replaced task) (w.Present task.handle.sessionId)

namespace Senders

variable {w w' : ManagerWorld} {t : Nat} {task : SessionTask}

theorem initial : Senders .initial where
  shutdown _ _ _ _ h := by cases h
  quiet _ := ⟨rfl, fun _ h => by cases h⟩
  nodup := List.nodup_nil
  seen h := by cases h
  past _ _ _ h := by cases h
  sound _ _ h := by cases h

theorem not_pending (senders : Senders w) (h : w.state.acceptingSessions = true) :
    ¬ w.Pending t := by
  rw [Pending, (senders.quiet h).1]
  exact List.not_mem_nil

theorem not_accepting (senders : Senders w) (h : w.Pending t) :
    w.state.acceptingSessions = false := by
  cases haccepting : w.state.acceptingSessions with
  | false => rfl
  | true => exact absurd h (senders.not_pending haccepting)

/-- Steps of a single task that leave the manager's state and the senders alone. -/
theorem of_task (senders : Senders w) {f : SessionTask → SessionTask} {more : List ManagerEvent}
    (hstate : w'.state = w.state) (htasks : w'.tasks = w.tasks.modify t f)
    (hflatten : w'.notifying.flatten = w.notifying.flatten)
    (hnil : w.notifying = [] → w'.notifying = []) (hlog : w'.log = w.log ++ more)
    (hhandle : ∀ task, (f task).handle = task.handle)
    (hreplaced : ∀ clientId sessionId later, .replaced clientId sessionId later ∉ more)
    (hstarted : ∀ present, .shutdownStarted present ∉ more)
    (hsound : ∀ task, w.tasks[t]? = some task → ∀ held pending replaced present,
      task.Sound held pending replaced present → (f task).Sound held pending replaced present) :
    Senders w' := by
  have hevent : ∀ event, event ∉ more → (event ∈ w'.log ↔ event ∈ w.log) := by
    intro event hnew
    rw [hlog, List.mem_append, or_iff_left hnew]
  have hpresent : ∀ sessionId, w'.Present sessionId ↔ w.Present sessionId := fun _ =>
    exists_congr fun present => and_congr_left fun _ => hevent _ (hstarted present)
  have hcurrent : ∀ sessionId, w'.Current sessionId ↔ w.Current sessionId := fun _ => by
    rw [Current, hstate, Current]
  -- `shutdown` and `sound` speak about the changed task; the others only about what
  -- the step leaves alone.
  constructor
  case shutdown =>
    intro clientId session t' task' hsession htask' hid
    rw [htasks] at htask'
    obtain ⟨task, htask, rfl⟩ := getElem?_modify_eq_some.mp htask'
    rw [hstate] at hsession ⊢
    refine senders.shutdown _ _ _ _ hsession htask ?_
    rw [← hid]
    split
    · rw [hhandle]
    · rfl
  case quiet =>
    intro h
    rw [hstate] at h
    obtain ⟨hnotifying, hquiet⟩ := senders.quiet h
    refine ⟨hnil hnotifying, fun present hmem => ?_⟩
    exact hquiet _ ((hevent _ (hstarted _)).mp hmem)
  case nodup =>
    rw [hflatten]
    exact senders.nodup
  case seen =>
    intro h sessionId hnow
    rw [hstate] at h
    exact (hpresent _).mpr (senders.seen h _ ((hcurrent _).mp hnow))
  case past =>
    intro clientId sessionId later h
    rw [htasks, List.length_modify]
    exact senders.past _ _ _ ((hevent _ (hreplaced _ _ _)).mp h)
  case sound =>
    intro t' task' h
    rw [htasks] at h
    obtain ⟨task, htask, rfl⟩ := getElem?_modify_eq_some.mp h
    have hold := senders.sound _ _ htask
    have hsame : (if t = t' then f task else task).handle = task.handle := by
      split
      · exact hhandle _
      · rfl
    have hnew : (if t = t' then f task else task).Sound (w.Held task) (w.Pending t')
        (w.Replaced task) (w.Present task.handle.sessionId) := by
      split
      · subst t'
        exact hsound _ htask _ _ _ _ hold
      · exact hold
    refine hnew.congr ?_ ?_ ?_ ?_
    · rw [Held, hsame, hstate, hcurrent, Held]
    · rw [Pending, hflatten, Pending]
    · rw [Replaced, hsame]
      exact exists_congr fun later => hevent _ (hreplaced _ _ later)
    · rw [hsame, hpresent]

theorem of_idle (senders : Senders w) {more : List ManagerEvent} (hstate : w'.state = w.state)
    (htasks : w'.tasks = w.tasks) (hflatten : w'.notifying.flatten = w.notifying.flatten)
    (hnil : w.notifying = [] → w'.notifying = []) (hlog : w'.log = w.log ++ more)
    (hreplaced : ∀ clientId sessionId later, .replaced clientId sessionId later ∉ more)
    (hstarted : ∀ present, .shutdownStarted present ∉ more) : Senders w' :=
  senders.of_task (t := 0) (f := id) hstate (by rw [htasks, List.modify_id]) hflatten hnil hlog
    (fun _ => rfl) hreplaced hstarted (fun _ _ _ _ _ _ h => h)

/-! ## Takeover -/

section Spawn

variable {clientId : ClientId} {addr : Ipv4Addr} {tx : SessionTx}

/-- The task's entry is the one that a new session of the client replaces. -/
def Outgoing (w : ManagerWorld) (clientId : ClientId) (task : SessionTask) : Prop :=
  ∃ session, w.state.sessions clientId = some session ∧
    session.sessionId = task.handle.sessionId

theorem outgoing_client (views : Views clients w) (htask : w.tasks[t]? = some task)
    {session : ManagedSession} (hsession : w.state.sessions clientId = some session)
    (hid : session.sessionId = task.handle.sessionId) : task.handle.clientId = clientId := by
  obtain ⟨t', other, hother, hsame, rfl, -⟩ := views.entry _ _ hsession
  cases views.same_task hother htask (hsame.trans hid)
  rw [htask] at hother
  cases hother
  rfl

theorem outgoing_iff (senders : Senders w) (views : Views clients w)
    (haccepting : w.state.acceptingSessions = true) (htask : w.tasks[t]? = some task) :
    (w.state.sessions clientId).bind (·.shutdown) = some t ↔ Outgoing w clientId task := by
  constructor
  · intro h
    obtain ⟨session, hsession, hshutdown⟩ := Option.bind_eq_some_iff.mp h
    obtain ⟨t', other, hother, hid, -, -⟩ := views.entry _ _ hsession
    have hsame := senders.shutdown _ _ _ _ hsession hother hid
    rw [if_pos haccepting, hshutdown] at hsame
    cases hsame
    rw [htask] at hother
    cases hother
    exact ⟨session, hsession, hid.symm⟩
  · rintro ⟨session, hsession, hid⟩
    rw [hsession, Option.bind_some, senders.shutdown _ _ _ _ hsession htask hid.symm,
      if_pos haccepting]

theorem spawn_current (views : Views clients w) (htask : w.tasks[t]? = some task) :
    (w.spawnSession clientId addr tx).Current task.handle.sessionId ↔
      w.Current task.handle.sessionId ∧ ¬ Outgoing w clientId task := by
  have hold : (w.registry.registerSession clientId addr tx).1.sessionId ≠
      task.handle.sessionId := by
    intro hid
    have hnew := views.spawn_id clientId addr tx
    rw [hid, views.ids _ _ htask] at hnew
    exact absurd (Nat.succ.inj hnew)
      (Nat.ne_of_lt (lt_length_of_getElem? htask))
  constructor
  · rintro ⟨c, session, hsession, hid⟩
    by_cases heq : c = clientId
    · subst heq
      rw [spawn_session_self] at hsession
      cases hsession
      exact absurd hid hold
    · rw [spawn_session_of_ne heq] at hsession
      refine ⟨⟨c, session, hsession, hid⟩, ?_⟩
      rintro ⟨other, hother, hsame⟩
      have hc := outgoing_client views htask hsession hid
      exact heq (hc.symm.trans (outgoing_client views htask hother hsame))
  · rintro ⟨⟨c, session, hsession, hid⟩, hstays⟩
    have hne : c ≠ clientId := by
      rintro rfl
      exact hstays ⟨session, hsession, hid⟩
    exact ⟨c, session, (spawn_session_of_ne hne).trans hsession, hid⟩

theorem mem_spawn_log {event : ManagerEvent} :
    event ∈ (w.spawnSession clientId addr tx).log ↔
      event ∈ w.log ∨ event = .registered w.tasks.length ∨
      (∃ session, w.state.sessions clientId = some session ∧
        event = .replaced clientId session.sessionId w.tasks.length) ∨
      event = .tracked w.tasks.length := by
  show event ∈ w.log ++ _ ↔ _
  cases w.state.sessions clientId <;> simp

theorem spawn_replaced (views : Views clients w) (htask : w.tasks[t]? = some task) :
    (w.spawnSession clientId addr tx).Replaced task ↔
      w.Replaced task ∨ Outgoing w clientId task := by
  constructor
  · rintro ⟨later, h⟩
    rcases mem_spawn_log.mp h with h | h | ⟨session, hsession, h⟩ | h
    · exact .inl ⟨later, h⟩
    · cases h
    · obtain ⟨-, hid, -⟩ := ManagerEvent.replaced.inj h
      exact .inr ⟨session, hsession, hid.symm⟩
    · cases h
  · rintro (⟨later, h⟩ | ⟨session, hsession, hid⟩)
    · exact ⟨later, mem_spawn_log.mpr (.inl h)⟩
    · refine ⟨w.tasks.length, mem_spawn_log.mpr (.inr (.inr (.inl ⟨session, hsession, ?_⟩)))⟩
      rw [outgoing_client views htask hsession hid, hid]

theorem spawn_started {present : List UInt64} :
    .shutdownStarted present ∈ (w.spawnSession clientId addr tx).log ↔
      .shutdownStarted present ∈ w.log := by
  rw [mem_spawn_log]
  simp

theorem spawn_notifying : (w.spawnSession clientId addr tx).notifying = w.notifying := by
  show (w.send .takeover ((w.state.sessions clientId).bind (·.shutdown))).notifying = _
  cases (w.state.sessions clientId).bind (·.shutdown) <;> rfl

theorem spawn_pending : (w.spawnSession clientId addr tx).Pending t ↔ w.Pending t := by
  rw [Pending, spawn_notifying, Pending]

theorem spawn_past (senders : Senders w) (views : Views clients w) {c : ClientId}
    {sessionId : UInt64} {later : Nat}
    (h : .replaced c sessionId later ∈ (w.spawnSession clientId addr tx).log) :
    sessionId.toNat ≤ w.tasks.length := by
  rcases mem_spawn_log.mp h with h | h | ⟨session, hsession, h⟩ | h
  · exact senders.past _ _ _ h
  · cases h
  · obtain ⟨-, rfl, -⟩ := ManagerEvent.replaced.inj h
    obtain ⟨t', other, hother, hsame, -, -⟩ := views.entry _ _ hsession
    rw [← hsame, views.ids _ _ hother]
    exact lt_length_of_getElem? hother
  · cases h

theorem spawn_absent (senders : Senders w) (haccepting : w.state.acceptingSessions = true)
    (sessionId : UInt64) : ¬ (w.spawnSession clientId addr tx).Present sessionId := by
  rintro ⟨present, hmem, -⟩
  exact (senders.quiet haccepting).2 _ (spawn_started.mp hmem)

theorem spawn_sound_before (senders : Senders w) (views : Views clients w)
    (haccepting : w.state.acceptingSessions = true) (htask : w.tasks[t]? = some task)
    {after : SessionTask}
    (hafter : after = notified task t .takeover ((w.state.sessions clientId).bind (·.shutdown))) :
    after.Sound ((w.spawnSession clientId addr tx).Held after)
      ((w.spawnSession clientId addr tx).Pending t)
      ((w.spawnSession clientId addr tx).Replaced after)
      ((w.spawnSession clientId addr tx).Present after.handle.sessionId) := by
  have hstill : (w.spawnSession clientId addr tx).state.acceptingSessions = true := haccepting
  have hsound := senders.sound _ _ htask
  have hcurrent : (w.spawnSession clientId addr tx).Current task.handle.sessionId ↔ _ :=
    spawn_current views htask
  have hreplaced : (w.spawnSession clientId addr tx).Replaced task ↔ _ :=
    spawn_replaced views htask
  have hpresent := @spawn_absent w clientId addr tx senders haccepting task.handle.sessionId
  by_cases hout : Outgoing w clientId task
  · -- The old session of the client: its sender is used now.
    have hheld : w.Held task := by
      obtain ⟨session, hsession, hid⟩ := hout
      exact ⟨haccepting, clientId, session, hsession, hid⟩
    rw [notified, if_pos ((senders.outgoing_iff views haccepting htask).mpr hout)] at hafter
    subst hafter
    refine hsound.send (.inl hheld) ?_ ?_ ?_ ?_
    · exact fun hnow => (hcurrent.mp hnow.2).2 hout
    · rw [spawn_pending]
      exact senders.not_pending haccepting
    · exact ⟨fun _ => hreplaced.mpr (.inr hout), fun _ => rfl⟩
    · exact ⟨fun h => (by cases h), fun h => absurd h hpresent⟩
  · have habsent : ¬ w.Present task.handle.sessionId := by
      rintro ⟨present, hmem, -⟩
      exact (senders.quiet haccepting).2 _ hmem
    rw [notified, if_neg (fun h => hout ((senders.outgoing_iff views haccepting htask).mp h))]
      at hafter
    subst hafter
    refine hsound.congr ?_ spawn_pending ?_ ?_
    · simp only [Held, hstill, haccepting, hcurrent, hout, not_false_eq_true, and_true]
    · rw [hreplaced, or_iff_left hout]
    · exact iff_of_false hpresent habsent

theorem spawn (senders : Senders w) (views : Views clients w)
    (views' : Views clients (w.spawnSession clientId addr tx))
    (haccepting : w.state.acceptingSessions = true) :
    Senders (w.spawnSession clientId addr tx) := by
  have hstill : (w.spawnSession clientId addr tx).state.acceptingSessions = true := haccepting
  have hlength : (w.spawnSession clientId addr tx).tasks.length = w.tasks.length + 1 := by
    rw [spawn_tasks, List.length_append, length_send]
    rfl
  have hnew := spawn_new w clientId addr tx
  constructor
  case shutdown =>
    intro c session t task hsession htask hid
    rw [if_pos hstill]
    -- The new entry holds the new task's sender; every other entry is the old one.
    by_cases heq : c = clientId
    · subst heq
      rw [spawn_session_self] at hsession
      cases hsession
      rw [views'.same_task htask hnew hid]
    · rw [spawn_session_of_ne heq] at hsession
      obtain ⟨t', other, hother, hsame, -, -⟩ := views.entry _ _ hsession
      have ht : t = t' := by
        refine views'.same_task htask (spawn_lookup.mpr (.inl ⟨other, hother, rfl⟩)) ?_
        rw [notified_handle, hid, hsame]
      rw [ht, senders.shutdown _ _ _ _ hsession hother hsame, if_pos haccepting]
  case quiet =>
    intro _
    obtain ⟨hnone, hlog⟩ := senders.quiet haccepting
    exact ⟨spawn_notifying.trans hnone, fun present h => hlog _ (spawn_started.mp h)⟩
  case nodup =>
    rw [spawn_notifying]
    exact senders.nodup
  case seen =>
    intro h
    rw [hstill] at h
    cases h
  case past =>
    intro c sessionId later h
    rw [hlength]
    exact Nat.le_succ_of_le (spawn_past senders views h)
  case sound =>
    intro t task h
    rcases spawn_lookup.mp h with ⟨before, hbefore, hafter⟩ | ⟨rfl, rfl⟩
    · exact spawn_sound_before senders views haccepting hbefore hafter
    · refine (SessionTask.Sound.new _).congr ?_ ?_ ?_ ?_
      · exact iff_of_true ⟨hstill, clientId, _, spawn_session_self, rfl⟩ trivial
      · rw [spawn_pending]
        exact iff_of_false (senders.not_pending haccepting) id
      · refine iff_of_false ?_ id
        -- A session is replaced under an id that is already given out, the new one is not.
        rintro ⟨later, hmem⟩
        have hpast := spawn_past senders views hmem
        rw [views.spawn_id clientId addr tx] at hpast
        omega
      · exact iff_of_false (spawn_absent senders haccepting _) id

end Spawn

/-! ## Shutdown -/

section Shutdown

variable {order : List ClientId}

theorem shutdown_session {clientId : ClientId} {session : ManagedSession} :
    (w.startShutdown order).state.sessions clientId = some session ↔
      ∃ before, w.state.sessions clientId = some before ∧
        session = { before with shutdown := none } := by
  show Option.map _ _ = some session ↔ _
  rw [Option.map_eq_some_iff]
  simp only [eq_comm]

theorem shutdown_current {sessionId : UInt64} :
    (w.startShutdown order).Current sessionId ↔ w.Current sessionId := by
  constructor
  · rintro ⟨clientId, session, hsession, hid⟩
    obtain ⟨before, hbefore, rfl⟩ := shutdown_session.mp hsession
    exact ⟨clientId, before, hbefore, hid⟩
  · rintro ⟨clientId, session, hsession, hid⟩
    exact ⟨clientId, _, shutdown_session.mpr ⟨session, hsession, rfl⟩, hid⟩

theorem shutdown_present (hlists : w.Lists order) {sessionId : UInt64} :
    (w.startShutdown order).Present sessionId ↔ w.Present sessionId ∨ w.Current sessionId := by
  have hnow : sessionId ∈ order.filterMap (fun clientId =>
      (w.state.sessions clientId).map (·.sessionId)) ↔ w.Current sessionId := by
    rw [List.mem_filterMap]
    constructor
    · rintro ⟨clientId, -, h⟩
      obtain ⟨session, hsession, hid⟩ := Option.map_eq_some_iff.mp h
      exact ⟨clientId, session, hsession, hid⟩
    · rintro ⟨clientId, session, hsession, hid⟩
      exact ⟨clientId, hlists.2 _ (by rw [hsession]; rfl), by rw [hsession, ← hid]; rfl⟩
  constructor
  · rintro ⟨present, hmem, hid⟩
    rcases List.mem_append.mp hmem with hmem | hmem
    · exact .inl ⟨present, hmem, hid⟩
    · cases List.mem_singleton.mp hmem
      exact .inr (hnow.mp hid)
  · rintro (⟨present, hmem, hid⟩ | h)
    · exact ⟨present, List.mem_append_left _ hmem, hid⟩
    · exact ⟨_, List.mem_append_right _ (List.mem_singleton_self _), hnow.mpr h⟩

def taken (w : ManagerWorld) (order : List ClientId) : List Nat :=
  order.filterMap fun clientId => (w.state.sessions clientId).bind (·.shutdown)

section

variable (senders : Senders w) (views : Views clients w)
include senders views

theorem mem_taken (hlists : w.Lists order) (htask : w.tasks[t]? = some task) :
    t ∈ taken w order ↔ w.Held task := by
  rw [taken, List.mem_filterMap]
  constructor
  · rintro ⟨clientId, -, h⟩
    obtain ⟨session, hsession, hshutdown⟩ := Option.bind_eq_some_iff.mp h
    obtain ⟨t', other, hother, hid, -, -⟩ := views.entry _ _ hsession
    have hsame := senders.shutdown _ _ _ _ hsession hother hid
    rw [hshutdown] at hsame
    cases haccepting : w.state.acceptingSessions with
    | false => simp [haccepting] at hsame
    | true =>
      rw [haccepting, if_pos rfl] at hsame
      cases hsame
      rw [htask] at hother
      cases hother
      exact ⟨haccepting, clientId, session, hsession, hid.symm⟩
  · rintro ⟨haccepting, clientId, session, hsession, hid⟩
    refine ⟨clientId, hlists.2 _ (by rw [hsession]; rfl), ?_⟩
    rw [hsession, Option.bind_some, senders.shutdown _ _ _ _ hsession htask hid.symm,
      if_pos haccepting]

theorem taken_nodup (hlists : w.Lists order) : (taken w order).Nodup := by
  refine hlists.1.filterMap ?_
  intro one other t hone hother
  obtain ⟨session, hsession, hshutdown⟩ := Option.bind_eq_some_iff.mp hone
  obtain ⟨session', hsession', hshutdown'⟩ := Option.bind_eq_some_iff.mp hother
  obtain ⟨t₁, task₁, htask₁, hid₁, rfl, -⟩ := views.entry _ _ hsession
  obtain ⟨t₂, task₂, htask₂, hid₂, rfl, -⟩ := views.entry _ _ hsession'
  have h₁ := senders.shutdown _ _ _ _ hsession htask₁ hid₁
  have h₂ := senders.shutdown _ _ _ _ hsession' htask₂ hid₂
  rw [hshutdown] at h₁
  rw [hshutdown', h₁] at h₂
  cases haccepting : w.state.acceptingSessions with
  | false => simp [haccepting] at h₁
  | true =>
    rw [haccepting, if_pos rfl, if_pos rfl] at h₂
    cases h₂
    rw [htask₁] at htask₂
    cases htask₂
    rfl

theorem taken_of_not_accepting (h : w.state.acceptingSessions = false) : taken w order = [] := by
  rw [taken, List.filterMap_eq_nil_iff]
  intro clientId _
  cases hsession : w.state.sessions clientId with
  | none => rfl
  | some session =>
    obtain ⟨t, task, htask, hid, -, -⟩ := views.entry _ _ hsession
    simpa [h] using senders.shutdown _ _ _ _ hsession htask hid

theorem startShutdown (hlists : w.Lists order) : Senders (w.startShutdown order) := by
  have hflatten : (w.startShutdown order).notifying.flatten =
      w.notifying.flatten ++ taken w order := by
    simp [ManagerWorld.startShutdown, taken]
  constructor
  case shutdown =>
    intro clientId session t task hsession htask hid
    obtain ⟨before, -, rfl⟩ := shutdown_session.mp hsession
    rfl
  case quiet =>
    intro h
    cases h
  case nodup =>
    rw [hflatten]
    -- A second shutdown takes nothing: the first one has taken every sender.
    cases haccepting : w.state.acceptingSessions with
    | true =>
      rw [(senders.quiet haccepting).1]
      exact senders.taken_nodup views hlists
    | false =>
      rw [senders.taken_of_not_accepting views haccepting, List.append_nil]
      exact senders.nodup
  case seen =>
    intro _ sessionId hcurrent
    exact (shutdown_present hlists).mpr (.inr (shutdown_current.mp hcurrent))
  case past =>
    intro clientId sessionId later h
    rcases List.mem_append.mp h with h | h
    · exact senders.past _ _ _ h
    · cases List.mem_singleton.mp h
  case sound =>
    intro t task htask
    have hheld : w.Held task → w.Current task.handle.sessionId := fun h => h.2
    have hsound := (senders.sound _ _ htask).taken hheld ?_
    · refine hsound.congr ?_ ?_ ?_ (shutdown_present hlists)
      · exact iff_of_false (fun h => by cases h.1) id
      · rw [Pending, hflatten, List.mem_append, senders.mem_taken views hlists htask]
        rfl
      · simp [Replaced, ManagerWorld.startShutdown]
    · intro hcurrent
      -- What is current now was there at this shutdown, or at the first one.
      cases haccepting : w.state.acceptingSessions with
      | true => exact .inl ⟨haccepting, hcurrent⟩
      | false => exact .inr (senders.seen haccepting _ hcurrent)

end

theorem notify (senders : Senders w) {before after : List (List Nat)} {sender : Nat}
    {rest : List Nat} (hpending : w.notifying = before ++ (sender :: rest) :: after) :
    Senders { w.send .serverRestart (some sender) with
      notifying := before ++ rest :: after } := by
  have hflatten : w.notifying.flatten = before.flatten ++ sender :: (rest ++ after.flatten) := by
    simp [hpending]
  have hnodup := senders.nodup
  rw [hflatten, List.nodup_middle] at hnodup
  have hafter : (before ++ rest :: after).flatten = before.flatten ++ (rest ++ after.flatten) := by
    simp
  have hrest : ∀ t, t ∈ (before ++ rest :: after).flatten ↔ w.Pending t ∧ t ≠ sender := by
    intro t
    have hsender := (List.nodup_cons.mp hnodup).1
    rw [Pending, hflatten, hafter, List.mem_append, List.mem_append (t := sender :: _),
      List.mem_cons]
    constructor
    · intro h
      refine ⟨by tauto, ?_⟩
      rintro rfl
      exact hsender (List.mem_append.mpr h)
    · tauto
  have hsender : w.Pending sender := by
    rw [Pending, hflatten]
    simp
  -- Senders are pending only after a shutdown.
  have hclosed := senders.not_accepting hsender
  constructor
  case shutdown =>
    intro clientId session t task hsession htask hid
    obtain ⟨old, hold, rfl⟩ := send_lookup.mp htask
    exact senders.shutdown _ _ _ _ hsession hold (by rw [← hid, notified_handle])
  case quiet =>
    intro h
    exact absurd (hclosed.symm.trans h) Bool.false_ne_true
  case nodup =>
    show (before ++ rest :: after).flatten.Nodup
    rw [hafter]
    exact (List.nodup_cons.mp hnodup).2
  case seen => exact senders.seen
  case past =>
    intro clientId sessionId later h
    show sessionId.toNat ≤ (w.send .serverRestart (some sender)).tasks.length
    rw [length_send]
    exact senders.past _ _ _ h
  case sound =>
    intro t task htask
    obtain ⟨old, hold, rfl⟩ := send_lookup.mp htask
    have hsound := senders.sound _ _ hold
    have hheld : ∀ task, ¬ w.Held task := fun task h =>
      absurd (hclosed.symm.trans h.1) Bool.false_ne_true
    -- The notified task loses its pending sender; no other task is touched.
    by_cases heq : sender = t
    · subst heq
      rw [notified, if_pos rfl]
      refine hsound.send (.inr hsender) (hheld _) ?_ ?_ ?_
      · exact fun h => ((hrest _).mp h).2 rfl
      · exact ⟨fun h => (by cases h), fun h => by
          have htakeover := hsound.takeover.mpr h
          simp [hsound.unused (hsound.waiting.mpr (.inr hsender))] at htakeover⟩
      · exact ⟨fun _ => hsound.restart.mp (.inr hsender), fun _ => rfl⟩
    · rw [notified, if_neg (by simpa using heq)]
      refine hsound.congr Iff.rfl ?_ Iff.rfl Iff.rfl
      exact (hrest t).trans (and_iff_left (Ne.symm heq))

end Shutdown

/-! ## The end of a task -/

theorem forget_current (views : Views clients w) (htask : w.tasks[t]? = some task)
    {sessionId : UInt64} :
    (w.forget t task.handle).Current sessionId ↔
      w.Current sessionId ∧ sessionId ≠ task.handle.sessionId := by
  constructor
  · rintro ⟨clientId, session, hsession, rfl⟩
    obtain ⟨hbefore, hkept⟩ := SessionManagerState.removeSessionIfCurrent_eq_some.mp hsession
    refine ⟨⟨clientId, session, hbefore, rfl⟩, fun hid => ?_⟩
    exact hkept ⟨(outgoing_client views htask hbefore hid).symm, hid⟩
  · rintro ⟨⟨clientId, session, hsession, rfl⟩, hne⟩
    exact ⟨clientId, session, SessionManagerState.removeSessionIfCurrent_eq_some.mpr
      ⟨hsession, fun h => hne h.2⟩, rfl⟩

section

variable (senders : Senders w) (views : Views clients w) (htask : w.tasks[t]? = some task)
include senders views htask

theorem forget_sender :
    (w.Held task → (w.state.entryIfCurrent task.handle.clientId task.handle.sessionId).bind
      (·.shutdown) = some t) ∧
    (¬ w.Held task → (w.state.entryIfCurrent task.handle.clientId task.handle.sessionId).bind
      (·.shutdown) = none) := by
  constructor
  · rintro ⟨haccepting, clientId, session, hsession, hid⟩
    have hclient := outgoing_client views htask hsession hid
    rw [SessionManagerState.entryIfCurrent_eq_some.mpr ⟨hclient ▸ hsession, hid⟩,
      Option.bind_some, senders.shutdown _ _ _ _ hsession htask hid.symm, if_pos haccepting]
  · intro hheld
    cases hentry : w.state.entryIfCurrent task.handle.clientId task.handle.sessionId with
    | none => rfl
    | some session =>
      obtain ⟨hsession, hid⟩ := SessionManagerState.entryIfCurrent_eq_some.mp hentry
      rw [Option.bind_some, senders.shutdown _ _ _ _ hsession htask hid.symm, if_neg]
      exact fun haccepting => hheld ⟨haccepting, _, session, hsession, hid⟩

theorem of_forgotten {f : SessionTask → SessionTask}
    (htasks : (w.forget t task.handle).tasks = w.tasks.modify t f)
    (hnotifying : (w.forget t task.handle).notifying = w.notifying)
    (hlog : (w.forget t task.handle).log = w.log)
    (hhandle : ∀ task, (f task).handle = task.handle)
    (hsound : (f task).Sound False (w.Pending t) (w.Replaced task)
      (w.Present task.handle.sessionId)) : Senders (w.forget t task.handle) := by
  have hstate : (w.forget t task.handle).state =
      w.state.removeSessionIfCurrent task.handle.clientId task.handle.sessionId := rfl
  have haccepting : (w.forget t task.handle).state.acceptingSessions =
      w.state.acceptingSessions := by
    rw [hstate, SessionManagerState.removeSessionIfCurrent]
    split <;> rfl
  have hpresent : ∀ sessionId, (w.forget t task.handle).Present sessionId ↔ w.Present sessionId :=
    fun _ => by rw [Present, hlog, Present]
  constructor
  case shutdown =>
    intro clientId session t' task' hsession htask' hid
    rw [htasks] at htask'
    obtain ⟨before, hbefore, rfl⟩ := getElem?_modify_eq_some.mp htask'
    rw [haccepting]
    refine senders.shutdown _ _ _ _
      (SessionManagerState.removeSessionIfCurrent_eq_some.mp hsession).1 hbefore ?_
    rw [← hid]
    split
    · rw [hhandle]
    · rfl
  case quiet =>
    rw [haccepting, hnotifying, hlog]
    exact senders.quiet
  case nodup =>
    rw [hnotifying]
    exact senders.nodup
  case seen =>
    intro h sessionId hcurrent
    rw [haccepting] at h
    exact (hpresent _).mpr (senders.seen h _ ((forget_current views htask).mp hcurrent).1)
  case past =>
    intro clientId sessionId later h
    rw [hlog] at h
    rw [htasks, List.length_modify]
    exact senders.past _ _ _ h
  case sound =>
    intro t' task' h
    rw [htasks] at h
    obtain ⟨before, hbefore, rfl⟩ := getElem?_modify_eq_some.mp h
    have hpending : (w.forget t task.handle).Pending t' ↔ w.Pending t' := by
      rw [Pending, hnotifying, Pending]
    split
    · subst t'
      rw [htask] at hbefore
      cases hbefore
      refine hsound.congr ?_ hpending ?_ ?_
      -- The task's own entry is gone, so the manager no longer holds its sender.
      · refine iff_of_false (fun hheld => ?_) id
        rw [Held, hhandle, forget_current views htask] at hheld
        exact hheld.2.2 rfl
      · rw [Replaced, hhandle, hlog, Replaced]
      · rw [hhandle, hpresent]
    · rename_i hne
      refine (senders.sound _ _ hbefore).congr ?_ hpending ?_ (hpresent _)
      · rw [Held, haccepting, forget_current views htask, Held]
        -- Another task has another session id, so its entry stays.
        refine and_congr_right fun _ => and_iff_left fun hid => ?_
        exact hne (views.same_task hbefore htask hid).symm
      · rw [Replaced, hlog, Replaced]

theorem forget (hphase : task.phase = .unregistered) : Senders (w.forget t task.handle) := by
  obtain ⟨hheldSender, hfreeSender⟩ := senders.forget_sender views htask
  have hsound := senders.sound _ _ htask
  have hfinished : SessionTask.Sound (w.Held task) (w.Pending t) (w.Replaced task)
      (w.Present task.handle.sessionId) { task with phase := .finished } :=
    hsound.moved (by simp [hphase]) (by simp) (fun _ => rfl)
  by_cases hheld : w.Held task
  · have hsender := hheldSender hheld
    refine senders.of_forgotten views htask
      (f := fun task => { task with phase := .finished, channel := task.channel.dropSender })
      ?_ ?_ ?_ (fun _ => rfl) ?_
    · simp only [ManagerWorld.forget, hsender, modifyChannel, modifyTask, List.modify_modify_eq]
      rfl
    · simp only [ManagerWorld.forget, hsender]
      rfl
    · simp only [ManagerWorld.forget, hsender]
      rfl
    · exact hfinished.dropped (senders.not_pending hheld.1) rfl
  · have hsender := hfreeSender hheld
    refine senders.of_forgotten views htask (f := fun task => { task with phase := .finished })
      ?_ ?_ ?_ (fun _ => rfl) (hfinished.congr (iff_of_false id hheld) Iff.rfl Iff.rfl Iff.rfl)
    · simp only [ManagerWorld.forget, hsender]
      rfl
    · simp only [ManagerWorld.forget, hsender]
      rfl
    · simp only [ManagerWorld.forget, hsender]
      rfl

end

theorem step (senders : Senders w) (views : Views clients w) (views' : Views clients w')
    (hstep : Step clients w w') : Senders w' := by
  cases hstep with
  | spawn tx accepting assigned => exact senders.spawn views views' accepting
  | startShutdown lists => exact senders.startShutdown views lists
  | notify pending => exact senders.notify pending
  | closeTracker pending =>
    refine senders.of_idle rfl rfl (by simp [pending]) (fun hnil => ?_) rfl (by simp) (by simp)
    simp [hnil] at pending
  | endTask at_ phase outcome_ =>
    refine senders.of_task rfl rfl rfl id rfl (fun _ => rfl) (by simp) (by simp) ?_
    intro task htask held pending replaced present hsound
    rw [at_] at htask
    cases htask
    exact hsound.ended phase
  | callRegistry at_ phase routes =>
    exact senders.of_idle rfl rfl rfl id (List.append_nil _).symm (by simp) (by simp)
  | unregister at_ phase =>
    refine senders.of_task rfl rfl rfl id (List.append_nil _).symm (fun _ => rfl) (by simp)
      (by simp) ?_
    intro task htask held pending replaced present hsound
    rw [at_] at htask
    cases htask
    exact hsound.moved (by simp [phase]) (by simp) (by simp [phase])
  | forget at_ phase => exact senders.forget views at_ phase

end Senders

end ManagerWorld

end Slt.Server
