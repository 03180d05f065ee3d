import Slt.Server.ManagerLifecycle

/-!
# What the manager's history looks like

Sessions are registered and tracked before the first shutdown starts, and
the tracker is closed only afterwards; no session ends because its shutdown
signal went away. All of this rests on session ids that are not reused: once
the counter of the registry is exhausted, a session that was taken over
removes its successor.
-/

namespace Slt.Server

open Lib (append_eq_append_cons getElem?_modify_eq_some)

variable {tun : TunConfig} {clients : List ServerClient}

def ManagerEvent.isSpawn : ManagerEvent → Bool
  | .registered _ | .replaced _ _ _ | .tracked _ => true
  | _ => false

namespace ManagerWorld

structure History (w : ManagerWorld) : Prop where
  registered : ∀ t, t < w.tasks.length → .registered t ∈ w.log
  tracked : ∀ t, .registered t ∈ w.log → .tracked t ∈ w.log
  ordered : ∀ pre present post, w.log = pre ++ .shutdownStarted present :: post →
    ∀ event ∈ post, event.isSpawn = false
  unclosed : w.state.acceptingSessions = true → .trackerClosed ∉ w.log
  closed : ∀ pre post, w.log = pre ++ .trackerClosed :: post →
    ∀ t, .registered t ∈ w.log → .tracked t ∈ pre
  available : ∀ t, .ended t .shutdownSignalUnavailable ∉ w.log

namespace History

variable {w w' : ManagerWorld} {more : List ManagerEvent}

theorem initial : History .initial := by
  constructor <;> simp [ManagerWorld.initial]

theorem extend (history : History w) (hlog : w'.log = w.log ++ more)
    (hlength : w'.tasks.length = w.tasks.length)
    (hspawn : ∀ event ∈ more, event.isSpawn = false)
    (hopen : w'.state.acceptingSessions = true →
      w.state.acceptingSessions = true ∧ .trackerClosed ∉ more)
    (havailable : ∀ t, .ended t .shutdownSignalUnavailable ∉ more) : History w' := by
  have hregistered : ∀ t, .registered t ∈ w'.log → .registered t ∈ w.log := by
    intro t h
    rw [hlog] at h
    refine (List.mem_append.mp h).resolve_right fun hmore => ?_
    exact absurd (hspawn _ hmore) (by simp [ManagerEvent.isSpawn])
  constructor
  case registered =>
    intro t ht
    rw [hlength] at ht
    rw [hlog]
    exact List.mem_append_left _ (history.registered t ht)
  case tracked =>
    intro t h
    rw [hlog]
    exact List.mem_append_left _ (history.tracked t (hregistered t h))
  case ordered =>
    intro pre present post h event hevent
    rw [hlog] at h
    rcases append_eq_append_cons h with ⟨mid, hold, rfl⟩ | ⟨mid, -, rfl⟩
    · rcases List.mem_append.mp hevent with hevent | hevent
      · exact history.ordered _ _ _ hold _ hevent
      · exact hspawn _ hevent
    · exact hspawn _ (List.mem_append_right _ (List.mem_cons_of_mem _ hevent))
  case unclosed =>
    intro h
    rw [hlog, List.mem_append, not_or]
    exact ⟨history.unclosed (hopen h).1, (hopen h).2⟩
  case closed =>
    intro pre post h t ht
    rw [hlog] at h
    rcases append_eq_append_cons h with ⟨mid, hold, -⟩ | ⟨mid, rfl, -⟩
    · exact history.closed _ _ hold _ (hregistered t ht)
    · exact List.mem_append_left _ (history.tracked t (hregistered t ht))
  case available =>
    intro t h
    rw [hlog, List.mem_append] at h
    exact h.elim (history.available t) (havailable t)

theorem spawn (history : History w) (senders : Senders w)
    (haccepting : w.state.acceptingSessions = true) {clientId : ClientId} {addr : Ipv4Addr}
    {tx : SessionTx} : History (w.spawnSession clientId addr tx) := by
  have hclosed : .trackerClosed ∉ (w.spawnSession clientId addr tx).log := by
    rw [Senders.mem_spawn_log]
    simpa using history.unclosed haccepting
  constructor
  case registered =>
    intro t ht
    rw [spawn_tasks, List.length_append, length_send] at ht
    rcases Nat.lt_succ_iff_lt_or_eq.mp ht with ht | rfl
    · exact Senders.mem_spawn_log.mpr (.inl (history.registered t ht))
    · exact Senders.mem_spawn_log.mpr (.inr (.inl rfl))
  case tracked =>
    intro t h
    rcases Senders.mem_spawn_log.mp h with h | h | ⟨session, -, h⟩ | h
    · exact Senders.mem_spawn_log.mpr (.inl (history.tracked t h))
    · cases h
      exact Senders.mem_spawn_log.mpr (.inr (.inr (.inr rfl)))
    · cases h
    · cases h
  case ordered =>
    intro pre present post h
    have hmem : .shutdownStarted present ∈ (w.spawnSession clientId addr tx).log := by
      rw [h]
      simp
    exact absurd (Senders.spawn_started.mp hmem) ((senders.quiet haccepting).2 _)
  case unclosed => exact fun _ => hclosed
  case closed =>
    intro pre post h
    exact absurd (by rw [h]; simp) hclosed
  case available =>
    intro t h
    rw [Senders.mem_spawn_log] at h
    simpa using h.resolve_left (history.available t)

theorem step (history : History w) (senders : Senders w) (hstep : Step clients w w') :
    History w' := by
  cases hstep with
  | spawn tx accepting assigned => exact history.spawn senders accepting
  | startShutdown lists =>
    exact history.extend rfl rfl (by simp [ManagerEvent.isSpawn]) (fun h => by cases h) (by simp)
  | notify pending =>
    exact history.extend (List.append_nil _).symm (length_send _ _ _) (by simp)
      (fun h => ⟨h, by simp⟩) (by simp)
  | closeTracker pending =>
    -- The shutdown in progress shows that sessions are no longer accepted.
    refine history.extend rfl rfl (by simp [ManagerEvent.isSpawn]) (fun h => ?_) (by simp)
    simp [(senders.quiet h).1] at pending
  | @endTask t task outcome at_ phase outcome_ =>
    refine history.extend rfl (List.length_modify _ _ _) (by simp [ManagerEvent.isSpawn])
      (fun h => ⟨h, by simp⟩) ?_
    intro t' h
    obtain ⟨-, rfl⟩ := ManagerEvent.ended.inj (List.mem_singleton.mp h)
    rw [SessionTask.canEnd, (senders.sound _ _ at_).available phase] at outcome_
    cases outcome_
  | callRegistry at_ phase routes =>
    exact history.extend (List.append_nil _).symm rfl (by simp) (fun h => ⟨h, by simp⟩) (by simp)
  | unregister at_ phase =>
    exact history.extend (List.append_nil _).symm (List.length_modify _ _ _) (by simp)
      (fun h => ⟨h, by simp⟩) (by simp)
  | @forget t task at_ phase =>
    have hlog : (w.forget t task.handle).log = w.log ++ [] := by
      rw [List.append_nil, ManagerWorld.forget]
      split <;> rfl
    refine history.extend hlog ?_ (by simp) (fun h => ⟨?_, by simp⟩) (by simp)
    · rw [ManagerWorld.forget]
      split <;> simp [modifyChannel, modifyTask]
    · have hsame : (w.forget t task.handle).state.acceptingSessions =
          w.state.acceptingSessions := by
        show (w.state.removeSessionIfCurrent _ _).acceptingSessions = _
        rw [SessionManagerState.removeSessionIfCurrent]
        split <;> rfl
      rwa [hsame] at h

end History

/-! ## Runs -/

variable {w w' : ManagerWorld}

theorem Step.length_le (hstep : Step clients w w') : w.tasks.length ≤ w'.tasks.length := by
  cases hstep with
  | spawn tx accepting assigned =>
    rw [spawn_tasks, List.length_append, length_send]
    exact Nat.le_add_right _ _
  | startShutdown lists => exact Nat.le_refl _
  | notify pending => exact Nat.le_of_eq (length_send _ _ _).symm
  | closeTracker pending => exact Nat.le_refl _
  | endTask at_ phase outcome_ => exact Nat.le_of_eq (List.length_modify _ _ _).symm
  | callRegistry at_ phase routes => exact Nat.le_refl _
  | unregister at_ phase => exact Nat.le_of_eq (List.length_modify _ _ _).symm
  | forget at_ phase =>
    rw [ManagerWorld.forget]
    split <;> simp [modifyChannel, modifyTask]

theorem Reachable.invariant (reach : Reachable clients w)
    (hvalid : validateClients tun clients = .ok ()) (hcount : w.tasks.length < 2 ^ 64 - 1) :
    Views clients w ∧ Senders w ∧ History w := by
  induction reach with
  | initial => exact ⟨.initial, .initial, .initial⟩
  | step _ hstep ih =>
    obtain ⟨views, senders, history⟩ := ih (Nat.lt_of_le_of_lt hstep.length_le hcount)
    have views' := views.step hvalid hcount hstep
    exact ⟨views', senders.step views views' hstep, history.step senders hstep⟩

end ManagerWorld

open ManagerWorld

theorem manager_lifecycle {w : ManagerWorld} (hvalid : validateClients tun clients = .ok ())
    (reach : ManagerWorld.Reachable clients w) (hcount : w.tasks.length < 2 ^ 64 - 1) :
    -- The registry's sessions are the manager's, which may have one more per client.
    (∀ clientId handle, w.registry.sessions clientId = some handle →
      ∃ session, w.state.sessions clientId = some session ∧
        session.sessionId = handle.sessionId) ∧
    (∀ clientId session, w.state.sessions clientId = some session →
      w.registry.sessions clientId = none ∨
      ∃ handle, w.registry.sessions clientId = some handle ∧
        handle.sessionId = session.sessionId) ∧
    -- What a session is told, and that its signal does not go away.
    (∀ (t : Nat) (task : SessionTask), w.tasks[t]? = some task →
      task.channel.offered.length ≤ 1 ∧
      (.takeover ∈ task.channel.offered ↔
        ∃ later, .replaced task.handle.clientId task.handle.sessionId later ∈ w.log) ∧
      (.serverRestart ∈ task.channel.offered ∨ t ∈ w.notifying.flatten ↔
        ∃ present, .shutdownStarted present ∈ w.log ∧ task.handle.sessionId ∈ present) ∧
      (∀ reason, task.channel.value = some reason → task.channel.offered = [reason]) ∧
      (task.phase = .running → task.channel.value = task.channel.offered.head?) ∧
      (task.phase = .running → task.channel.senderGone = true → task.channel.value ≠ none)) ∧
    (∀ t, .ended t .shutdownSignalUnavailable ∉ w.log) ∧
    -- No session is registered or replaced once a shutdown has started.
    (∀ pre present post, w.log = pre ++ .shutdownStarted present :: post →
      ∀ t, .registered t ∉ post ∧ ∀ clientId sessionId, .replaced clientId sessionId t ∉ post) ∧
    -- Every session's task is tracked before the tracker is closed.
    (∀ t, t < w.tasks.length → .registered t ∈ w.log) ∧
    (∀ pre post, w.log = pre ++ .trackerClosed :: post →
      ∀ t, .registered t ∈ w.log → .tracked t ∈ pre) := by
  obtain ⟨views, senders, history⟩ := reach.invariant hvalid hcount
  have hmanaged : ∀ clientId handle, w.registry.sessions clientId = some handle →
      ∃ session, w.state.sessions clientId = some session ∧
        session.sessionId = handle.sessionId := by
    intro clientId handle h
    obtain ⟨-, rfl⟩ := views.consistent.sessions _ _ h
    exact views.managed _ h
  refine ⟨hmanaged, ?_, ?_, history.available, ?_, history.registered, history.closed⟩
  · intro clientId session hsession
    cases h : w.registry.sessions clientId with
    | none => exact .inl rfl
    | some handle =>
      obtain ⟨other, hother, hid⟩ := hmanaged _ _ h
      rw [hsession] at hother
      cases hother
      exact .inr ⟨handle, rfl, hid.symm⟩
  · intro t task htask
    have sound := senders.sound _ _ htask
    refine ⟨sound.once, sound.takeover, sound.restart, sound.carried, sound.delivered, ?_⟩
    intro hrunning hgone hnone
    have havailable := sound.available hrunning
    simp [ShutdownChannel.unavailable, hgone, hnone] at havailable
  · intro pre present post h t
    have hordered := history.ordered _ _ _ h
    refine ⟨fun hmem => ?_, fun clientId sessionId hmem => ?_⟩
    · exact absurd (hordered _ hmem) (by simp [ManagerEvent.isSpawn])
    · exact absurd (hordered _ hmem) (by simp [ManagerEvent.isSpawn])

def takenOver : ManagerWorld :=
  (ManagerWorld.initial.spawnSession reconnecting.clientId reconnecting.assignedIpv4 0).spawnSession
    reconnecting.clientId reconnecting.assignedIpv4 1

theorem manager_lifecycle_takenOver :
    ∃ task, takenOver.tasks[0]? = some task ∧ .takeover ∈ task.channel.offered := by
  have reach : ManagerWorld.Reachable [reconnecting] takenOver :=
    (ManagerWorld.Reachable.initial.step (.spawn 0 rfl reconnecting_assigned)).step
      (.spawn 1 rfl reconnecting_assigned)
  obtain ⟨-, -, htasks, -⟩ := manager_lifecycle reconnecting_valid reach (by decide)
  refine ⟨_, rfl, (htasks 0 _ rfl).2.1.mpr ⟨1, ?_⟩⟩
  decide

/-! ## When the ids run out -/

theorem reach_connections (n : Nat) : ∃ w, ManagerWorld.Reachable [reconnecting] w ∧
    w.state.acceptingSessions = true ∧ w.tasks.length = n := by
  induction n with
  | zero => exact ⟨_, .initial, rfl, rfl⟩
  | succ n ih =>
    obtain ⟨w, reach, haccepting, hlength⟩ := ih
    refine ⟨_, reach.step (.spawn 0 haccepting reconnecting_assigned), haccepting, ?_⟩
    rw [spawn_tasks, List.length_append, length_send, hlength]
    rfl

/-- The last session id, which the registry keeps giving out. -/
def lastSessionId : UInt64 := UInt64.ofNat (2 ^ 64 - 1)

theorem reach_last_id : ∃ w, ManagerWorld.Reachable [reconnecting] w ∧
    w.state.acceptingSessions = true ∧ w.registry.nextSessionId = lastSessionId := by
  obtain ⟨w, reach, haccepting, hlength⟩ := reach_connections (2 ^ 64 - 2)
  refine ⟨w, reach, haccepting, ?_⟩
  have hcount : w.tasks.length < 2 ^ 64 - 1 := by omega
  have hnext := (reach.invariant reconnecting_valid hcount).1.consistent.next
  rw [ManagerWorld.handles, List.length_reverse, List.length_map, hlength] at hnext
  exact UInt64.toNat_inj.mp (hnext.trans (by decide))

section LastId

variable {w : ManagerWorld}

def reconnect (w : ManagerWorld) : ManagerWorld :=
  w.spawnSession reconnecting.clientId reconnecting.assignedIpv4 0

def reconnectHandle (w : ManagerWorld) : SessionHandle :=
  (w.registry.registerSession reconnecting.clientId reconnecting.assignedIpv4 0).1

theorem reconnect_next (h : w.registry.nextSessionId = lastSessionId) :
    (reconnect w).registry.nextSessionId = lastSessionId := by
  show UInt64.ofNat (Lib.U64.saturatingAdd w.registry.nextSessionId.toNat 1) = _
  rw [h]
  decide

theorem length_reconnect : (reconnect w).tasks.length = w.tasks.length + 1 := by
  rw [reconnect, spawn_tasks, List.length_append, length_send]
  rfl

theorem reach_leave (reach : ManagerWorld.Reachable clients w) {t : Nat} {task : SessionTask}
    (htask : w.tasks[t]? = some task) (hphase : task.phase = .running) :
    ManagerWorld.Reachable clients
      ((w.endTask t .completed).unregister t task.handle |>.forget t task.handle) := by
  have hclosing : (w.endTask t .completed).tasks[t]? =
      some { task with phase := .closing, channel := task.channel.dropReceiver } :=
    getElem?_modify_eq_some.mpr ⟨task, htask, by rw [if_pos rfl]⟩
  have hleft : ((w.endTask t .completed).unregister t task.handle).tasks[t]? =
      some { task with phase := .unregistered, channel := task.channel.dropReceiver } :=
    getElem?_modify_eq_some.mpr ⟨_, hclosing, by rw [if_pos rfl]⟩
  have reach₁ := reach.step (.endTask htask hphase (show task.canEnd .completed = true from rfl))
  have reach₂ := reach₁.step (.unregister hclosing rfl)
  have hforget : Step clients _ _ := .forget hleft rfl
  exact reach₂.step hforget

/-- The session that was taken over leaves, and with it the entry that has
its id. -/
theorem leave_drops_sender (first : SessionTask) {a b : Nat} {second : SessionTask} (hne : a ≠ b)
    (hb : w.tasks[b]? = some second)
    (hclient : first.handle.clientId = reconnecting.clientId)
    (hid : first.handle.sessionId = lastSessionId)
    (hentry : w.state.sessions reconnecting.clientId = some ⟨lastSessionId, some b⟩) :
    ((w.endTask a .completed).unregister a first.handle |>.forget a first.handle).tasks[b]? =
      some { second with channel := second.channel.dropSender } := by
  have hcurrent : w.state.entryIfCurrent first.handle.clientId first.handle.sessionId =
      some ⟨lastSessionId, some b⟩ :=
    SessionManagerState.entryIfCurrent_eq_some.mpr ⟨hclient ▸ hentry, hid.symm⟩
  have hsender : (((w.endTask a .completed).unregister a first.handle).state.entryIfCurrent
      first.handle.clientId first.handle.sessionId).bind (·.shutdown) = some b := by
    show (w.state.entryIfCurrent first.handle.clientId first.handle.sessionId).bind _ = some b
    rw [hcurrent]
    rfl
  simp only [ManagerWorld.forget, hsender]
  refine getElem?_modify_eq_some.mpr ⟨second, ?_, by rw [if_pos rfl]⟩
  -- The other steps change only the first task.
  refine getElem?_modify_eq_some.mpr ⟨second, ?_, by rw [if_neg hne]⟩
  refine getElem?_modify_eq_some.mpr ⟨second, ?_, by rw [if_neg hne]⟩
  exact getElem?_modify_eq_some.mpr ⟨second, hb, by rw [if_neg hne]⟩

/-- With the last id given to two sessions of a client, the first one, taken
over, removes the entry of the second, whose shutdown signal is then gone. -/
theorem shutdown_signal_lost :
    ∃ w, ManagerWorld.Reachable [reconnecting] w ∧
      ∃ t, .ended t .shutdownSignalUnavailable ∈ w.log := by
  obtain ⟨w, reach, haccepting, hlast⟩ := reach_last_id
  have reach₁ : ManagerWorld.Reachable [reconnecting] (reconnect w) :=
    reach.step (.spawn 0 haccepting reconnecting_assigned)
  have reach₂ : ManagerWorld.Reachable [reconnecting] (reconnect (reconnect w)) :=
    reach₁.step (.spawn 0 haccepting reconnecting_assigned)
  obtain ⟨first, ha, hhandle, hphase⟩ : ∃ first : SessionTask,
      (reconnect (reconnect w)).tasks[w.tasks.length]? = some first ∧
        first.handle = reconnectHandle w ∧ first.phase = .running :=
    ⟨_, spawn_lookup.mpr (.inl ⟨_, spawn_new w _ _ _, rfl⟩), notified_handle, notified_phase⟩
  have hb : (reconnect (reconnect w)).tasks[w.tasks.length + 1]? =
      some ⟨reconnectHandle (reconnect w), .running, .new⟩ := by
    rw [← length_reconnect]
    exact spawn_new _ _ _ _
  have hid : first.handle.sessionId = lastSessionId := by rw [hhandle]; exact hlast
  have hentry : (reconnect (reconnect w)).state.sessions reconnecting.clientId =
      some ⟨lastSessionId, some (w.tasks.length + 1)⟩ := by
    rw [← length_reconnect, ← reconnect_next hlast]
    exact spawn_session_self
  have hlost := leave_drops_sender first (Nat.ne_of_lt (Nat.lt_succ_self _)) hb
    (by rw [hhandle]; rfl) hid hentry
  have reach₃ := reach_leave reach₂ ha hphase
  have hunavailable : SessionTask.canEnd ⟨reconnectHandle (reconnect w), .running,
      ShutdownChannel.new.dropSender⟩ .shutdownSignalUnavailable = true := rfl
  refine ⟨_, reach₃.step (.endTask hlost rfl hunavailable), w.tasks.length + 1, ?_⟩
  exact List.mem_append_right _ (List.mem_singleton_self _)

end LastId

end Slt.Server
