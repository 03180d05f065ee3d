import Mathlib.Algebra.Group.Nat.Defs
import Slt.Android.Status

/-!
# Supervision of the native session

The supervisor runs on the main thread. Native events are posted to it, so an
event may be handled when its session is no longer the current one, and a restart
is a timer in the queue of the thread. The callbacks set the UI state as those of
the service do; between the steps the service sets it as it likes, and it stops
the supervisor when the tunnel is torn down.

Once a session has authenticated, the tunnel has to stay up through terminal
errors of the native client, for packets are to stay inside the VPN. The restart
has a failure of its own, and it gives the tunnel up.
-/

namespace Slt.Android

structure NativeSessionConfig where
  clientToml : String
  tunFd : Nat
  tunMtu : Nat
  deriving DecidableEq, Repr

/-- Calls of the service and of the native library. -/
inductive SupervisorEffect where
  | onStopped (handle : Nat)
  | onFatalError (detail : String)
  | onRetryScheduled (detail : String) (attempt delayMs : Nat)
  | onNotificationRefresh
  | nativeStop (handle : Nat)
  | nativeNetworkChanged (handle : Nat)
  deriving DecidableEq, Repr

structure NativeSessionSupervisor where
  nativeSession : Option Nat := none
  nativeHandle : Nat := 0
  restartConfig : Option NativeSessionConfig := none
  nativeRestartAttempt : Nat := 0
  failClosedArmed : Bool := false
  /-- Restart runnables in the queue of the main thread. -/
  restartsPending : Nat := 0
  state : VpnUiState := {}
  nextHandle : Nat := 1
  deriving DecidableEq, Repr

inductive NativeTerminalAction where
  | restartKeepingTunnel
  | tearDownTunnel
  deriving DecidableEq, Repr

def nativeTerminalAction (retryable failClosedArmed : Bool) : NativeTerminalAction :=
  if retryable || failClosedArmed then .restartKeepingTunnel else .tearDownTunnel

def initialNativeRestartDelayMs : Nat := 1000

def maxNativeRestartDelayMs : Nat := 60000

def maxNativeRestartShift : Nat := 6

def nativeRestartDelayMs (attempt : Nat) : Nat :=
  min (initialNativeRestartDelayMs * 2 ^ min (attempt - 1) maxNativeRestartShift)
    maxNativeRestartDelayMs

def errorDetail (event : ClientEvent) : String :=
  match event.kind with
  | .error detail _ => detail
  | _ => "Native client error"

namespace NativeSessionSupervisor

abbrev Outcome := NativeSessionSupervisor × List SupervisorEffect

def stopNativeClient (s : NativeSessionSupervisor) : Outcome :=
  ({ s with nativeSession := none, nativeHandle := 0 },
    match s.nativeSession with
    | none => []
    | some handle => [.nativeStop handle])

def cancelRestart (s : NativeSessionSupervisor) : NativeSessionSupervisor :=
  { s with restartsPending := 0, nativeRestartAttempt := 0 }

/-- The native start gives a session with the next handle, or it throws. -/
def startSession (s : NativeSessionSupervisor) (thrown : Option String) :
    Except String NativeSessionSupervisor :=
  match thrown with
  | some message => .error message
  | none =>
    .ok { s with
      nativeSession := some s.nextHandle, nativeHandle := s.nextHandle
      nextHandle := s.nextHandle + 1 }

/-- When the native start throws, so does `start`, and the session of before
stays. -/
def start (s : NativeSessionSupervisor) (config : NativeSessionConfig) (thrown : Option String) :
    Outcome :=
  let s := { s.cancelRestart with failClosedArmed := false, restartConfig := some config }
  match s.startSession thrown with
  | .ok started => (started, [])
  | .error _ => (s, [])

def stop (s : NativeSessionSupervisor) : Outcome :=
  stopNativeClient { s.cancelRestart with failClosedArmed := false, restartConfig := none }

def notifyNetworkChanged (s : NativeSessionSupervisor) : Outcome :=
  match s.nativeSession with
  | none => (s, [])
  | some handle => (s, [.nativeNetworkChanged handle])

/-- The service records the error and then tears the tunnel down. -/
def onFatalError (s : NativeSessionSupervisor) (detail : String) : Outcome :=
  ({ s with state := if s.state.status = .error then s.state else .markError detail },
    [.onFatalError detail])

def scheduleNativeRestartAfterError (s : NativeSessionSupervisor) (event : ClientEvent) : Outcome :=
  let detail := errorDetail event
  let (s, out) := s.stopNativeClient
  match s.restartConfig with
  | none =>
    (s.onFatalError ("VPN tunnel unavailable after native error: " ++ detail)).map id (out ++ ·)
  | some _ =>
    let attempt := s.nativeRestartAttempt + 1
    let delayMs := nativeRestartDelayMs attempt
    -- the pending restarts are removed and one is posted
    ({ s with
        nativeRestartAttempt := attempt, restartsPending := 1
        state := s.state.markNativeRestartScheduled detail attempt delayMs },
      out ++ [.onRetryScheduled detail attempt delayMs])

def restartNativeSessionAfterTerminalError (s : NativeSessionSupervisor)
    (thrown : Option String) : Outcome :=
  match s.nativeSession with
  | some _ => (s, [])
  | none =>
    match s.restartConfig with
    | none => s.onFatalError "VPN tunnel unavailable before native restart"
    | some _ =>
      match s.startSession thrown with
      | .ok started => (started, [.onNotificationRefresh])
      | .error message => s.onFatalError message

/-- What is done about an event that the reduction reports on. -/
def superviseTerminal (s : NativeSessionSupervisor) (event : ClientEvent) :
    NativeTerminal → Outcome
  | .none => (s, [.onNotificationRefresh])
  | .stopped => (s, [.onStopped event.handle])
  | .errored retryable =>
    match nativeTerminalAction retryable s.failClosedArmed with
    | .restartKeepingTunnel => s.scheduleNativeRestartAfterError event
    | .tearDownTunnel => s.onFatalError (errorDetail event)

def handleNativeEvent (s : NativeSessionSupervisor) (event : ClientEvent) : Outcome :=
  let (state, terminal) := applyEvent s.state event
  let (s, out) := superviseTerminal { s with state } event terminal
  if event.kind = .authenticated then
    ({ s with failClosedArmed := true, nativeRestartAttempt := 0 }, out)
  else (s, out)

/-- The posted callback; events of other sessions are ignored. -/
def onEvent (s : NativeSessionSupervisor) (event : ClientEvent) : Outcome :=
  if event.handle ≠ s.nativeHandle then (s, []) else s.handleNativeEvent event

/-! ## Steps of the main thread -/

inductive Step where
  | start (config : NativeSessionConfig) (thrown : Option String)
  | stop
  | event (event : ClientEvent)
  | restart (thrown : Option String)
  | networkChanged
  | mark (state : VpnUiState)
  deriving DecidableEq, Repr

def step (s : NativeSessionSupervisor) : Step → Outcome
  | .start config thrown => s.start config thrown
  | .stop => s.stop
  | .event event => s.onEvent event
  | .restart thrown =>
    restartNativeSessionAfterTerminalError { s with restartsPending := s.restartsPending - 1 } thrown
  | .networkChanged => s.notifyNetworkChanged
  | .mark state => ({ s with state }, [])

/-- Events come from sessions that were started, and a restart has to be in the
queue. -/
def Enabled (s : NativeSessionSupervisor) : Step → Prop
  | .event event => 0 < event.handle ∧ event.handle < s.nextHandle
  | .restart _ => 0 < s.restartsPending
  | _ => True

instance (s : NativeSessionSupervisor) (move : Step) : Decidable (s.Enabled move) := by
  cases move <;> unfold Enabled <;> infer_instance

def run (s : NativeSessionSupervisor) : List Step → Outcome
  | [] => (s, [])
  | move :: moves => ((s.step move).1.run moves).map id ((s.step move).2 ++ ·)

/-- Each step is one that the main thread can take. -/
def Runs (s : NativeSessionSupervisor) : List Step → Prop
  | [] => True
  | move :: moves => s.Enabled move ∧ (s.step move).1.Runs moves

instance decidableRuns : ∀ (s : NativeSessionSupervisor) (moves : List Step), Decidable (s.Runs moves)
  | _, [] => inferInstanceAs (Decidable True)
  | s, move :: moves =>
    haveI := decidableRuns (s.step move).1 moves
    inferInstanceAs (Decidable (_ ∧ _))

theorem run_append_cons {pre post : List Step} {move : Step} : ∀ {s : NativeSessionSupervisor},
    (s.run (pre ++ move :: post)).1 = (((s.run pre).1.step move).1.run post).1 := by
  induction pre with
  | nil => exact rfl
  | cons first pre ih => exact ih

theorem runs_append_cons {pre post : List Step} {move : Step} : ∀ {s : NativeSessionSupervisor},
    s.Runs (pre ++ move :: post) ↔
      s.Runs pre ∧ (s.run pre).1.Enabled move ∧ ((s.run pre).1.step move).1.Runs post := by
  induction pre with
  | nil =>
    intro s
    exact (iff_of_eq (true_and _)).symm
  | cons first pre ih =>
    intro s
    exact (and_congr_right fun _ => ih).trans and_assoc.symm

def Reachable (s : NativeSessionSupervisor) : Prop :=
  ∃ moves, Runs {} moves ∧ (run {} moves).1 = s

/-- The tunnel is neither stopped nor started anew. -/
def Step.Within : Step → Bool
  | .start .. | .stop => false
  | _ => true

def Step.IsRestart : Step → Bool
  | .restart _ => true
  | _ => false

def Step.RestartThrows : Step → Bool
  | .restart (some _) => true
  | _ => false

/-! ## What every step keeps -/

structure Inv (s : NativeSessionSupervisor) : Prop where
  handle : s.nativeHandle = s.nativeSession.getD 0
  config : s.nativeSession.isSome = true → s.restartConfig.isSome = true
  pending : s.restartsPending = 0 ∨
    (s.restartsPending = 1 ∧ s.nativeSession = none ∧ s.restartConfig.isSome = true)

/-- A restart is pending, and no session is there. -/
structure Blocked (s : NativeSessionSupervisor) : Prop where
  pending : s.restartsPending = 1
  session : s.nativeSession = none

variable {s : NativeSessionSupervisor}

theorem inv_init : Inv {} where
  handle := rfl
  config := nofun
  pending := .inl rfl

theorem Inv.current_session (h : s.Inv) {event : ClientEvent} (hpos : 0 < event.handle)
    (hcurrent : event.handle = s.nativeHandle) : s.nativeSession = some event.handle := by
  have hhandle := h.handle
  cases hsession : s.nativeSession with
  | none =>
    rw [hsession, Option.getD_none] at hhandle
    omega
  | some handle =>
    rw [hsession, Option.getD_some] at hhandle
    rw [hcurrent, hhandle]

theorem schedule_blocked (event : ClientEvent) (h : s.restartConfig.isSome = true) :
    (s.scheduleNativeRestartAfterError event).1.Blocked ∧
      (s.scheduleNativeRestartAfterError event).1.Inv ∧
      (s.scheduleNativeRestartAfterError event).1.failClosedArmed = s.failClosedArmed ∧
      ∀ detail, .onFatalError detail ∉ (s.scheduleNativeRestartAfterError event).2 := by
  obtain ⟨config, hconfig⟩ := Option.isSome_iff_exists.mp h
  simp only [scheduleNativeRestartAfterError, NativeSessionSupervisor.stopNativeClient, hconfig,
    true_and]
  refine ⟨⟨rfl, rfl⟩, ⟨rfl, nofun, .inr ⟨rfl, rfl, rfl⟩⟩, fun detail => ?_⟩
  cases s.nativeSession <;> simp

structure Handled (s : NativeSessionSupervisor) (event : ClientEvent) (s' : NativeSessionSupervisor)
    (out : List SupervisorEffect) : Prop where
  inv : s'.Inv
  armed : s.failClosedArmed = true → s'.failClosedArmed = true
  arms : event.kind = .authenticated → s'.failClosedArmed = true
  kept : s.failClosedArmed = true ∨ event.kind = .authenticated →
    ∀ detail, .onFatalError detail ∉ out
  blocked : ∀ retryable, (applyEvent s.state event).2 = .errored retryable →
    retryable = true ∨ s.failClosedArmed = true → s'.Blocked

theorem handleNativeEvent_spec (h : s.Inv) (hsession : s.nativeSession.isSome = true)
    (event : ClientEvent) :
    s.Handled event (s.handleNativeEvent event).1 (s.handleNativeEvent event).2 := by
  have hconfig := h.config hsession
  cases hterminal : (applyEvent s.state event).2 with
  | none | stopped =>
    by_cases hauth : event.kind = .authenticated
    all_goals
      simp only [handleNativeEvent, hterminal, superviseTerminal, hauth, if_true, if_false]
      exact
        { inv := ⟨h.handle, h.config, h.pending⟩
          armed := by simp
          arms := by simp [hauth]
          kept := by simp
          blocked := by simp [hterminal] }
  | errored retryable =>
    obtain ⟨detail, hkind⟩ := applyEvent_errored hterminal
    have hauth : event.kind ≠ .authenticated := by simp [hkind]
    simp only [handleNativeEvent, hterminal, superviseTerminal, hauth, if_false]
    by_cases hrestart : retryable = true ∨ s.failClosedArmed = true
    · have haction : nativeTerminalAction retryable s.failClosedArmed = .restartKeepingTunnel := by
        simp [nativeTerminalAction, hrestart]
      obtain ⟨hblocked, hinv, harmed, hout⟩ := schedule_blocked
        (s := { s with state := (applyEvent s.state event).1 }) event hconfig
      simp only [haction]
      exact
        { inv := hinv
          armed := fun hs => harmed.trans hs
          arms := fun hauth' => absurd hauth' hauth
          kept := fun _ => hout
          blocked := fun _ _ _ => hblocked }
    · have haction : nativeTerminalAction retryable s.failClosedArmed = .tearDownTunnel := by
        simpa [nativeTerminalAction] using hrestart
      rw [not_or] at hrestart
      simp only [haction, NativeSessionSupervisor.onFatalError]
      exact
        { inv := ⟨h.handle, h.config, h.pending⟩
          armed := id
          arms := fun hauth' => absurd hauth' hauth
          kept := fun hor => absurd hor (not_or.mpr ⟨hrestart.2, hauth⟩)
          blocked := by
            rintro retryable' hsame hor
            rw [hterminal] at hsame
            obtain rfl := NativeTerminal.errored.inj hsame
            exact absurd hor (not_or.mpr hrestart) }

/-- A restart that is in the queue starts a session, or its start throws. -/
theorem restart_spec (h : s.Inv) (hpending : 0 < s.restartsPending) (thrown : Option String) :
    (s.step (.restart thrown)).1.Inv ∧
      (s.step (.restart thrown)).1.failClosedArmed = s.failClosedArmed ∧
      (thrown = none → ∀ detail, .onFatalError detail ∉ (s.step (.restart thrown)).2) := by
  obtain ⟨hone, hsession, hconfig⟩ := h.pending.resolve_left (by omega)
  obtain ⟨config, hsome⟩ := Option.isSome_iff_exists.mp hconfig
  cases thrown with
  | none =>
    simp only [step, restartNativeSessionAfterTerminalError, hsession, hsome, startSession]
    exact ⟨⟨rfl, fun _ => rfl, .inl (by simp [hone])⟩, trivial, by simp⟩
  | some message =>
    simp only [step, restartNativeSessionAfterTerminalError, hsession, hsome, startSession,
      NativeSessionSupervisor.onFatalError]
    refine ⟨⟨?_, by simp, .inl (by simp [hone])⟩, trivial, by simp⟩
    have hhandle := h.handle
    rwa [hsession] at hhandle

theorem inv_step (h : s.Inv) {move : Step} (henabled : s.Enabled move) : (s.step move).1.Inv := by
  cases move with
  | start config thrown =>
    cases thrown with
    | none => exact ⟨rfl, fun _ => rfl, .inl rfl⟩
    | some message => exact ⟨h.handle, fun _ => rfl, .inl rfl⟩
  | stop => exact ⟨rfl, nofun, .inl rfl⟩
  | event event =>
    simp only [step, onEvent]
    by_cases hcurrent : event.handle = s.nativeHandle
    · have hsession := h.current_session henabled.1 hcurrent
      rw [if_neg (not_not_intro hcurrent)]
      exact (handleNativeEvent_spec h (by rw [hsession]; rfl) event).inv
    · rw [if_pos hcurrent]
      exact h
  | restart thrown => exact (restart_spec h henabled thrown).1
  | networkChanged =>
    simp only [step, notifyNetworkChanged]
    split <;> exact h
  | mark state => exact ⟨h.handle, h.config, h.pending⟩

theorem inv_run {moves : List Step} : ∀ {s : NativeSessionSupervisor}, s.Inv → s.Runs moves →
    (s.run moves).1.Inv := by
  induction moves with
  | nil => exact fun h _ => h
  | cons move moves ih => exact fun h hruns => ih (inv_step h hruns.1) hruns.2

theorem Reachable.inv (h : s.Reachable) : s.Inv := by
  obtain ⟨moves, hruns, rfl⟩ := h
  exact inv_run inv_init hruns

/-! ## Armed, and blocked -/

/-- While the tunnel is kept, an armed supervisor stays armed, and it gives the
tunnel up only when the start of a restart throws. -/
theorem armed_step (h : s.Inv) (harmed : s.failClosedArmed = true) {move : Step}
    (henabled : s.Enabled move) (hwithin : move.Within = true) :
    (s.step move).1.failClosedArmed = true ∧
      (move.RestartThrows = false → ∀ detail, .onFatalError detail ∉ (s.step move).2) := by
  cases move with
  | start config thrown => exact nomatch hwithin
  | stop => exact nomatch hwithin
  | event event =>
    simp only [step, onEvent]
    by_cases hcurrent : event.handle = s.nativeHandle
    · have hsession := h.current_session henabled.1 hcurrent
      have hspec := handleNativeEvent_spec h (by rw [hsession]; rfl) event
      rw [if_neg (not_not_intro hcurrent)]
      exact ⟨hspec.armed harmed, fun _ => hspec.kept (.inl harmed)⟩
    · rw [if_pos hcurrent]
      exact ⟨harmed, by simp⟩
  | restart thrown =>
    obtain ⟨_, hkept, hout⟩ := restart_spec h henabled thrown
    refine ⟨hkept.trans harmed, fun hthrows => hout ?_⟩
    cases thrown with
    | none => rfl
    | some message => exact nomatch hthrows
  | networkChanged =>
    simp only [step, notifyNetworkChanged]
    split <;> exact ⟨harmed, by simp⟩
  | mark state => exact ⟨harmed, by simp [step]⟩

theorem armed_run {moves : List Step} : ∀ {s : NativeSessionSupervisor}, s.Inv →
    s.failClosedArmed = true → s.Runs moves → (∀ move ∈ moves, move.Within = true) →
      (s.run moves).1.failClosedArmed = true ∧
        ((∀ move ∈ moves, move.RestartThrows = false) →
          ∀ detail, .onFatalError detail ∉ (s.run moves).2) := by
  induction moves with
  | nil => exact fun _ harmed _ _ => ⟨harmed, fun _ _ => by simp [run]⟩
  | cons move moves ih =>
    intro s h harmed hruns hwithin
    have hhere := armed_step h harmed hruns.1 (hwithin move (List.mem_cons_self ..))
    have hrest := ih (inv_step h hruns.1) hhere.1 hruns.2 fun other hother =>
      hwithin other (List.mem_cons_of_mem _ hother)
    refine ⟨hrest.1, fun hthrows detail hfatal => ?_⟩
    rcases List.mem_append.mp hfatal with hfatal | hfatal
    · exact hhere.2 (hthrows move (List.mem_cons_self ..)) detail hfatal
    · exact hrest.2 (fun other hother => hthrows other (List.mem_cons_of_mem _ hother)) detail hfatal

theorem Blocked.step (h : s.Inv) (hblocked : s.Blocked) {move : Step} (henabled : s.Enabled move)
    (hwithin : move.Within = true) (hrestart : move.IsRestart = false) :
    (s.step move).1.Blocked := by
  cases move with
  | start config thrown => exact nomatch hwithin
  | stop => exact nomatch hwithin
  | event event =>
    have hstale : event.handle ≠ s.nativeHandle := by
      intro hcurrent
      have hsession := h.current_session henabled.1 hcurrent
      rw [hblocked.session] at hsession
      exact nomatch hsession
    simp only [NativeSessionSupervisor.step, onEvent, if_pos hstale]
    exact hblocked
  | restart thrown => exact nomatch hrestart
  | networkChanged =>
    simp only [NativeSessionSupervisor.step, notifyNetworkChanged, hblocked.session]
    exact hblocked
  | mark state => exact ⟨hblocked.pending, hblocked.session⟩

theorem Blocked.run {moves : List Step} : ∀ {s : NativeSessionSupervisor}, s.Inv → s.Blocked →
    s.Runs moves → (∀ move ∈ moves, move.Within = true) →
      (∀ move ∈ moves, move.IsRestart = false) → (s.run moves).1.Blocked := by
  induction moves with
  | nil => exact fun _ hblocked _ _ _ => hblocked
  | cons move moves ih =>
    intro s h hblocked hruns hwithin hrestart
    exact ih (inv_step h hruns.1)
      (hblocked.step h hruns.1 (hwithin move (List.mem_cons_self ..))
        (hrestart move (List.mem_cons_self ..)))
      hruns.2 (fun other hother => hwithin other (List.mem_cons_of_mem _ hother))
      fun other hother => hrestart other (List.mem_cons_of_mem _ hother)

/-! ## Fail-closed supervision -/

def Handles (s : NativeSessionSupervisor) (event : ClientEvent) : Prop :=
  s.Enabled (.event event) ∧ event.handle = s.nativeHandle

instance (s : NativeSessionSupervisor) (event : ClientEvent) : Decidable (s.Handles event) :=
  inferInstanceAs (Decidable (_ ∧ _))

theorem Handles.spec (h : s.Inv) {event : ClientEvent} (hhandles : s.Handles event) :
    s.Handled event (s.step (.event event)).1 (s.step (.event event)).2 := by
  have hsession := h.current_session hhandles.1.1 hhandles.2
  simp only [NativeSessionSupervisor.step, onEvent, if_neg (not_not_intro hhandles.2)]
  exact handleNativeEvent_spec h (by rw [hsession]; rfl) event

/-- After an authentication, as long as the tunnel is neither stopped nor started
anew: the tunnel is not given up, provided that no restart's native start throws;
and after a terminal error one restart is pending until it runs, and meanwhile no
session is there. -/
theorem fail_closed_after_authentication {authenticated : ClientEvent} {moves : List Step}
    (hs : s.Reachable) (hhandles : s.Handles authenticated)
    (hkind : authenticated.kind = .authenticated)
    (hruns : (s.step (.event authenticated)).1.Runs moves)
    (hwithin : ∀ move ∈ moves, move.Within = true) :
    ((∀ move ∈ moves, move.RestartThrows = false) →
      ∀ detail, .onFatalError detail ∉ (s.run (.event authenticated :: moves)).2) ∧
    ∀ (pre post : List Step) (error : ClientEvent) (retryable : Bool),
      moves = pre ++ .event error :: post →
      ((s.step (.event authenticated)).1.run pre).1.Handles error →
      (applyEvent ((s.step (.event authenticated)).1.run pre).1.state error).2 =
        .errored retryable →
      (∀ move ∈ post, move.IsRestart = false) →
        ((s.step (.event authenticated)).1.run moves).1.restartsPending = 1 ∧
          ((s.step (.event authenticated)).1.run moves).1.nativeSession = none := by
  have hspec := hhandles.spec hs.inv
  have harmed := hspec.arms hkind
  have hrun := armed_run hspec.inv harmed hruns hwithin
  refine ⟨fun hthrows detail hfatal => ?_, ?_⟩
  · rcases List.mem_append.mp hfatal with hfatal | hfatal
    · exact hspec.kept (.inr hkind) detail hfatal
    · exact hrun.2 hthrows detail hfatal
  · rintro pre post error retryable rfl herror hterminal hrestart
    obtain ⟨hpre, henabled, hpost⟩ := runs_append_cons.mp hruns
    have hwithin' : ∀ move ∈ pre, move.Within = true := fun move hmove =>
      hwithin move (List.mem_append_left _ hmove)
    have hinv := inv_run hspec.inv hpre
    have hspec' := herror.spec hinv
    have hblocked := hspec'.blocked retryable hterminal
      (.inr (armed_run hspec.inv harmed hpre hwithin').1)
    rw [run_append_cons]
    have hfinal := Blocked.run hspec'.inv hblocked hpost
      (fun move hmove => hwithin move (by simp [hmove])) hrestart
    exact ⟨hfinal.pending, hfinal.session⟩

def someConfig : NativeSessionConfig := ⟨"", 3, 1400⟩

def started : NativeSessionSupervisor := (run {} [.start someConfig none]).1

def authenticatedEvent (handle : Nat) : ClientEvent := ⟨handle, some .tcp, .authenticated⟩

def errorEvent (handle : Nat) (retryable : Bool) : ClientEvent :=
  ⟨handle, some .tcp, .error "connection lost" retryable⟩

/-- Two errors that are not to be retried, and a restart between them. -/
theorem fail_closed_after_authentication_twice :
    .onFatalError "connection lost" ∉ (started.run [.event (authenticatedEvent 1),
        .event (errorEvent 1 false), .restart none, .event (errorEvent 2 false)]).2 ∧
      ((started.step (.event (authenticatedEvent 1))).1.run [.event (errorEvent 1 false),
        .restart none, .event (errorEvent 2 false), .event (errorEvent 1 false)]).1.restartsPending = 1 := by
  have hstarted : started.Reachable := ⟨[.start someConfig none], by decide, rfl⟩
  have hquiet := @fail_closed_after_authentication _ (authenticatedEvent 1)
    [.event (errorEvent 1 false), .restart none, .event (errorEvent 2 false)]
    hstarted (by decide) rfl (by decide) (by decide)
  have hrestarted := @fail_closed_after_authentication _ (authenticatedEvent 1)
    [.event (errorEvent 1 false), .restart none, .event (errorEvent 2 false),
      .event (errorEvent 1 false)] hstarted (by decide) rfl (by decide) (by decide)
  refine ⟨hquiet.1 (by decide) _, ?_⟩
  exact (hrestarted.2 [.event (errorEvent 1 false), .restart none] [.event (errorEvent 1 false)]
    (errorEvent 2 false) false rfl (by decide) (by decide) (by decide)).1

/-- After an authentication and a connection error, the start of the restart
throws, and the tunnel is given up. -/
theorem restart_gives_up_tunnel :
    started.Reachable ∧ started.Handles (authenticatedEvent 1) ∧
      (started.step (.event (authenticatedEvent 1))).1.Runs
        [.event (errorEvent 1 true), .restart (some "cannot start")] ∧
      .onFatalError "cannot start" ∈ (started.run [.event (authenticatedEvent 1),
        .event (errorEvent 1 true), .restart (some "cannot start")]).2 :=
  ⟨⟨[.start someConfig none], by decide, rfl⟩, by decide, by decide, by decide⟩

end NativeSessionSupervisor

end Slt.Android
