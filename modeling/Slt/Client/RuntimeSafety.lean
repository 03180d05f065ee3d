import Slt.Client.RuntimeLaws

/-!
# How the runtime ends

The handle of a TUN task is taken once, so that the runtime never looks for one
that is gone, and the terminal event comes when both tasks are over. Once the
runtime has noticed a failed task or has been cancelled, how it ends is settled and
no connection is attempted any more; when both tasks are over, a few polls end it.
Errors that a restart could cure are cured inside the runtime: it reports none as
such.
-/

namespace Slt.Client

/-- No connection is attempted and no failure of one is reported. -/
def RuntimeEventKind.Quiet : RuntimeEventKind → Prop
  | .connecting _ => False
  | .reconnectFailed _ _ => False
  | _ => True

/-- A terminal error is not one to be cured by a restart, nor reported as one. -/
def RuntimeEventKind.Final : RuntimeEventKind → Prop
  | .error e retryable => e.isRestartRetriable = false ∧ retryable = false
  | _ => True

/-- How many polls a runtime that has to end is from its end, at most. -/
def RuntimePhase.pollsLeft : RuntimePhase → Nat
  | .connecting => 8
  | .authenticating => 7
  | .session => 6
  | .closing _ => 5
  | .waiting => 4
  | .fresh => 4
  | .looping => 3
  | .resolving _ => 2
  | .stopping _ => 1
  | _ => 0

def RuntimeInput.isPoll : RuntimeInput → Bool
  | .poll _ => true
  | _ => false

namespace ClientRuntime

variable {s s' : ClientRuntime} {outcome : Outcome} {phase : RuntimePhase}
  {kinds : List RuntimeEventKind} {result : Except RuntimeError Unit}

@[simp] theorem kinds_goto (s : ClientRuntime) (phase : RuntimePhase)
    (kinds : List RuntimeEventKind) : (s.goto phase kinds).2.map (·.kind) = kinds :=
  s.observer.kinds_emit kinds

@[simp] theorem length_goto (s : ClientRuntime) (phase : RuntimePhase)
    (kinds : List RuntimeEventKind) : (s.goto phase kinds).2.length = kinds.length := by
  rw [← List.length_map (·.kind), kinds_goto]

theorem forall_goto {Q : RuntimeEventKind → Prop} :
    (∀ event ∈ (s.goto phase kinds).2, Q event.kind) ↔ ∀ kind ∈ kinds, Q kind := by
  rw [← List.forall_mem_map, kinds_goto]

/-- No run looks for the handle of a task whose output has been taken, and a run is
over only when both tasks are. -/
theorem runtime_joins_tun_tasks (config : StaticClientConfig) (handle : UInt64)
    (control : Option CommandChannel) (inputs : List RuntimeInput) :
    let s := (machine.run (initial config handle control) inputs).1
    s.phase ≠ .panicked ∧
      ∀ result, s.phase = .ended result → ∀ task, s.handles.get task ≠ .running := by
  intro s
  have hsound : PhaseSound s.handles s.phase := (sound_run config handle control inputs).phase
  constructor
  · intro hpanicked
    rw [hpanicked] at hsound
    exact hsound
  · intro result hended
    rw [hended] at hsound
    exact TunHandles.joined_iff.mp hsound.2

/-! ## The verdict -/

/-- The verdict stands: it is that of the state, or the result that the runtime has
come to. -/
def Settled (v : Except RuntimeError Unit) (s : ClientRuntime) : Prop :=
  match s.phase with
  | .resolving _ => False
  | .stopping result => result = v
  | .ended result => result = v
  | .panicked => False
  | _ => s.verdict = some v

theorem settled_of_active {v : Except RuntimeError Unit} (h : s.phase.active = true) :
    Settled v s ↔ s.verdict = some v := by
  unfold Settled
  cases hphase : s.phase <;> simp_all [RuntimePhase.active, RuntimePhase.inLoop]

theorem inSession_inLoop (h : s.inSession = true) : s.phase.inLoop = true := by
  unfold inSession at h
  cases hphase : s.phase <;> simp_all [RuntimePhase.inLoop]

theorem settled_step {v : Except RuntimeError Unit} {events : List ClientEvent}
    (hstep : Step s outcome) (hs : Settled v s ∧ ∀ event ∈ events, event.kind.Quiet) :
    Settled v outcome.1 ∧ ∀ event ∈ events ++ outcome.2, event.kind.Quiet := by
  obtain ⟨hsettled, hquiet⟩ := hs
  cases hstep with
  | @mk s' phase kinds hedge _ hverdict _ =>
    rw [List.forall_mem_append, forall_goto]
    -- the runtime goes on without a result, and the verdict with it
    have hactive : s.phase.active = true → s'.verdict = some v := fun hs =>
      hverdict v ((settled_of_active hs).mp hsettled)
    have hloop : s.phase.inLoop = true → s.verdict = some v := fun hs =>
      (settled_of_active (RuntimePhase.active_of_inLoop hs)).mp hsettled
    cases hedge with
    | stay =>
      refine ⟨?_, hquiet, List.forall_mem_nil _⟩
      unfold Settled at hsettled ⊢
      simp only [goto]
      cases hphase : s.phase with
      | resolving => simp [hphase] at hsettled
      | stopping => simpa [hphase] using hsettled
      | ended => simpa [hphase] using hsettled
      | panicked => simp [hphase] at hsettled
      | _ => exact hactive (by rw [hphase]; rfl)
    | start hphase => exact ⟨hactive (by rw [hphase]; rfl), hquiet, by simp [RuntimeEventKind.Quiet]⟩
    | connect hphase hfree => simp [hloop (by rw [hphase]; rfl)] at hfree
    | connected _ hphase =>
      exact ⟨hactive (by rw [hphase]; rfl), hquiet, by simp [RuntimeEventKind.Quiet]⟩
    | authenticated hphase =>
      exact ⟨hactive (by rw [hphase]; rfl), hquiet, by simp [RuntimeEventKind.Quiet]⟩
    | failed _ _ hphase hfree => simp [hloop hphase.inLoop] at hfree
    | lost _ hphase =>
      obtain ⟨ended, hphase⟩ := hphase
      exact ⟨hactive (by rw [hphase]; rfl), hquiet, by simp [RuntimeEventKind.Quiet]⟩
    | networkChanged hphase =>
      refine ⟨hactive ?_, hquiet, by simp [RuntimeEventKind.Quiet, networkChangedEvent]⟩
      rcases hphase with hphase | hphase
      · exact RuntimePhase.active_of_inLoop hphase.inLoop
      · rw [hphase]
        rfl
    | again hphase =>
      refine ⟨hactive ?_, hquiet, List.forall_mem_nil _⟩
      rcases hphase with hphase | ⟨ended, hphase⟩ <;> rw [hphase] <;> rfl
    | close _ hphase => exact ⟨hactive (by rw [hphase]; rfl), hquiet, List.forall_mem_nil _⟩
    | emits _ hin =>
      have hon := RuntimePhase.active_of_inLoop (inSession_inLoop hin)
      refine ⟨?_, hquiet, by simp [RuntimeEventKind.Quiet]⟩
      exact (settled_of_active (s := (s'.goto s.phase _).1) hon).mpr (hactive hon)
    | resolve _ hphase hfree => simp [hloop hphase] at hfree
    | returns _ hphase hresult => exact ⟨hresult v (hloop hphase), hquiet, List.forall_mem_nil _⟩
    | resolved _ _ hphase => simp [Settled, hphase] at hsettled
    | terminal own hphase =>
      have hown : own = v := by simpa [Settled, hphase] using hsettled
      refine ⟨hown, hquiet, ?_⟩
      cases own <;> simp [terminalEvents, RuntimeEventKind.Quiet]

theorem settled_run {v : Except RuntimeError Unit} (h : s.Sound) (hsettled : Settled v s)
    (inputs : List RuntimeInput) :
    (machine.run s inputs).1.Sound ∧ Settled v (machine.run s inputs).1 ∧
      ∀ event ∈ (machine.run s inputs).2, event.kind.Quiet :=
  h.run (P := fun events s => Settled v s ∧ ∀ event ∈ events, event.kind.Quiet)
    (fun _ => settled_step) inputs [] ⟨hsettled, List.forall_mem_nil _⟩

/-- Once the runtime has noticed a failed TUN task or has been cancelled, whichever
came first decides how it ends, and it makes no further attempt to connect. -/
theorem halted_runtime_settles (config : StaticClientConfig) (handle : UInt64)
    (control : Option CommandChannel) (before after : List RuntimeInput)
    (result : Except RuntimeError Unit)
    (hactive : (machine.run (initial config handle control) before).1.phase.active = true)
    (hverdict : (machine.run (initial config handle control) before).1.verdict = some result) :
    let rest := machine.run (machine.run (initial config handle control) before).1 after
    (∀ event ∈ rest.2, event.kind.Quiet) ∧
      ∀ final, rest.1.phase = .ended final → final = result := by
  intro rest
  obtain ⟨hsettled, hquiet⟩ := (settled_run (sound_run config handle control before)
    ((settled_of_active hactive).mpr hverdict) after).2
  refine ⟨hquiet, fun final hended => ?_⟩
  unfold Settled at hsettled
  rw [hended] at hsettled
  exact hsettled

def readerPanics : List RuntimeInput :=
  [.poll {}, .poll {}, .poll { connect := some (.ok none) }, .poll { auth := some (.ok ()) },
    .taskExits .reader .panicked, .poll {}]

/-- The cancellation comes when the session is being closed. -/
def cancelledLate : List RuntimeInput :=
  [.cancel, .poll { closed := true }, .taskExits .writer .returned, .poll {}]

theorem halted_runtime_settles_panicked :
    let rest := machine.run (machine.run (initial .plain 7 none) readerPanics).1 cancelledLate
    (∀ event ∈ rest.2, event.kind.Quiet) ∧
      ∀ final, rest.1.phase = .ended final → final = .error (.tun (.panic .reader)) :=
  halted_runtime_settles .plain 7 none readerPanics cancelledLate (.error (.tun (.panic .reader)))
    rfl rfl

/-! ## The end -/

/-- Both tasks are over, and the end is at most so many polls away. -/
def Nears (n : Nat) (outcome : Outcome) : Prop :=
  outcome.1.handles.joined = true ∧ outcome.1.phase.pollsLeft ≤ n

/-- Both tasks are over, and the runtime has noticed that it has to end. -/
structure Halted (s : ClientRuntime) : Prop where
  joined : s.handles.joined = true
  noticed : s.tunFault = true ∨ s.cancelled = true

namespace Halted

variable (h : s.Halted)
include h

theorem cancelled (hfault : ¬s.tunFault = true) : s.cancelled = true :=
  h.noticed.resolve_left hfault

theorem supervise (first : TunTask) : (s.supervise first).Halted := by
  have htask : ∀ {task e handles}, s.handles.pollTask task = some (e, handles) →
      handles.joined = true := by
    intro task e handles hpoll
    have hover := h.joined
    unfold TunHandles.pollTask at hpoll
    split at hpoll <;> cases hpoll
    cases task <;> simp_all [TunHandles.joined, TunHandles.set]
  unfold ClientRuntime.supervise
  split
  · split
    · exact h
    · rename_i e handles hexit
      have hjoined : handles.joined = true := by
        cases first <;> rcases Option.or_eq_some_iff.mp hexit with hpoll | ⟨-, hpoll⟩ <;>
          exact htask hpoll
      split
      · exact ⟨hjoined, h.noticed⟩
      · exact ⟨hjoined, .inl rfl⟩
  · exact h

theorem finish (n : Nat) : Nears (n + 2) (s.finish result) := by
  have hresolve : ∀ own, Nears (n + 2) (s.resolveTunChannelFailure own) := by
    intro own
    unfold resolveTunChannelFailure
    split
    · refine ⟨h.joined, ?_⟩
      simp only [goto]
      split <;> simp [RuntimePhase.pollsLeft]
    · exact ⟨h.joined, by simp [stopWith, goto, RuntimePhase.pollsLeft]⟩
  unfold ClientRuntime.finish
  split <;> exact hresolve _

/-- The two checks with which `try_connect` begins and goes on after a failure. -/
theorem stops (n : Nat) (outcome : Outcome) :
    Nears (n + 2) (if s.tunFault then s.faulted
      else if s.cancelled then s.finish (.ok ()) else outcome) := by
  split
  · exact h.finish n
  · rw [if_pos (h.cancelled ‹_›)]
    exact h.finish n

theorem tryConnect : Nears 2 s.tryConnect := h.stops 0 _

theorem connectFailed (random : Nat) (e : ConnectError) (n : Nat) :
    Nears (n + 2) (s.connectFailed random e) :=
  h.stops n _

theorem raceCancel_ne_none (hfault : ¬s.tunFault = true) {α : Type} (cancelFirst : Bool)
    (ready : Option (Except ConnectError α)) : s.raceCancel cancelFirst ready ≠ none := by
  cases cancelFirst <;> simp [raceCancel, h.cancelled hfault]

theorem pollConnecting (io : Ready) : Nears 7 (s.pollConnecting io) := by
  unfold ClientRuntime.pollConnecting
  split
  · exact h.finish 5
  · split
    · exact ⟨h.joined, Nat.le_refl 7⟩
    · exact h.connectFailed _ _ 5
    · exact absurd ‹_› (h.raceCancel_ne_none ‹_› _ _)

theorem pollAuthenticating (io : Ready) : Nears 6 (s.pollAuthenticating io) := by
  unfold ClientRuntime.pollAuthenticating
  split
  · exact h.finish 4
  · split
    · exact ⟨h.joined, Nat.le_refl 6⟩
    · exact h.connectFailed _ _ 4
    · exact absurd ‹_› (h.raceCancel_ne_none ‹_› _ _)

theorem pollSession (io : Ready) : Nears 5 (s.pollSession io) := by
  unfold ClientRuntime.pollSession
  split
  · exact ⟨h.joined, Nat.le_refl 5⟩
  · rw [if_pos (h.cancelled ‹_›)]
    exact ⟨h.joined, Nat.le_refl 5⟩

/-- A session that has ended before the failed task was noticed is still followed by
the wait for a new one. -/
theorem pollClosing {io : Ready} (hclosed : io.closed = true) (ended : SessionOutcome) :
    Nears 4 (s.pollClosing ended io) := by
  unfold ClientRuntime.pollClosing
  rw [if_pos hclosed]
  cases handleSessionExit ended s.cancelled with
  | reconnect => exact ⟨h.joined, Nat.le_refl 4⟩
  | reconnectNow => exact ⟨h.joined, Nat.le_succ 3⟩
  | _ => exact h.finish 2

theorem pollWaiting (io : Ready) : Nears 3 (s.pollWaiting io) := by
  have hnoticed : (s.tunFault || s.cancelled) = true := by simpa using h.noticed
  unfold ClientRuntime.pollWaiting
  rw [hnoticed]
  exact ⟨h.joined, Nat.le_refl 3⟩

end Halted

/-- A poll brings the end nearer. -/
theorem Settled.poll (hsettled : Settled result s) (h : s.Sound) (hjoined : s.handles.joined = true)
    {io : Ready} (hclosed : io.closed = true) : Nears (s.phase.pollsLeft - 1) (s.poll io) := by
  -- in the loop, the verdict is there because a fault or the cancellation was noticed
  have hhalted : s.phase.active = true → (s.supervise io.firstTask).Halted := by
    intro hactive
    refine Halted.supervise ⟨hjoined, ?_⟩ _
    by_contra hnot
    rw [not_or, Bool.not_eq_true, Bool.not_eq_true] at hnot
    have hfree := h.verdict_none hnot.1 hnot.2
    simp [(settled_of_active hactive).mp hsettled] at hfree
  unfold ClientRuntime.poll
  cases hphase : s.phase with
  | fresh => exact ⟨hjoined, Nat.le_refl 3⟩
  | looping => exact (hhalted (by rw [hphase]; rfl)).tryConnect
  | connecting => exact (hhalted (by rw [hphase]; rfl)).pollConnecting io
  | authenticating => exact (hhalted (by rw [hphase]; rfl)).pollAuthenticating io
  | session => exact (hhalted (by rw [hphase]; rfl)).pollSession io
  | closing ended => exact (hhalted (by rw [hphase]; rfl)).pollClosing hclosed ended
  | waiting => exact (hhalted (by rw [hphase]; rfl)).pollWaiting io
  | resolving task => simp [Settled, hphase] at hsettled
  | stopping own =>
    simp only [pollStopping, if_pos hjoined]
    exact ⟨hjoined, Nat.le_refl 0⟩
  | ended own => exact ⟨hjoined, by simp [hphase, RuntimePhase.pollsLeft]⟩
  | panicked => simp [Settled, hphase] at hsettled

/-- Nothing takes the end further away. -/
theorem Settled.nears_step (hsettled : Settled result s) (h : s.Sound)
    (hjoined : s.handles.joined = true) {input : RuntimeInput}
    (hclosed : ∀ io, input = .poll io → io.closed = true) :
    Nears (s.phase.pollsLeft - input.isPoll.toNat) (s.step input) := by
  cases input with
  | poll io => exact hsettled.poll h hjoined (hclosed io rfl)
  | taskExits task own =>
    unfold step
    simp only
    rw [if_neg (TunHandles.joined_iff.mp hjoined task)]
    exact ⟨hjoined, Nat.le_refl _⟩
  | sessionEmits kind transport =>
    unfold step sessionEmits
    simp only
    split <;> exact ⟨hjoined, Nat.le_refl _⟩
  | sessionTakesCommand =>
    unfold step sessionTakesCommand
    simp only
    split <;> exact ⟨hjoined, Nat.le_refl _⟩
  | _ => exact ⟨hjoined, Nat.le_refl _⟩

/-- Once how the runtime ends is settled and both TUN tasks are over, eight polls end it
so, whatever else happens and unless the closing of a session keeps it waiting. -/
theorem halted_runtime_ends (config : StaticClientConfig) (handle : UInt64)
    (control : Option CommandChannel) (before after : List RuntimeInput)
    (result : Except RuntimeError Unit)
    (hactive : (machine.run (initial config handle control) before).1.phase.active = true)
    (hverdict : (machine.run (initial config handle control) before).1.verdict = some result)
    (hover : ∀ task,
      (machine.run (initial config handle control) before).1.handles.get task ≠ .running)
    (hclosed : ∀ io, .poll io ∈ after → io.closed = true)
    (hpolls : 8 ≤ after.countP (·.isPoll)) :
    (machine.run (machine.run (initial config handle control) before).1 after).1.phase =
      .ended result := by
  have hsound := sound_run config handle control before
  generalize (machine.run (initial config handle control) before).1 = s at *
  obtain ⟨⟨_, hsettled, _⟩, hleft⟩ := Lib.Machine.run_countdown (M := machine)
    (P := fun s => s.Sound ∧ Settled result s ∧ s.handles.joined = true)
    (·.phase.pollsLeft) (·.isPoll) after (fun s input hinput hs => by
      obtain ⟨h, hsettled, hjoined⟩ := hs
      obtain ⟨hkept, hnearer⟩ :=
        hsettled.nears_step h hjoined fun io hio => hclosed io (hio ▸ hinput)
      obtain ⟨h, hsettled, _⟩ := settled_run h hsettled [input]
      exact ⟨⟨h, hsettled, hkept⟩, hnearer⟩)
    ⟨hsound, (settled_of_active hactive).mpr hverdict, TunHandles.joined_iff.mpr hover⟩
  have hmost : s.phase.pollsLeft ≤ 8 := by cases s.phase <;> simp [RuntimePhase.pollsLeft]
  have hnone : (machine.run s after).1.phase.pollsLeft = 0 := by omega
  unfold Settled at hsettled
  cases hphase : (machine.run s after).1.phase <;> simp_all [RuntimePhase.pollsLeft]

def bothOver : List RuntimeInput := readerPanics ++ [.taskExits .writer .returned]

def closing : List RuntimeInput := List.replicate 8 (.poll { closed := true })

theorem halted_runtime_ends_panicked :
    (machine.run (machine.run (initial .plain 7 none) bothOver).1 closing).1.phase =
      .ended (.error (.tun (.panic .reader))) :=
  halted_runtime_ends .plain 7 none bothOver closing (.error (.tun (.panic .reader))) rfl rfl
    (fun task => by cases task <;> decide)
    (fun io hio => by
      obtain rfl : io = { closed := true } := by simpa [closing] using hio
      rfl) (by decide)

/-! ## Terminal errors -/

theorem Edge.events_final (h : Edge s s' phase kinds) (hsound : s.Sound) :
    ∀ kind ∈ kinds, kind.Final := by
  cases h with
  | terminal result hphase =>
    have hfinal : ClientRuntime.Final result := by simpa [hphase, PhaseSound] using hsound.phase
    cases result with
    | ok => simp [terminalEvents, RuntimeEventKind.Final]
    | error e =>
      have hretryable : e.isRestartRetriable = false := hfinal
      simpa [terminalEvents, RuntimeEventKind.Final] using hretryable
  | _ => simp [RuntimeEventKind.Final, networkChangedEvent]

/-- Every error that the runtime ends with is one that a restart is not expected to
cure, and is reported so. -/
theorem terminal_errors_final (config : StaticClientConfig) (handle : UInt64)
    (control : Option CommandChannel) (inputs : List RuntimeInput) (event : ClientEvent)
    (hevent : event ∈ (machine.run (initial config handle control) inputs).2) (e : RuntimeError)
    (retryable : Bool) (hkind : event.kind = .error e retryable) :
    e.isRestartRetriable = false ∧ retryable = false := by
  have hfinal := ((sound_initial config handle control).run
    (P := fun events _ => ∀ event ∈ events, event.kind.Final)
    (fun hsound hstep hevents => ?_) inputs [] (List.forall_mem_nil _)).2
  · simpa [hkind, RuntimeEventKind.Final] using hfinal event hevent
  · cases hstep with
    | mk hedge =>
      exact List.forall_mem_append.mpr ⟨hevents, forall_goto.mpr (hedge.events_final hsound)⟩

theorem terminal_errors_final_panicked :
    RuntimeError.isRestartRetriable (.tun (.panic .reader)) = false ∧ false = false :=
  terminal_errors_final .plain 7 none (readerPanics ++ cancelledLate)
    ⟨7, 7, .tcp, .error (.tun (.panic .reader)) false⟩ (List.mem_of_getElem? (i := 6) rfl) _ _ rfl

end ClientRuntime

end Slt.Client
