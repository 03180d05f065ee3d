import Slt.Client.Runtime

/-!
# What a step of the client runtime can do

`Edge` is the transition system of the runtime: its phases, the events on the way
from one to the next, and what becomes of the attempts and the backoff. Every step of
the code is made of edges, from states in which the supervision is sound
(`Sound.step`). The properties of whole runs are proved over the edges.
-/

namespace Slt.Client

namespace ObserverSink

variable (self : ObserverSink) (kinds : List RuntimeEventKind)

@[simp] theorem kinds_emit : (self.emit kinds).2.map (·.kind) = kinds := by
  induction kinds generalizing self with
  | nil => rfl
  | cons kind kinds ih => exact congrArg (kind :: ·) (ih _)

theorem transport_emit :
    (self.emit kinds).1.transport = self.transport ∧
      ∀ event ∈ (self.emit kinds).2, event.transport = self.transport := by
  induction kinds generalizing self with
  | nil => exact ⟨rfl, List.forall_mem_nil _⟩
  | cons kind kinds ih =>
    obtain ⟨hsink, hevents⟩ := ih { self with seq := self.seq + 1 }
    exact ⟨hsink, List.forall_mem_cons.mpr ⟨rfl, hevents⟩⟩

/-- The sequence numbers go on from that of the sink, modulo their width. -/
theorem seq_emit :
    (self.emit kinds).1.seq = self.seq + UInt64.ofNat kinds.length ∧
      (self.emit kinds).2.map (·.seq) =
        (List.range kinds.length).map fun i => self.seq + UInt64.ofNat i := by
  induction kinds generalizing self with
  | nil => simp [emit]
  | cons kind kinds ih =>
    obtain ⟨hnext, hseqs⟩ := ih { self with seq := self.seq + 1 }
    constructor
    · rw [List.length_cons, Nat.add_comm, UInt64.ofNat_add, ← UInt64.add_assoc]
      exact hnext
    · rw [List.length_cons, List.range_succ_eq_map, List.map_cons, List.map_map]
      refine List.cons_eq_cons.mpr ⟨by simp [event], hseqs.trans (List.map_congr_left fun i _ => ?_)⟩
      simp [Nat.succ_eq_add_one, Nat.add_comm i 1, UInt64.ofNat_add, UInt64.add_assoc]

end ObserverSink

/-! ## Tasks and ends of sessions -/

namespace TunHandles

variable {handles handles' : TunHandles} {task other : TunTask} {e : TunTaskError}

theorem get_set_finished_ne_taken (result : TunTaskResult) (h : handles.get other ≠ .taken) :
    (handles.set task (.finished result)).get other ≠ .taken := by
  cases task <;> cases other <;> first | exact h | simp [set, get]

theorem pollTask_ne_channelClosed (h : handles.pollTask task = some (e, handles')) :
    e ≠ .channelClosed other := by
  unfold pollTask at h
  split at h
  · rename_i result _
    obtain ⟨rfl, -⟩ := Prod.mk.inj (Option.some.inj h)
    cases result <;> simp [classifyTaskExit]
  · cases h

theorem pollExit_ne_channelClosed {first : TunTask}
    (h : handles.pollExit first = some (e, handles')) : e ≠ .channelClosed other := by
  cases first <;> rcases Option.or_eq_some_iff.mp h with h | ⟨-, h⟩ <;>
    exact pollTask_ne_channelClosed h

theorem joined_iff : handles.joined = true ↔ ∀ task, handles.get task ≠ .running := by
  simp only [joined, Bool.and_eq_true, decide_eq_true_eq]
  constructor
  · rintro ⟨hreader, hwriter⟩ task
    cases task
    · exact hreader
    · exact hwriter
  · exact fun h => ⟨h .reader, h .writer⟩

end TunHandles

/-- A session has ended in one of the two ways that `SessionOutcome` is built. -/
def SessionOutcome.Built (outcome : SessionOutcome) : Prop :=
  ∀ e, outcome.error = some e → outcome.exit = e.exit

theorem SessionOutcome.built_ofResult (result : Except SessionError SessionExit) :
    (ofResult result).Built := by
  cases result with
  | ok exit => exact fun e he => by cases he
  | error err =>
    intro e he
    cases he
    rfl

/-- The errors that end the runtime are those that a session does not recover from. -/
theorem handleSessionExit_fatal {ended : SessionOutcome} {cancelled : Bool} {e : SessionError}
    (hbuilt : ended.Built) (h : handleSessionExit ended cancelled = .fatal e) :
    e.exit.isTransient = false := by
  have hexit : ∀ fallback : SessionError, ended.exit = fallback.exit →
      (ended.error.getD fallback).exit = ended.exit := by
    intro fallback hfallback
    cases herror : ended.error with
    | none => exact hfallback.symm
    | some err => exact (hbuilt err herror).symm
  unfold handleSessionExit at h
  split at h
  · cases h
  · split at h
    case h_4 hprotocol =>
      cases h
      rw [hexit (.protocolViolation "protocol error") hprotocol, hprotocol]
      rfl
    case h_5 hdenied =>
      cases h
      rw [hexit (.permissionDenied ⟨.other 0, "permission denied"⟩) hdenied, hdenied]
      rfl
    case h_6 hrequired =>
      cases h
      rw [hexit .udpUpgradeRequired hrequired, hrequired]
      rfl
    all_goals cases h

theorem RuntimePhase.active_of_inLoop {phase : RuntimePhase} (h : phase.inLoop = true) :
    phase.active = true := by
  cases phase <;> first | rfl | cases h

namespace ClientRuntime

variable {s s' : ClientRuntime} {outcome : Outcome} {phase : RuntimePhase}
  {kinds : List RuntimeEventKind} {result : Except RuntimeError Unit}

/-! ## Sound states -/

/-- A result that a restart is not expected to cure. -/
def Final : Except RuntimeError Unit → Prop
  | .ok () => True
  | .error e => e.isRestartRetriable = false

/-- How the runtime has to end, by what it has noticed. -/
def verdict (s : ClientRuntime) : Option (Except RuntimeError Unit) :=
  match s.supervision with
  | .failing e => some (.error (.tun e))
  | _ => if s.cancelled then some (.ok ()) else none

def Supervised (s : ClientRuntime) : Prop :=
  match s.supervision with
  | .watching => s.tunFault = false ∧ (s.phase.active = true → ∀ task, s.handles.get task ≠ .taken)
  | .draining => s.tunFault = false ∧ s.cancelled = true
  | .failing e => s.tunFault = true ∧ ∀ task, e ≠ .channelClosed task

/-- What a phase says of the tasks and of its own result. -/
def PhaseSound (handles : TunHandles) : RuntimePhase → Prop
  | .closing outcome => outcome.Built
  | .resolving task => handles.get task ≠ .taken
  | .stopping result => Final result
  | .ended result => Final result ∧ handles.joined = true
  | .panicked => False
  | _ => True

structure Sound (s : ClientRuntime) : Prop where
  supervised : s.Supervised
  phase : PhaseSound s.handles s.phase

/-- The tasks are as they were, and no event has been sent. -/
structure Frame (s s' : ClientRuntime) : Prop where
  supervision : s'.supervision = s.supervision
  tunFault : s'.tunFault = s.tunFault
  handles : s'.handles = s.handles
  seq : s'.observer.seq = s.observer.seq
  cancelled : s.cancelled = true → s'.cancelled = true

theorem Frame.verdict {t : ClientRuntime} (h : Frame s t) {v : Except RuntimeError Unit}
    (hv : s.verdict = some v) : t.verdict = some v := by
  unfold ClientRuntime.verdict at *
  rw [h.supervision]
  cases hsup : s.supervision with
  | failing e => simpa [hsup] using hv
  | _ =>
    simp only [hsup, Option.ite_none_right_eq_some] at hv ⊢
    exact ⟨h.cancelled hv.1, hv.2⟩

theorem Supervised.frame (h : s.Supervised) (hsame : s'.supervision = s.supervision)
    (hfault : s'.tunFault = s.tunFault) (hcancelled : s.cancelled = true → s'.cancelled = true)
    (hactive : s'.phase.active = true → s.phase.active = true ∧
      ∀ task, s.handles.get task ≠ .taken → s'.handles.get task ≠ .taken) : s'.Supervised := by
  unfold Supervised at *
  rw [hsame, hfault]
  cases hsup : s.supervision with
  | watching =>
    simp only [hsup] at h
    exact ⟨h.1, fun hs task => (hactive hs).2 task (h.2 (hactive hs).1 task)⟩
  | draining =>
    simp only [hsup] at h
    exact ⟨h.1, hcancelled h.2⟩
  | failing e => simpa [hsup] using h

/-! ## Edges -/

/-- The task is at an `await` of `connect_authenticated`. -/
def Connecting (s : ClientRuntime) : Prop := s.phase = .connecting ∨ s.phase = .authenticating

structure Kept (s s' : ClientRuntime) : Prop where
  attempt : s'.attempt = s.attempt
  backoff : s'.backoff = s.backoff
  transport : s'.observer.transport = s.observer.transport

/-- From `s`, by way of `s'`, to a phase with some events. -/
inductive Edge (s s' : ClientRuntime) : RuntimePhase → List RuntimeEventKind → Prop
  | stay (kept : Kept s s') : Edge s s' s.phase []
  | start (hphase : s.phase = .fresh) (kept : Kept s s') :
    Edge s s' .looping [.starting, .tunReady]
  | connect (hphase : s.phase = .looping) (hfree : s.verdict = none)
    (hattempt : s'.attempt = Lib.U64.saturatingAdd s.attempt 1) (hbackoff : s'.backoff = s.backoff)
    (htransport : s'.observer.transport = .tcp) : Edge s s' .connecting [.connecting s'.attempt]
  | connected (peer : Option SocketAddr) (hphase : s.phase = .connecting) (kept : Kept s s') :
    Edge s s' .authenticating [.connectedTcp peer, .authenticating]
  | authenticated (hphase : s.phase = .authenticating) (hattempt : s'.attempt = s.attempt)
    (hbackoff : s'.backoff = s.backoff.reset)
    (htransport : s'.observer.transport = s.observer.transport) :
    Edge s s' .session [.authenticated]
  | failed (e : ConnectError) (random : Nat) (hphase : s.Connecting) (hfree : s.verdict = none)
    (hattempt : s'.attempt = s.attempt) (hbackoff : s'.backoff = (s.backoff.nextDelay random).2) :
    Edge s s' .waiting [.reconnectFailed s.attempt e,
      .reconnectScheduled ((s.attempt + 1) % 2 ^ 64) (s.backoff.nextDelay random).1]
  | lost (random : Nat) (hphase : ∃ ended, s.phase = .closing ended)
    (hattempt : s'.attempt = s.attempt) (hbackoff : s'.backoff = (s.backoff.nextDelay random).2) :
    Edge s s' .waiting
      [.reconnectScheduled ((s.attempt + 1) % 2 ^ 64) (s.backoff.nextDelay random).1]
  | networkChanged (hphase : s.Connecting ∨ s.phase = .waiting) (kept : Kept s s') :
    Edge s s' .looping [networkChangedEvent]
  | again (hphase : s.phase = .waiting ∨ ∃ ended, s.phase = .closing ended) (kept : Kept s s') :
    Edge s s' .looping []
  | close (ended : SessionOutcome) (hphase : s.phase = .session) (kept : Kept s s') :
    Edge s s' (.closing ended) []
  | emits (kind : ClientEventKind) (hphase : s.inSession = true) (hattempt : s'.attempt = s.attempt)
    (hbackoff : s'.backoff = s.backoff) : Edge s s' s.phase [.session kind]
  | resolve (task : TunTask) (hphase : s.phase.inLoop = true) (hfree : s.verdict = none)
    (kept : Kept s s') : Edge s s' (.resolving task) []
  | returns (result : Except RuntimeError Unit) (hphase : s.phase.inLoop = true)
    (hverdict : ∀ v, s.verdict = some v → result = v) (kept : Kept s s') :
    Edge s s' (.stopping result) []
  | resolved (task : TunTask) (result : Except RuntimeError Unit) (hphase : s.phase = .resolving task)
    (kept : Kept s s') : Edge s s' (.stopping result) []
  | terminal (result : Except RuntimeError Unit) (hphase : s.phase = .stopping result)
    (kept : Kept s s') : Edge s s' (.ended result) (terminalEvents result)

inductive Step (s : ClientRuntime) : Outcome → Prop
  | mk {s' : ClientRuntime} {phase : RuntimePhase} {kinds : List RuntimeEventKind}
    (hedge : Edge s s' phase kinds) (hseq : s'.observer.seq = s.observer.seq)
    (hverdict : ∀ v, s.verdict = some v → s'.verdict = some v)
    (hsound : (s'.goto phase kinds).1.Sound) : Step s (s'.goto phase kinds)

theorem Step.sound (h : Step s outcome) : outcome.1.Sound := by
  cases h with
  | mk _ _ _ hsound => exact hsound

inductive Steps : ClientRuntime → Outcome → Prop
  | last {s : ClientRuntime} {outcome : Outcome} (hstep : Step s outcome) : Steps s outcome
  | stay {s s' : ClientRuntime} {outcome : Outcome} (hstep : Step s (s', []))
    (hrest : Steps s' outcome) : Steps s outcome

theorem Edge.step {t : ClientRuntime} (hedge : Edge s t phase kinds) (h : s.Sound)
    (hframe : Frame s t) (hactive : phase.active = true → s.phase.active = true)
    (hphase : PhaseSound s.handles phase) : Step s (t.goto phase kinds) := by
  refine .mk hedge hframe.seq (fun v => hframe.verdict) ⟨?_, ?_⟩
  · exact h.supervised.frame hframe.supervision hframe.tunFault hframe.cancelled fun hs =>
      ⟨hactive hs, fun _ => hframe.handles ▸ id⟩
  · have hhandles : (t.goto phase kinds).1.handles = s.handles := hframe.handles
    rw [hhandles]
    exact hphase

/-- An edge that changes nothing beside the phase. -/
theorem Edge.plain (hedge : Edge s s phase kinds) (h : s.Sound)
    (hactive : phase.active = true → s.phase.active = true) (hphase : PhaseSound s.handles phase) :
    Steps s (s.goto phase kinds) :=
  .last (hedge.step h ⟨rfl, rfl, rfl, rfl, id⟩ hactive hphase)

/-- An edge within the loop. -/
theorem Edge.loops {t : ClientRuntime} (hedge : Edge s t phase kinds) (h : s.Sound)
    (hframe : Frame s t) (hloop : s.phase.inLoop = true) (hphase : PhaseSound s.handles phase) :
    Steps s (t.goto phase kinds) :=
  .last (hedge.step h hframe (fun _ => RuntimePhase.active_of_inLoop hloop) hphase)

theorem Step.stay (kept : Kept s s') (hphase : s'.phase = s.phase)
    (hseq : s'.observer.seq = s.observer.seq)
    (hverdict : ∀ v, s.verdict = some v → s'.verdict = some v) (hsound : s'.Sound) :
    Step s (s', []) := by
  have hedge : Edge s s' s'.phase [] := hphase ▸ .stay kept
  exact .mk hedge hseq hverdict hsound

section

variable (h : s.Sound)
include h

theorem Sound.stay (hframe : Frame s s') (kept : Kept s s') (hphase : s'.phase = s.phase) :
    Step s (s', []) := by
  refine .stay kept hphase hframe.seq (fun v => hframe.verdict) ⟨?_, ?_⟩
  · exact h.supervised.frame hframe.supervision hframe.tunFault hframe.cancelled fun hs =>
      ⟨hphase ▸ hs, fun _ => hframe.handles ▸ id⟩
  · rw [hframe.handles, hphase]
    exact h.phase

theorem Sound.steps_self : Steps s (s, []) :=
  .last (h.stay ⟨rfl, rfl, rfl, rfl, id⟩ ⟨rfl, rfl, rfl⟩ rfl)

/-- Commands arrive and are taken, and the token may be cancelled. -/
theorem Sound.controlled (control : Option CommandChannel) (cancelled : Bool)
    (hcancelled : s.cancelled = true → cancelled = true) :
    Step s ({ s with control, cancelled }, []) :=
  h.stay ⟨rfl, rfl, rfl, rfl, hcancelled⟩ ⟨rfl, rfl, rfl⟩ rfl

/-! ## Steps of the code -/

theorem Sound.verdict_none (hfault : s.tunFault = false) (hcancelled : s.cancelled = false) :
    s.verdict = none := by
  have hsup := h.supervised
  unfold Supervised at hsup
  unfold verdict
  split
  · rename_i e he
    simp [he, hfault] at hsup
  · simp [hcancelled]

/-- How the loop returns: with the failure that was noticed, by waiting for the task
whose channel has closed, or with its own result. A channel is reported closed only
before the cancellation, when the handle of its task is still there. -/
theorem Sound.finish (hloop : s.phase.inLoop = true) (hfinal : Final result)
    (hown : s.tunFault = false → s.cancelled = true → result = .ok ()) :
    Steps s (s.finish result) := by
  have hstop : ∀ {own}, Final own → (∀ v, s.verdict = some v → own = v) →
      Steps s (s.stopWith own) := fun hfinal hverdict =>
    .last (Edge.step (t := { s with cancelled := true }) (.returns _ hloop hverdict ⟨rfl, rfl, rfl⟩) h
      ⟨rfl, rfl, rfl, rfl, fun _ => rfl⟩ (fun hs => by cases hs) hfinal)
  have hsup := h.supervised
  unfold Supervised at hsup
  unfold ClientRuntime.finish
  cases hs : s.supervision with
  | failing e =>
    simp only [hs] at hsup ⊢
    unfold resolveTunChannelFailure
    split
    · rename_i task heq
      cases heq
      exact absurd rfl (hsup.2 task)
    · exact hstop rfl fun v hv => by simpa [verdict, hs] using hv
  | _ =>
    simp only [hs] at hsup ⊢
    unfold resolveTunChannelFailure
    split
    · rename_i task
      have hcancelled : s.cancelled = false :=
        Bool.eq_false_iff.mpr fun hc => by cases hown hsup.1 hc
      have hfree := h.verdict_none hsup.1 hcancelled
      first
      | have huntaken := hsup.2 (RuntimePhase.active_of_inLoop hloop) task
        rw [if_neg huntaken]
        exact (Edge.resolve task hloop hfree ⟨rfl, rfl, rfl⟩).plain h (fun hs => by cases hs)
          huntaken
      | simp [hcancelled] at hsup
    · refine hstop hfinal fun v hv => ?_
      simp only [verdict, hs, Option.ite_none_right_eq_some] at hv
      rw [hown hsup.1 hv.1]
      simpa using hv.2

theorem Sound.faulted (hloop : s.phase.inLoop = true) (hfault : s.tunFault = true) :
    Steps s s.faulted :=
  h.finish hloop rfl fun hno => by simp [hfault] at hno

theorem Sound.afterSession {ended : SessionOutcome} (hphase : s.phase = .closing ended)
    (random : Nat) :
    Steps s (s.afterSession random (handleSessionExit ended s.cancelled)) := by
  have hloop : s.phase.inLoop = true := by rw [hphase]; rfl
  have hbuilt : ended.Built := by simpa [hphase, PhaseSound] using h.phase
  have hfinish : ∀ {result}, handleSessionExit ended s.cancelled ≠ .break → Final result →
      Steps s (s.finish result) := by
    intro result haction hfinal
    refine h.finish hloop hfinal fun _ hcancelled => absurd ?_ haction
    rw [hcancelled]
    rfl
  cases haction : handleSessionExit ended s.cancelled with
  | «break» => exact h.finish hloop trivial fun _ _ => rfl
  | fatal e => exact hfinish (by simp [haction]) (handleSessionExit_fatal hbuilt haction)
  | tunChannelClosed task => exact hfinish (by simp [haction]) rfl
  | tunFault => exact hfinish (by simp [haction]) rfl
  | reconnect =>
    exact Edge.loops (t := { s with backoff := (s.backoff.nextDelay random).2 })
      (.lost random ⟨ended, hphase⟩ rfl rfl) h ⟨rfl, rfl, rfl, rfl, id⟩ hloop trivial
  | reconnectNow =>
    exact (Edge.again (.inr ⟨ended, hphase⟩) ⟨rfl, rfl, rfl⟩).loops h ⟨rfl, rfl, rfl, rfl, id⟩ hloop trivial

theorem Sound.pollClosing {ended : SessionOutcome} (hphase : s.phase = .closing ended)
    (io : Ready) : Steps s (s.pollClosing ended io) := by
  unfold ClientRuntime.pollClosing
  split
  · exact h.afterSession hphase io.random
  · exact h.steps_self

theorem Sound.tryConnect (hphase : s.phase = .looping) : Steps s s.tryConnect := by
  have hloop : s.phase.inLoop = true := by rw [hphase]; rfl
  unfold ClientRuntime.tryConnect
  split
  · exact h.faulted hloop ‹_›
  · rename_i hfault
    split
    · exact h.finish hloop trivial fun _ _ => rfl
    · have hfree := h.verdict_none (Bool.eq_false_iff.mpr hfault) (Bool.eq_false_iff.mpr ‹_›)
      exact Edge.loops
        (t := { s with
          attempt := Lib.U64.saturatingAdd s.attempt 1, observer := s.observer.setTransport .tcp })
        (.connect hphase hfree rfl rfl rfl) h ⟨rfl, rfl, rfl, rfl, id⟩ hloop trivial

end

theorem Connecting.inLoop (h : s.Connecting) : s.phase.inLoop = true := by
  rcases h with h | h <;> rw [h] <;> rfl

theorem Sound.connectFailed (h : s.Sound) (hphase : s.Connecting) (random : Nat) (e : ConnectError) :
    Steps s (s.connectFailed random e) := by
  unfold ClientRuntime.connectFailed
  split
  · exact h.faulted hphase.inLoop ‹_›
  · rename_i hfault
    split
    · exact h.finish hphase.inLoop trivial fun _ _ => rfl
    · rename_i hcancelled
      split
      · rename_i hretriable
        have hfinal : e.isRetriable = false := by simpa using hretriable
        exact h.finish hphase.inLoop hfinal fun _ hc => absurd hc hcancelled
      · have hfree := h.verdict_none (Bool.eq_false_iff.mpr hfault) (Bool.eq_false_iff.mpr hcancelled)
        exact Edge.loops (t := { s with backoff := (s.backoff.nextDelay random).2 })
          (.failed e random hphase hfree rfl rfl) h ⟨rfl, rfl, rfl, rfl, id⟩ hphase.inLoop trivial

theorem recvControl_some {command : Option ClientCommand}
    (h : s.recvControl = some (command, s')) : ∃ control, s' = { s with control } := by
  unfold recvControl at h
  split at h
  · cases h
  · cases h
    exact ⟨_, rfl⟩
  · cases h
    exact ⟨_, rfl⟩
  · cases h

section

variable (h : s.Sound)
include h

theorem Sound.handleConnectCommand (hphase : s.Connecting) : Steps s s.handleConnectCommand := by
  unfold ClientRuntime.handleConnectCommand
  split
  · exact h.steps_self
  · rename_i hrecv
    obtain ⟨control, rfl⟩ := recvControl_some hrecv
    exact Edge.loops (t := { s with control }) (.networkChanged (.inl hphase) ⟨rfl, rfl, rfl⟩) h
      ⟨rfl, rfl, rfl, rfl, id⟩ hphase.inLoop trivial
  · rename_i hrecv
    obtain ⟨control, rfl⟩ := recvControl_some hrecv
    have hstop := h.controlled control true fun _ => rfl
    exact .stay hstop (hstop.sound.finish hphase.inLoop trivial fun _ _ => rfl)

theorem Sound.pollConnecting (hphase : s.phase = .connecting) (io : Ready) :
    Steps s (s.pollConnecting io) := by
  have hconnecting : s.Connecting := .inl hphase
  unfold ClientRuntime.pollConnecting
  split
  · exact h.faulted hconnecting.inLoop ‹_›
  · split
    · exact (Edge.connected _ hphase ⟨rfl, rfl, rfl⟩).loops h ⟨rfl, rfl, rfl, rfl, id⟩
        hconnecting.inLoop trivial
    · exact h.connectFailed hconnecting _ _
    · exact h.handleConnectCommand hconnecting

theorem Sound.pollAuthenticating (hphase : s.phase = .authenticating) (io : Ready) :
    Steps s (s.pollAuthenticating io) := by
  have hconnecting : s.Connecting := .inr hphase
  unfold ClientRuntime.pollAuthenticating
  split
  · exact h.faulted hconnecting.inLoop ‹_›
  · split
    · exact Edge.loops (t := { s with backoff := s.backoff.reset })
        (.authenticated hphase rfl rfl rfl) h ⟨rfl, rfl, rfl, rfl, id⟩ hconnecting.inLoop trivial
    · exact h.connectFailed hconnecting _ _
    · exact h.handleConnectCommand hconnecting

theorem Sound.pollSession (hphase : s.phase = .session) (io : Ready) :
    Steps s (s.pollSession io) := by
  have hactive : s.phase.active = true := by rw [hphase]; rfl
  have hclose : ∀ {ended : SessionOutcome}, ended.Built → Steps s (s.goto (.closing ended) []) :=
    fun hbuilt => (Edge.close _ hphase ⟨rfl, rfl, rfl⟩).plain h (fun _ => hactive) hbuilt
  unfold ClientRuntime.pollSession
  split
  · exact hclose fun e he => by cases he
  · split
    · exact hclose fun e he => by cases he
    · split
      · exact h.steps_self
      · exact hclose (SessionOutcome.built_ofResult _)

theorem Sound.pollWaiting (hphase : s.phase = .waiting) (io : Ready) :
    Steps s (s.pollWaiting io) := by
  have hloop : s.phase.inLoop = true := by rw [hphase]; rfl
  unfold ClientRuntime.pollWaiting
  split
  · exact (Edge.again (.inl hphase) ⟨rfl, rfl, rfl⟩).loops h ⟨rfl, rfl, rfl, rfl, id⟩ hloop trivial
  · split
    · exact h.steps_self
    · rename_i hrecv
      obtain ⟨control, rfl⟩ := recvControl_some hrecv
      exact Edge.loops (t := { s with control }) (.networkChanged (.inr hphase) ⟨rfl, rfl, rfl⟩) h
        ⟨rfl, rfl, rfl, rfl, id⟩ hloop trivial
    · rename_i hrecv
      obtain ⟨control, rfl⟩ := recvControl_some hrecv
      exact Edge.loops (t := { s with control, cancelled := true })
        (.again (.inl hphase) ⟨rfl, rfl, rfl⟩) h ⟨rfl, rfl, rfl, rfl, fun _ => rfl⟩ hloop trivial

theorem Sound.supervise (hloop : s.phase.inLoop = true) (first : TunTask) :
    Step s (s.supervise first, []) := by
  have hphase : ∀ handles, PhaseSound handles s.phase := by
    intro handles
    have hs := h.phase
    cases hp : s.phase <;> simp_all [PhaseSound, RuntimePhase.inLoop]
  unfold ClientRuntime.supervise
  split
  · rename_i hwatching
    have hfault : s.tunFault = false := by
      have hsup := h.supervised
      simp only [Supervised, hwatching] at hsup
      exact hsup.1
    split
    · exact h.stay ⟨rfl, rfl, rfl, rfl, id⟩ ⟨rfl, rfl, rfl⟩ rfl
    · rename_i e handles hexit
      split
      · rename_i hcancelled
        refine .stay ⟨rfl, rfl, rfl⟩ rfl rfl (fun v hv => ?_) ⟨⟨hfault, hcancelled⟩, hphase handles⟩
        simpa [verdict, hwatching] using hv
      · rename_i hcancelled
        refine .stay ⟨rfl, rfl, rfl⟩ rfl rfl (fun v hv => ?_)
          ⟨⟨rfl, fun task => TunHandles.pollExit_ne_channelClosed hexit⟩, hphase handles⟩
        simp [verdict, hwatching, hcancelled] at hv
  · exact h.stay ⟨rfl, rfl, rfl, rfl, id⟩ ⟨rfl, rfl, rfl⟩ rfl

theorem Sound.pollResolving {task : TunTask} (hphase : s.phase = .resolving task) :
    Steps s (s.pollResolving task) := by
  unfold ClientRuntime.pollResolving
  split
  · exact h.steps_self
  · rename_i e handles _
    refine .last (.mk (.resolved task _ hphase ⟨rfl, rfl, rfl⟩) rfl (fun v hv => ?_) ⟨?_, rfl⟩)
    · have hframe : Frame s { s with cancelled := true } := ⟨rfl, rfl, rfl, rfl, fun _ => rfl⟩
      exact hframe.verdict hv
    · exact h.supervised.frame rfl rfl (fun _ => rfl) fun hs => by cases hs

theorem Sound.pollStopping (hphase : s.phase = .stopping result) :
    Steps s (s.pollStopping result) := by
  have hfinal : Final result := by simpa [hphase, PhaseSound] using h.phase
  unfold ClientRuntime.pollStopping
  split
  · exact (Edge.terminal result hphase ⟨rfl, rfl, rfl⟩).plain h (fun hs => by cases hs) ⟨hfinal, ‹_›⟩
  · exact h.steps_self

end

@[simp] theorem supervise_phase (s : ClientRuntime) (first : TunTask) :
    (s.supervise first).phase = s.phase := by
  unfold supervise
  split
  · split
    · rfl
    · split <;> rfl
  · rfl

theorem Sound.poll (h : s.Sound) (io : Ready) : Steps s (s.poll io) := by
  -- in the loop, the supervision comes first
  have hsupervised : ∀ {outcome}, s.phase.inLoop = true →
      ((s.supervise io.firstTask).Sound → Steps (s.supervise io.firstTask) outcome) →
      Steps s outcome := fun hloop hrest =>
    .stay (h.supervise hloop io.firstTask) (hrest (h.supervise hloop io.firstTask).sound)
  unfold ClientRuntime.poll
  cases hphase : s.phase with
  | fresh =>
    have hactive : s.phase.active = true := by rw [hphase]; rfl
    exact (Edge.start hphase ⟨rfl, rfl, rfl⟩).plain h (fun _ => hactive) trivial
  | looping =>
    exact hsupervised (by rw [hphase]; rfl) fun h => h.tryConnect (by simpa using hphase)
  | connecting =>
    exact hsupervised (by rw [hphase]; rfl) fun h => h.pollConnecting (by simpa using hphase) io
  | authenticating =>
    exact hsupervised (by rw [hphase]; rfl) fun h => h.pollAuthenticating (by simpa using hphase) io
  | session =>
    exact hsupervised (by rw [hphase]; rfl) fun h => h.pollSession (by simpa using hphase) io
  | closing ended =>
    exact hsupervised (by rw [hphase]; rfl) fun h => h.pollClosing (by simpa using hphase) io
  | waiting =>
    exact hsupervised (by rw [hphase]; rfl) fun h => h.pollWaiting (by simpa using hphase) io
  | resolving task => exact h.pollResolving hphase
  | stopping result => exact h.pollStopping hphase
  | ended result => exact h.steps_self
  | panicked => exact h.steps_self

theorem Sound.taskExits (h : s.Sound) {task : TunTask} (hrunning : s.handles.get task = .running)
    (result : TunTaskResult) :
    Step s ({ s with handles := s.handles.set task (.finished result) }, []) := by
  refine .stay ⟨rfl, rfl, rfl⟩ rfl rfl (fun v hv => hv) ⟨?_, ?_⟩
  · exact h.supervised.frame rfl rfl id fun hs =>
      ⟨hs, fun _ => TunHandles.get_set_finished_ne_taken result⟩
  · have hs := h.phase
    unfold PhaseSound at *
    simp only
    split at hs
    · exact hs
    · exact TunHandles.get_set_finished_ne_taken result hs
    · exact hs
    · exact absurd hrunning (TunHandles.joined_iff.mp hs.2 task)
    · exact hs
    · exact trivial

theorem Sound.sessionTakesCommand (h : s.Sound) : Steps s (s.sessionTakesCommand, []) := by
  unfold ClientRuntime.sessionTakesCommand
  split
  · refine .last (h.controlled _ _ fun hc => ?_)
    simp [hc]
  · exact h.steps_self

theorem Sound.step (h : s.Sound) (input : RuntimeInput) : Steps s (s.step input) := by
  cases input with
  | cancel => exact .last (h.controlled s.control true fun _ => rfl)
  | taskExits task result =>
    unfold ClientRuntime.step
    simp only
    split
    · exact .last (h.taskExits ‹_› result)
    · exact h.steps_self
  | send command => exact .last (h.controlled _ s.cancelled id)
  | closeControl => exact .last (h.controlled _ s.cancelled id)
  | sessionEmits kind transport =>
    unfold ClientRuntime.step sessionEmits
    simp only
    split
    · rename_i hin
      refine .last (Edge.step (.emits kind hin ?_ ?_) h ⟨rfl, rfl, rfl, rfl, id⟩ id h.phase) <;> rfl
    · exact h.steps_self
  | sessionTakesCommand => exact h.sessionTakesCommand
  | poll io => exact h.poll io

/-! ## Runs -/

theorem sound_initial (config : StaticClientConfig) (handle : UInt64)
    (control : Option CommandChannel) : (initial config handle control).Sound :=
  ⟨⟨rfl, fun _ task => by cases task <;> simp [initial, TunHandles.get]⟩, trivial⟩

/-- What every step keeps of the events so far and the state, every run keeps. -/
theorem Sound.run {P : List ClientEvent → ClientRuntime → Prop}
    (hstep : ∀ {events s outcome}, s.Sound → Step s outcome → P events s →
      P (events ++ outcome.2) outcome.1)
    (h : s.Sound) (inputs : List RuntimeInput) (events : List ClientEvent) (hs : P events s) :
    (machine.run s inputs).1.Sound ∧
      P (events ++ (machine.run s inputs).2) (machine.run s inputs).1 := by
  have hsteps : ∀ {s outcome}, Steps s outcome → ∀ {events}, s.Sound → P events s →
      outcome.1.Sound ∧ P (events ++ outcome.2) outcome.1 := by
    intro s outcome hsteps
    induction hsteps with
    | last hlast => exact fun h hs => ⟨hlast.sound, hstep h hlast hs⟩
    | stay hstay _ ih =>
      intro events h hs
      refine ih hstay.sound ?_
      simpa using hstep h hstay hs
  refine Lib.Machine.run_history (M := machine) (P := fun events s => s.Sound ∧ P events s)
    (fun events s input hs => ?_) events inputs ⟨h, hs⟩
  exact hsteps (hs.1.step input) hs.1 hs.2

theorem sound_run (config : StaticClientConfig) (handle : UInt64) (control : Option CommandChannel)
    (inputs : List RuntimeInput) : (machine.run (initial config handle control) inputs).1.Sound :=
  ((sound_initial config handle control).run (P := fun _ _ => True) (fun _ _ h => h) inputs []
    trivial).1

end ClientRuntime

end Slt.Client
