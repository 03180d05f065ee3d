import Slt.Client.RuntimeSafety

/-!
# The events of the client runtime

What an observer may rely on. `Lifecycle` reads the events of a runtime one after
the other and knows which may come next: the attempts are numbered, a failed one is
announced with the next, and one terminal event comes last. The runtime is followed
by it in every run.
-/

namespace Slt.Client

/-- The events of a connection that is being made. -/
def RuntimeEventKind.ofConnection : RuntimeEventKind → Bool
  | .connecting _ => true
  | .connectedTcp _ => true
  | .authenticating => true
  | .authenticated => true
  | _ => false

/-- Where an observer thinks the runtime is. The numbers count the attempts. -/
inductive Lifecycle where
  | fresh
  | starting
  | idle (attempts : Nat)
  | connecting (attempts : Nat)
  | connected (attempts : Nat)
  | authenticating (attempts : Nat)
  | established (attempts : Nat)
  | failed (attempts : Nat)
  | scheduled (attempts : Nat)
  | stopping
  | ended
  deriving DecidableEq

namespace Lifecycle

/-- The attempts so far, where a next one or the end of the runtime may come. -/
def attempts? : Lifecycle → Option Nat
  | .idle n => some n
  | .connecting n => some n
  | .authenticating n => some n
  | .established n => some n
  | .scheduled n => some n
  | _ => none

def next (l : Lifecycle) (kind : RuntimeEventKind) : Option Lifecycle :=
  match l, kind with
  | .fresh, .starting => some .starting
  | .starting, .tunReady => some (.idle 0)
  | .idle n, .connecting m => if m = n + 1 then some (.connecting m) else none
  | .established n, .connecting m => if m = n + 1 then some (.connecting m) else none
  | .scheduled n, .connecting m => if m = n + 1 then some (.connecting m) else none
  | .connecting n, .connectedTcp _ => some (.connected n)
  | .connected n, .authenticating => some (.authenticating n)
  | .authenticating n, .authenticated => some (.established n)
  | .connecting n, .reconnectFailed m _ => if m = n then some (.failed n) else none
  | .authenticating n, .reconnectFailed m _ => if m = n then some (.failed n) else none
  | .failed n, .reconnectScheduled m _ => if m = n + 1 then some (.scheduled n) else none
  | .established n, .reconnectScheduled m _ => if m = n + 1 then some (.scheduled n) else none
  | .established n, .session _ => some (.established n)
  | .connecting n, .session (.networkChanged _) => some (.idle n)
  | .authenticating n, .session (.networkChanged _) => some (.idle n)
  | .scheduled n, .session (.networkChanged _) => some (.idle n)
  | .stopping, .stopped => some .ended
  | l, .stopping => l.attempts?.map fun _ => .stopping
  | l, .error _ _ => l.attempts?.map fun _ => .ended
  | _, _ => none

def read (l : Lifecycle) (events : List ClientEvent) : Option Lifecycle :=
  (events.map (·.kind)).foldlM next l

theorem read_terminal {l : Lifecycle} {n : Nat} (h : l.attempts? = some n)
    (result : Except RuntimeError Unit) :
    (ClientRuntime.terminalEvents result).foldlM next l = some .ended := by
  cases result <;> cases l <;> first | rfl | cases h

end Lifecycle

namespace ClientRuntime

variable {s s' : ClientRuntime} {outcome : Outcome} {phase : RuntimePhase}
  {kinds : List RuntimeEventKind} {l : Lifecycle} {events : List ClientEvent}

/-! ## The order of the events -/

def Follows (l : Lifecycle) (attempt : Nat) : RuntimePhase → Prop
  | .fresh => l = .fresh ∧ attempt = 0
  | .looping => l = .idle attempt ∨ l = .established attempt ∨ l = .scheduled attempt
  | .connecting => l = .connecting attempt
  | .authenticating => l = .authenticating attempt
  | .session => l = .established attempt
  | .closing _ => l = .established attempt
  | .waiting => l = .scheduled attempt
  | .resolving _ => l.attempts? = some attempt
  | .stopping _ => l.attempts? = some attempt
  | .ended _ => l = .ended
  | .panicked => False

theorem Follows.attempts {attempt : Nat} (h : Follows l attempt phase)
    (hloop : phase.inLoop = true) : l.attempts? = some attempt := by
  cases phase with
  | looping => rcases h with rfl | rfl | rfl <;> rfl
  | _ => first | (rw [h]; rfl) | cases hloop

theorem Follows.ended_iff {attempt : Nat} (h : Follows l attempt phase) :
    l = .ended ↔ ∃ result, phase = .ended result := by
  cases phase with
  | fresh => simp [h.1]
  | looping => rcases h with rfl | rfl | rfl <;> simp
  | ended => simpa [Follows] using h
  | resolving =>
    simp only [reduceCtorEq, exists_false, iff_false]
    rintro rfl
    cases h
  | stopping =>
    simp only [reduceCtorEq, exists_false, iff_false]
    rintro rfl
    cases h
  | panicked => exact h.elim
  | _ => simp_all [Follows]

/-- While the number of attempts fits its type, an observer that follows the runtime
understands the next events and follows it again. -/
theorem Edge.followed (h : Edge s s' phase kinds) (hfollows : Follows l s.attempt s.phase)
    (hattempt : s.attempt + 1 < 2 ^ 64) :
    ∃ l', kinds.foldlM Lifecycle.next l = some l' ∧ Follows l' s'.attempt phase := by
  have hnext : Lib.U64.saturatingAdd s.attempt 1 = s.attempt + 1 :=
    Lib.U64.saturatingAdd_of_lt hattempt
  have hconnecting : s.Connecting → l = .connecting s.attempt ∨ l = .authenticating s.attempt := by
    rintro (hphase | hphase) <;> rw [hphase] at hfollows
    · exact .inl hfollows
    · exact .inr hfollows
  cases h with
  | stay kept => exact ⟨l, rfl, by rwa [kept.attempt]⟩
  | start hphase kept =>
    rw [hphase] at hfollows
    obtain ⟨rfl, hzero⟩ := hfollows
    exact ⟨.idle 0, rfl, .inl (by rw [kept.attempt, hzero])⟩
  | connect hphase _ hcount =>
    rw [hphase] at hfollows
    refine ⟨.connecting s'.attempt, ?_, rfl⟩
    rcases hfollows with rfl | rfl | rfl <;> simp [Lifecycle.next, hcount, hnext]
  | connected peer hphase kept =>
    rw [hphase] at hfollows
    obtain rfl := hfollows
    exact ⟨.authenticating s.attempt, rfl, by rw [kept.attempt]; rfl⟩
  | authenticated hphase hcount =>
    rw [hphase] at hfollows
    obtain rfl := hfollows
    exact ⟨.established s.attempt, rfl, by rw [hcount]; rfl⟩
  -- The report adds one modulo 2^64, the counter saturates; below the bound they agree.
  | failed e random hphase _ hcount =>
    refine ⟨.scheduled s.attempt, ?_, by rw [hcount]; rfl⟩
    rw [Nat.mod_eq_of_lt hattempt]
    rcases hconnecting hphase with rfl | rfl <;> simp [Lifecycle.next]
  | lost random hphase hcount =>
    obtain ⟨ended, hphase⟩ := hphase
    rw [hphase] at hfollows
    obtain rfl := hfollows
    refine ⟨.scheduled s.attempt, ?_, by rw [hcount]; rfl⟩
    rw [Nat.mod_eq_of_lt hattempt]
    simp [Lifecycle.next]
  | networkChanged hphase kept =>
    refine ⟨.idle s.attempt, ?_, .inl (by rw [kept.attempt])⟩
    rcases hphase with hphase | hphase
    · rcases hconnecting hphase with rfl | rfl <;> rfl
    · rw [hphase] at hfollows
      obtain rfl := hfollows
      rfl
  | again hphase kept =>
    refine ⟨l, rfl, .inr ?_⟩
    rw [kept.attempt]
    rcases hphase with hphase | ⟨ended, hphase⟩ <;> rw [hphase] at hfollows
    · exact .inr hfollows
    · exact .inl hfollows
  | close ended hphase kept =>
    rw [hphase] at hfollows
    exact ⟨l, rfl, by rw [kept.attempt]; exact hfollows⟩
  -- Inside a session the observer stays where it is.
  | emits kind hin hcount =>
    obtain rfl : l = .established s.attempt := by
      unfold inSession at hin
      split at hin <;> simp_all [Follows]
    exact ⟨.established s.attempt, rfl, by rwa [hcount]⟩
  | resolve task hphase _ kept => exact ⟨l, rfl, by rw [kept.attempt]; exact hfollows.attempts hphase⟩
  | returns result hphase _ kept =>
    exact ⟨l, rfl, by rw [kept.attempt]; exact hfollows.attempts hphase⟩
  | resolved task result hphase kept =>
    rw [hphase] at hfollows
    exact ⟨l, rfl, by rw [kept.attempt]; exact hfollows⟩
  | terminal result hphase =>
    rw [hphase] at hfollows
    exact ⟨.ended, Lifecycle.read_terminal hfollows result, rfl⟩

theorem Edge.attempt_le (h : Edge s s' phase kinds) : s'.attempt ≤ s.attempt + kinds.length := by
  cases h with
  | connect _ _ hcount => exact hcount.le.trans (Nat.min_le_left _ _)
  | authenticated _ hcount => exact Nat.le_add_right_of_le hcount.le
  | failed _ _ _ _ hcount => exact Nat.le_add_right_of_le hcount.le
  | lost _ _ hcount => exact Nat.le_add_right_of_le hcount.le
  | emits _ _ hcount => exact Nat.le_add_right_of_le hcount.le
  | _ => exact Nat.le_add_right_of_le (Kept.attempt ‹_›).le

/-- The events so far are read to where the runtime is, as long as they can be counted. -/
def Readable (events : List ClientEvent) (s : ClientRuntime) : Prop :=
  events.length < 2 ^ 64 - 1 → s.attempt ≤ events.length ∧
    ∃ l, Lifecycle.fresh.read events = some l ∧ Follows l s.attempt s.phase

theorem Readable.step (h : Readable events s) (hstep : Step s outcome) :
    Readable (events ++ outcome.2) outcome.1 := by
  cases hstep with
  | @mk s' phase kinds hedge _ _ _ =>
    intro hlen
    rw [List.length_append, length_goto] at hlen ⊢
    obtain ⟨hattempt, l, hread, hfollows⟩ := h (by omega)
    obtain ⟨l', hread', hfollows'⟩ := hedge.followed hfollows (by omega)
    refine ⟨hedge.attempt_le.trans (Nat.add_le_add_right hattempt _), l', ?_, hfollows'⟩
    unfold Lifecycle.read at hread ⊢
    rw [List.map_append, List.foldlM_append, hread, kinds_goto]
    exact hread'

/-! ## Sequence numbers and transports -/

/-- The events are numbered from one, modulo the width of the numbers. -/
def Numbered (events : List ClientEvent) (s : ClientRuntime) : Prop :=
  s.observer.seq = 1 + UInt64.ofNat events.length ∧
    events.map (·.seq) = (List.range events.length).map fun i => 1 + UInt64.ofNat i

theorem Numbered.step (h : Numbered events s) (hstep : Step s outcome) :
    Numbered (events ++ outcome.2) outcome.1 := by
  cases hstep with
  | @mk s' phase kinds _ hseq _ _ =>
    obtain ⟨hnext, hseqs⟩ := s'.observer.seq_emit kinds
    rw [hseq, h.1] at hnext hseqs
    constructor
    · rw [List.length_append, length_goto, UInt64.ofNat_add, ← UInt64.add_assoc]
      exact hnext
    · rw [List.map_append, h.2, List.length_append, length_goto, List.range_add, List.map_append,
        List.map_map]
      refine congrArg _ (hseqs.trans (List.map_congr_left fun i _ => ?_))
      simp [UInt64.ofNat_add, UInt64.add_assoc]

/-- Connections are made on TCP, and their events say so. -/
def OnTcp (events : List ClientEvent) (s : ClientRuntime) : Prop :=
  (s.Connecting → s.observer.transport = .tcp) ∧
    ∀ event ∈ events, event.kind.ofConnection = true → event.transport = .tcp

theorem Edge.transport (h : Edge s s' phase kinds) (hs : s.Connecting → s.observer.transport = .tcp)
    (hon : (phase = .connecting ∨ phase = .authenticating) ∨
      ∃ kind ∈ kinds, kind.ofConnection = true) : s'.observer.transport = .tcp := by
  cases h with
  | stay kept => exact kept.transport.trans (hs (by simpa [Connecting] using hon))
  | connect _ _ _ _ htransport => exact htransport
  | connected _ hphase kept => exact kept.transport.trans (hs (.inl hphase))
  | authenticated hphase _ _ htransport => exact htransport.trans (hs (.inr hphase))
  | emits kind hin =>
    rcases hon with (hphase | hphase) | ⟨kind, hkind, hon⟩
    · simp [inSession, hphase] at hin
    · simp [inSession, hphase] at hin
    · simp [List.mem_singleton.mp hkind, RuntimeEventKind.ofConnection] at hon
  | terminal result => cases result <;> simp [terminalEvents, RuntimeEventKind.ofConnection] at hon
  | _ => simp [RuntimeEventKind.ofConnection, networkChangedEvent] at hon

theorem OnTcp.step (h : OnTcp events s) (hstep : Step s outcome) :
    OnTcp (events ++ outcome.2) outcome.1 := by
  cases hstep with
  | @mk s' phase kinds hedge _ _ _ =>
    obtain ⟨hsink, hevents⟩ := s'.observer.transport_emit kinds
    refine ⟨fun hon => hsink.trans (hedge.transport h.1 (.inl hon)), ?_⟩
    refine List.forall_mem_append.mpr ⟨h.2, fun event hevent hkind => ?_⟩
    have hmem : event.kind ∈ kinds := by
      rw [← s'.kinds_goto phase kinds]
      exact List.mem_map_of_mem hevent
    exact (hevents event hevent).trans (hedge.transport h.1 (.inr ⟨_, hmem, hkind⟩))

/-- What an observer sees of every run: events in the order of the lifecycle, of which
the terminal one is the last, with consecutive numbers, and connections on TCP. -/
theorem runtime_events_ordered (config : StaticClientConfig) (handle : UInt64)
    (control : Option CommandChannel) (inputs : List RuntimeInput)
    (hfew : (machine.run (initial config handle control) inputs).2.length < 2 ^ 64 - 1) :
    let ⟨s, events⟩ := machine.run (initial config handle control) inputs
    (∃ l, Lifecycle.fresh.read events = some l ∧ (l = .ended ↔ ∃ result, s.phase = .ended result)) ∧
      events.map (·.seq) = (List.range events.length).map (fun i => 1 + UInt64.ofNat i) ∧
      ∀ event ∈ events, event.kind.ofConnection = true → event.transport = .tcp := by
  have hsound := sound_initial config handle control
  obtain ⟨-, l, hl, hfollows⟩ := (hsound.run (P := Readable) (fun _ hstep h => h.step hstep) inputs []
    fun _ => ⟨Nat.le_refl 0, .fresh, rfl, rfl, rfl⟩).2 hfew
  have hnumbered := (hsound.run (P := Numbered) (fun _ hstep h => h.step hstep) inputs []
    ⟨rfl, rfl⟩).2
  have honTcp := (hsound.run (P := OnTcp) (fun _ hstep h => h.step hstep) inputs []
    ⟨fun _ => rfl, List.forall_mem_nil _⟩).2
  exact ⟨⟨l, hl, hfollows.ended_iff⟩, hnumbered.2, honTcp.2⟩

def stopped : List RuntimeInput :=
  [.poll {}, .poll {}, .poll { connect := some (.ok none) }, .poll { auth := some (.ok ()) },
    .sessionEmits .udpDiscoveryStarted none, .send .stop, .sessionTakesCommand, .poll {},
    .poll { closed := true }, .taskExits .reader .returned, .taskExits .writer .returned, .poll {}]

theorem runtime_events_ordered_stopped :
    let ⟨s, events⟩ := machine.run (initial .plain 7 (some ⟨[], false⟩)) stopped
    (∃ l, Lifecycle.fresh.read events = some l ∧ (l = .ended ↔ ∃ result, s.phase = .ended result)) ∧
      events.map (·.seq) = (List.range events.length).map (fun i => 1 + UInt64.ofNat i) ∧
      ∀ event ∈ events, event.kind.ofConnection = true → event.transport = .tcp :=
  runtime_events_ordered .plain 7 (some ⟨[], false⟩) stopped (by decide)

end ClientRuntime

end Slt.Client
