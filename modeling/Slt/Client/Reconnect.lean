import Slt.Client.Lifecycle

/-!
# Reconnect delays

The delay that the runtime announces before an attempt depends on how many it has
announced since the last connection that succeeded: its upper bound doubles with
each, up to the configured maximum, and its lower bound is half of it. A validated
configuration keeps it from becoming zero.
-/

namespace Slt.Client

/-! ## One delay -/

def ClientTimingConfig.reconnectCap (timing : ClientTimingConfig) (delays : Nat) : Nat :=
  min (timing.reconnectMin * 2 ^ delays) timing.reconnectMax

/-- The milliseconds that are drawn for a bound. -/
def DelayFor (cap delay : Nat) : Prop :=
  asMillis cap - asMillis cap / 2 ≤ delay ∧ delay ≤ asMillis cap

namespace ReconnectBackoff

def after (timing : ClientTimingConfig) (delays : Nat) : ReconnectBackoff :=
  ⟨timing.reconnectMin, timing.reconnectMax, timing.reconnectCap delays⟩

variable {timing : ClientTimingConfig}

theorem after_zero (h : timing.reconnectMin ≤ timing.reconnectMax) :
    after timing 0 = new timing.reconnectMin timing.reconnectMax := by
  simp [after, new, ClientTimingConfig.reconnectCap, Nat.min_eq_left h]

theorem reset_after (h : timing.reconnectMin ≤ timing.reconnectMax) (delays : Nat) :
    (after timing delays).reset = after timing 0 := by
  simp [after, reset, ClientTimingConfig.reconnectCap, Nat.min_eq_left h]

theorem nextDelay_bounds (self : ReconnectBackoff) (random : Nat) :
    DelayFor self.current (self.nextDelay random).1 := by
  have hcap : asMillis self.current < 2 ^ 64 := by
    have := Nat.min_le_right (self.current / 1000000) (2 ^ 64 - 1)
    unfold asMillis
    omega
  have hjitter : random % (asMillis self.current / 2 + 1) ≤ asMillis self.current / 2 :=
    Nat.lt_succ_iff.mp (Nat.mod_lt _ (Nat.succ_pos _))
  have hdelay : (self.nextDelay random).1 = asMillis self.current - asMillis self.current / 2 +
      random % (asMillis self.current / 2 + 1) :=
    Lib.U64.saturatingAdd_of_lt (by omega)
  unfold DelayFor
  omega

/-- The bound is doubled and kept below the maximum; a doubling that would overflow
is above it anyway. -/
theorem nextDelay_backoff (self : ReconnectBackoff) (hmax : self.max ≤ maxDuration) (random : Nat) :
    (self.nextDelay random).2 = { self with current := min (2 * self.current) self.max } := by
  unfold nextDelay
  simp only
  congr 1
  split <;> omega

theorem nextDelay_after (hmax : timing.reconnectMax ≤ maxDuration) (delays random : Nat) :
    ((after timing delays).nextDelay random).2 = after timing (delays + 1) := by
  have hdouble : timing.reconnectMin * 2 ^ (delays + 1) = 2 * (timing.reconnectMin * 2 ^ delays) := by
    rw [Nat.pow_succ]
    ring
  rw [nextDelay_backoff _ hmax]
  simp only [after, ClientTimingConfig.reconnectCap, hdouble]
  congr 1
  omega

end ReconnectBackoff

theorem one_le_of_delayFor {timing : ClientTimingConfig} {delays delay : Nat}
    (hmin : Cli.minInterval ≤ timing.reconnectMin) (hle : timing.reconnectMin ≤ timing.reconnectMax)
    (h : DelayFor (timing.reconnectCap delays) delay) : 1 ≤ delay := by
  have hcap : Cli.minInterval ≤ timing.reconnectCap delays := by
    refine Nat.le_min.mpr ⟨?_, hmin.trans hle⟩
    exact hmin.trans (Nat.le_mul_of_pos_right _ (Nat.two_pow_pos _))
  have hmillis : 1 ≤ asMillis (timing.reconnectCap delays) :=
    Nat.le_min.mpr ⟨Nat.div_pos hcap (by decide), by decide⟩
  have := h.1
  omega

/-! ## The delays of a run -/

def RuntimeEventKind.countDelay (delays : Nat) : RuntimeEventKind → Nat
  | .authenticated => 0
  | .reconnectScheduled _ _ => delays + 1
  | _ => delays

/-- The delays announced since the last connection that succeeded. -/
def delaysSince (events : List ClientEvent) : Nat :=
  (events.map (·.kind)).foldl RuntimeEventKind.countDelay 0

/-- After so many delays, every further one is for the bound of its turn. -/
def Timed (timing : ClientTimingConfig) : Nat → List RuntimeEventKind → Prop
  | _, [] => True
  | delays, kind :: kinds =>
    (∀ attempt delay, kind = .reconnectScheduled attempt delay →
      DelayFor (timing.reconnectCap delays) delay) ∧
    Timed timing (RuntimeEventKind.countDelay delays kind) kinds

theorem timed_append {timing : ClientTimingConfig} {delays : Nat} {kinds more : List RuntimeEventKind} :
    Timed timing delays (kinds ++ more) ↔ Timed timing delays kinds ∧
      Timed timing (kinds.foldl RuntimeEventKind.countDelay delays) more := by
  induction kinds generalizing delays with
  | nil => simp [Timed]
  | cons kind kinds ih => simp [Timed, ih, and_assoc]

namespace ClientRuntime

variable {s s' : ClientRuntime} {outcome : Outcome} {phase : RuntimePhase}
  {kinds : List RuntimeEventKind} {timing : ClientTimingConfig} {events : List ClientEvent}

theorem Edge.timed (h : Edge s s' phase kinds) (hle : timing.reconnectMin ≤ timing.reconnectMax)
    (hmax : timing.reconnectMax ≤ maxDuration) {delays : Nat} (hs : s.backoff = .after timing delays) :
    Timed timing delays kinds ∧
      s'.backoff = .after timing (kinds.foldl RuntimeEventKind.countDelay delays) := by
  have hdelay : ∀ random, DelayFor (timing.reconnectCap delays) (s.backoff.nextDelay random).1 := by
    intro random
    simpa [hs, ReconnectBackoff.after] using s.backoff.nextDelay_bounds random
  have hnext : ∀ random, (s.backoff.nextDelay random).2 = .after timing (delays + 1) := by
    intro random
    rw [hs, ReconnectBackoff.nextDelay_after hmax]
  cases h with
  | connect _ _ _ hbackoff => simp [Timed, RuntimeEventKind.countDelay, hbackoff, hs]
  | authenticated _ _ hbackoff =>
    simp [Timed, RuntimeEventKind.countDelay, hbackoff, hs, ReconnectBackoff.reset_after hle]
  | failed _ random _ _ _ hbackoff =>
    simpa [Timed, RuntimeEventKind.countDelay, hbackoff, hnext] using hdelay random
  | lost random _ _ hbackoff =>
    simpa [Timed, RuntimeEventKind.countDelay, hbackoff, hnext] using hdelay random
  | emits _ _ _ hbackoff => simp [Timed, RuntimeEventKind.countDelay, hbackoff, hs]
  | terminal result _ kept =>
    cases result <;>
      simp [Timed, terminalEvents, RuntimeEventKind.countDelay, kept.backoff, hs]
  | _ =>
    simp [Timed, RuntimeEventKind.countDelay, networkChangedEvent, Kept.backoff ‹_›, hs]

/-- The backoff is where the events so far have brought it, and every delay among them
is one for the bound of its turn. -/
def Delayed (timing : ClientTimingConfig) (events : List ClientEvent) (s : ClientRuntime) : Prop :=
  Timed timing 0 (events.map (·.kind)) ∧ s.backoff = .after timing (delaysSince events)

theorem Delayed.step (hle : timing.reconnectMin ≤ timing.reconnectMax)
    (hmax : timing.reconnectMax ≤ maxDuration) (h : Delayed timing events s)
    (hstep : Step s outcome) : Delayed timing (events ++ outcome.2) outcome.1 := by
  cases hstep with
  | @mk s' phase kinds hedge _ _ _ =>
    obtain ⟨htimed, hbackoff⟩ := hedge.timed hle hmax h.2
    unfold Delayed delaysSince
    rw [List.map_append, kinds_goto, List.foldl_append]
    exact ⟨timed_append.mpr ⟨h.1, htimed⟩, hbackoff⟩

/-- In every run of a validated configuration, a delay lies between half its bound and
its bound, which has doubled with each delay since the last connection that
succeeded; and it is never zero. -/
theorem reconnect_delays_bounded (config : StaticClientConfig) (handle : UInt64)
    (control : Option CommandChannel) (inputs : List RuntimeInput)
    (hvalid : config.validate = .ok ()) (hmax : config.timing.reconnectMax ≤ maxDuration)
    (before rest : List ClientEvent) (event : ClientEvent) (attempt delay : Nat)
    (hevents : (machine.run (initial config handle control) inputs).2 = before ++ event :: rest)
    (hevent : event.kind = .reconnectScheduled attempt delay) :
    let cap := asMillis (min (config.timing.reconnectMin * 2 ^ delaysSince before)
      config.timing.reconnectMax)
    cap - cap / 2 ≤ delay ∧ delay ≤ cap ∧ 1 ≤ delay := by
  obtain ⟨hmin, hle⟩ := ClientTimingConfig.reconnect_of_validate (config.timing_of_validate hvalid)
  have hdelayed := ((sound_initial config handle control).run (P := Delayed config.timing)
    (fun _ hstep h => h.step hle hmax hstep) inputs []
    ⟨trivial, (ReconnectBackoff.after_zero hle).symm⟩).2.1
  rw [List.nil_append, hevents, List.map_append, List.map_cons] at hdelayed
  have hdelay := (timed_append.mp hdelayed).2.1 attempt delay hevent
  exact ⟨hdelay.1, hdelay.2, one_le_of_delayFor hmin hle hdelay⟩

def timedOut (random : Nat) : List RuntimeInput :=
  [.poll {}, .poll { connect := some (.error .tcpConnectTimeout), random := random }]

/-- Three attempts that time out, with the draw of the last delay. -/
def timedOutThrice : List RuntimeInput :=
  .poll {} :: timedOut 0 ++ .poll { slept := true } :: timedOut 0 ++
    .poll { slept := true } :: timedOut 150

theorem reconnect_delays_bounded_third :
    let events := (machine.run (initial .plain 7 none) timedOutThrice).2
    let cap := asMillis (min (ClientTimingConfig.default.reconnectMin *
      2 ^ delaysSince (events.take 10)) ClientTimingConfig.default.reconnectMax)
    delaysSince (events.take 10) = 2 ∧ cap - cap / 2 ≤ 550 ∧ 550 ≤ cap ∧ 1 ≤ 550 :=
  ⟨by decide, reconnect_delays_bounded .plain 7 none timedOutThrice
    StaticClientConfig.validate_plain (by decide)
    ((machine.run (initial .plain 7 none) timedOutThrice).2.take 10) []
    ⟨7, 11, .tcp, .reconnectScheduled 4 550⟩ 4 550 rfl rfl⟩

end ClientRuntime

end Slt.Client
