import Mathlib.Data.List.Basic

/-!
# Computations over a library that may fail

A program that calls an external library sees each call either return the
library's value or fail. `Faulty` runs such a program against a tape that
says which calls fail, and keeps a log of the events the program emits; the
tape and the log survive an error. `Faulty.Yields` says that a program gives a
certain result when no call fails, and no other result when some call does.
-/

namespace Slt.Lib

/-- The remaining faults, one entry for each library call to come (no entry
means no fault), and the events emitted so far. -/
structure Tape (ev : Type) where
  faults : List Bool
  log : List ev

abbrev Faulty (ev ε : Type) := ExceptT ε (StateM (Tape ev))

namespace Faulty

variable {ev ε α β : Type}

def run (m : Faulty ev ε α) (t : Tape ev) : Except ε α × Tape ev := m t

/-- A library call with value `a`, failing with `e` if the tape says so. -/
def call (e : ε) (a : α) : Faulty ev ε α := fun t =>
  match t.faults with
  | true :: rest => (.error e, { t with faults := rest })
  | false :: rest => (.ok a, { t with faults := rest })
  | [] => (.ok a, t)

def emit (x : ev) : Faulty ev ε Unit := fun t => (.ok (), { t with log := t.log ++ [x] })

def ofExcept : Except ε α → Faulty ev ε α
  | .ok a => pure a
  | .error e => throw e

/-! ## Running -/

@[simp] theorem run_pure (a : α) (t : Tape ev) : run (pure a : Faulty ev ε α) t = (.ok a, t) := rfl

@[simp] theorem run_throw (e : ε) (t : Tape ev) :
    run (throw e : Faulty ev ε α) t = (.error e, t) := rfl

theorem run_bind (m : Faulty ev ε α) (f : α → Faulty ev ε β) (t : Tape ev) :
    run (m >>= f) t =
      match run m t with
      | (.ok a, t') => run (f a) t'
      | (.error e, t') => (.error e, t') := by
  show (ExceptT.bind m f) t = _
  simp only [ExceptT.bind, ExceptT.mk, run, bind, StateT.bind]
  rcases m t with ⟨r, t'⟩
  cases r <;> rfl

theorem run_bind_ok {m : Faulty ev ε α} {f : α → Faulty ev ε β} {t t'' : Tape ev} {b : β}
    (h : run (m >>= f) t = (.ok b, t'')) :
    ∃ a t', m.run t = (.ok a, t') ∧ (f a).run t' = (.ok b, t'') := by
  rw [run_bind] at h
  rcases hm : m.run t with ⟨r, t'⟩
  rw [hm] at h
  cases r with
  | error e => simp at h
  | ok a => exact ⟨a, t', rfl, h⟩

theorem run_call (e : ε) (a : α) (t : Tape ev) :
    run (call e a : Faulty ev ε α) t = (.ok a, { t with faults := t.faults.tail }) ∨
      (t.faults ≠ [] ∧
        run (call e a : Faulty ev ε α) t = (.error e, { t with faults := t.faults.tail })) := by
  rcases t with ⟨faults, log⟩
  match faults with
  | [] => exact .inl rfl
  | false :: _ => exact .inl rfl
  | true :: _ => exact .inr ⟨List.cons_ne_nil _ _, rfl⟩

/-- A call followed by a computation that succeeds without a further call. -/
theorem run_call_bind {e : ε} {a : α} {b : β} {f : α → Faulty ev ε β}
    (h : ∀ t, (f a).run t = (.ok b, t)) (t : Tape ev) :
    run (call e a >>= f) t = run (call e b) t := by
  rcases t with ⟨faults, log⟩
  match faults with
  | [] => exact h _
  | false :: _ => exact h _
  | true :: _ => rfl

@[simp] theorem run_emit (x : ev) (t : Tape ev) :
    run (emit x : Faulty ev ε Unit) t = (.ok (), { t with log := t.log ++ [x] }) := rfl

@[simp] theorem run_ofExcept (r : Except ε α) (t : Tape ev) :
    run (ofExcept r : Faulty ev ε α) t = (r, t) := by
  cases r <;> rfl

/-! ## The result of a successful run -/

/-- Without faults the run gives `a`, whatever the log holds, and every run
that succeeds gives `a` too. -/
structure Yields (m : Faulty ev ε α) (a : α) : Prop where
  clean : ∀ log, ∃ log', m.run ⟨[], log⟩ = (.ok a, ⟨[], log'⟩)
  success : ∀ {t t' b}, m.run t = (.ok b, t') → b = a

theorem yields_pure (a : α) : Yields (pure a : Faulty ev ε α) a := by
  refine ⟨fun log => ⟨log, rfl⟩, ?_⟩
  intro t t' b h
  simp only [run_pure, Prod.mk.injEq, Except.ok.injEq] at h
  exact h.1.symm

theorem yields_call (e : ε) (a : α) : Yields (call e a : Faulty ev ε α) a := by
  refine ⟨fun log => ⟨log, rfl⟩, ?_⟩
  intro t t' b h
  rcases run_call e a t with hr | ⟨-, hr⟩
  · rw [hr, Prod.mk.injEq, Except.ok.injEq] at h
    exact h.1.symm
  · simp [hr] at h

theorem yields_ofExcept {r : Except ε α} {a : α} (h : r = .ok a) :
    Yields (ofExcept r : Faulty ev ε α) a := by
  subst h
  exact yields_pure a

theorem Yields.bind {m : Faulty ev ε α} {f : α → Faulty ev ε β} {a : α} {b : β}
    (hm : Yields m a) (hf : Yields (f a) b) : Yields (m >>= f) b := by
  constructor
  · intro log
    obtain ⟨log', h⟩ := hm.clean log
    obtain ⟨log'', h'⟩ := hf.clean log'
    exact ⟨log'', by rw [run_bind, h]; exact h'⟩
  · intro t t'' c h
    obtain ⟨a', t', ha, hc⟩ := run_bind_ok h
    rw [hm.success ha] at hc
    exact hf.success hc

/-! ## The log -/

/-- The computation emits nothing, and meets no faults if none are left. -/
structure Quiet (m : Faulty ev ε α) : Prop where
  log : ∀ t, (m.run t).2.log = t.log
  clean : ∀ t, t.faults = [] → (m.run t).2.faults = []

theorem quiet_pure (a : α) : Quiet (pure a : Faulty ev ε α) := ⟨fun _ => rfl, fun _ h => h⟩

theorem quiet_throw (e : ε) : Quiet (throw e : Faulty ev ε α) := ⟨fun _ => rfl, fun _ h => h⟩

theorem quiet_call (e : ε) (a : α) : Quiet (call e a : Faulty ev ε α) := by
  constructor
  · intro t
    rcases run_call e a t with h | ⟨-, h⟩ <;> rw [h]
  · intro t ht
    rcases run_call e a t with h | ⟨-, h⟩ <;> simp [h, ht]

theorem quiet_ofExcept (r : Except ε α) : Quiet (ofExcept r : Faulty ev ε α) := by
  cases r with
  | ok a => exact quiet_pure a
  | error e => exact quiet_throw e

theorem Quiet.bind {m : Faulty ev ε α} {f : α → Faulty ev ε β} (hm : Quiet m)
    (hf : ∀ a, Quiet (f a)) : Quiet (m >>= f) := by
  constructor
  · intro t
    have h := hm.log t
    rw [run_bind]
    rcases hr : m.run t with ⟨r, t'⟩
    rw [hr] at h
    cases r with
    | error e => exact h
    | ok a => exact ((hf a).log t').trans h
  · intro t ht
    have h := hm.clean t ht
    rw [run_bind]
    rcases hr : m.run t with ⟨r, t'⟩
    rw [hr] at h
    cases r with
    | error e => exact h
    | ok a => exact (hf a).clean t' h

theorem Quiet.run_clean {m : Faulty ev ε α} (h : Quiet m) (log : List ev) :
    (m.run ⟨[], log⟩).2 = ⟨[], log⟩ := by
  have hlog := h.log ⟨[], log⟩
  have hfaults := h.clean ⟨[], log⟩ rfl
  generalize (m.run ⟨[], log⟩).2 = t at hlog hfaults ⊢
  obtain ⟨faults, log'⟩ := t
  cases hlog
  cases hfaults
  rfl

theorem Yields.run_clean {m : Faulty ev ε α} {a : α} (h : Yields m a) (hq : Quiet m)
    (log : List ev) : m.run ⟨[], log⟩ = (.ok a, ⟨[], log⟩) := by
  obtain ⟨log', hrun⟩ := h.clean log
  have htape := hq.run_clean log
  rw [hrun] at htape ⊢
  rw [← htape]

theorem quiet_ite {c : Prop} [Decidable c] {m n : Faulty ev ε α} (hm : Quiet m) (hn : Quiet n) :
    Quiet (if c then m else n) := by
  split
  · exact hm
  · exact hn

end Faulty

end Slt.Lib
