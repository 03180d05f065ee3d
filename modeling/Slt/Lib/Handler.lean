import Mathlib.Data.List.Basic

/-!
# Event handlers

A handler reads and changes a state, produces outputs and may stop: with an
error, or because the future it stands for is dropped while it waits. The
state and the outputs up to there survive: a handler that stops has still done
what it did before. Handlers are run on a state and give the result, the new
state and the outputs in order.

`Triple m s Q` says what a run from `s` comes to. Its rules follow the
handlers: the primitive ones are rewritten away, and `Triple.bind` uses what is
known about the first part.
-/

namespace Slt.Lib

inductive Stop (ε : Type) where
  | error (e : ε)
  | dropped
  deriving DecidableEq, Repr

/-- How an operation ends that the handler waits for. -/
inductive Await (ε : Type) where
  | done
  | failed (e : ε)
  | dropped
  deriving DecidableEq, Repr

def Handler (σ ω ε α : Type) := σ → Except (Stop ε) α × σ × List ω

namespace Handler

variable {σ ω ε α β : Type}

def run (m : Handler σ ω ε α) (s : σ) : Except (Stop ε) α × σ × List ω := m s

def andThen (outcome : Except (Stop ε) α × σ × List ω) (f : α → Handler σ ω ε β) :
    Except (Stop ε) β × σ × List ω :=
  match outcome with
  | (.ok a, s, out) =>
    let (result, s', out') := f a s
    (result, s', out ++ out')
  | (.error e, s, out) => (.error e, s, out)

instance : Monad (Handler σ ω ε) where
  pure a := fun s => (.ok a, s, [])
  bind m f := fun s => andThen (m s) f

def get : Handler σ ω ε σ := fun s => (.ok s, s, [])

def modify (f : σ → σ) : Handler σ ω ε Unit := fun s => (.ok (), f s, [])

def emit (x : ω) : Handler σ ω ε Unit := fun s => (.ok (), s, [x])

def throw (e : ε) : Handler σ ω ε α := fun s => (.error (.error e), s, [])

def drop : Handler σ ω ε α := fun s => (.error .dropped, s, [])

def attempt (m : Handler σ ω ε α) : Handler σ ω ε (Except ε α) := fun s =>
  match m s with
  | (.ok a, s', out) => (.ok (.ok a), s', out)
  | (.error (.error e), s', out) => (.ok (.error e), s', out)
  | (.error .dropped, s', out) => (.error .dropped, s', out)

/-- A time limit drops the handler that it is set on, not what is around it. -/
def timeout (expires : Bool) (m : Handler σ ω ε α) : Handler σ ω ε (Option α) := fun s =>
  match m s with
  | (.ok a, s', out) => (.ok (some a), s', out)
  | (.error (.error e), s', out) => (.error (.error e), s', out)
  | (.error .dropped, s', out) => (if expires then .ok none else .error .dropped, s', out)

/-! ## Triples -/

/-- `Q` holds of the result, the state and the outputs of the run from `s`. -/
def Triple (m : Handler σ ω ε α) (s : σ) (Q : Except (Stop ε) α → σ → List ω → Prop) : Prop :=
  Q (m.run s).1 (m.run s).2.1 (m.run s).2.2

section Triple

variable {m : Handler σ ω ε α} {f : α → Handler σ ω ε β} {s : σ}
  {P Q : Except (Stop ε) α → σ → List ω → Prop} {R : Except (Stop ε) β → σ → List ω → Prop}

theorem Triple.weaken (h : Triple m s P) (hq : ∀ r s' out, P r s' out → Q r s' out) :
    Triple m s Q :=
  hq _ _ _ h

theorem Triple.and (hp : Triple m s P) (hq : Triple m s Q) :
    Triple m s fun r s' out => P r s' out ∧ Q r s' out :=
  ⟨hp, hq⟩

theorem Triple.bind (h : Triple m s P)
    (hok : ∀ a s' out, P (.ok a) s' out →
      Triple (f a) s' fun r s'' out' => R r s'' (out ++ out'))
    (hstop : ∀ e s' out, P (.error e) s' out → R (.error e) s' out) :
    Triple (m >>= f) s R := by
  unfold Triple at h
  rw [Triple]
  change R (andThen (m.run s) f).1 (andThen (m.run s) f).2.1 (andThen (m.run s) f).2.2
  cases hr : m.run s with
  | mk r rest =>
    rw [hr] at h
    cases r with
    | ok a => exact hok a rest.1 rest.2 h
    | error e => exact hstop e rest.1 rest.2 h

theorem Triple.attempt {Q : Except (Stop ε) (Except ε α) → σ → List ω → Prop} (h : Triple m s P)
    (hok : ∀ a s' out, P (.ok a) s' out → Q (.ok (.ok a)) s' out)
    (herror : ∀ e s' out, P (.error (.error e)) s' out → Q (.ok (.error e)) s' out)
    (hdropped : ∀ s' out, P (.error .dropped) s' out → Q (.error .dropped) s' out) :
    Triple (attempt m) s Q := by
  simp only [Triple, run, Handler.attempt] at h ⊢
  rcases hm : m s with ⟨(e | _) | a, s', out⟩ <;> rw [hm] at h
  · exact herror e s' out h
  · exact hdropped s' out h
  · exact hok a s' out h

theorem Triple.attempt_bind {f : Except ε α → Handler σ ω ε β} (h : Triple m s P)
    (hok : ∀ a s' out, P (.ok a) s' out →
      Triple (f (.ok a)) s' fun r s'' out' => R r s'' (out ++ out'))
    (herror : ∀ e s' out, P (.error (.error e)) s' out →
      Triple (f (.error e)) s' fun r s'' out' => R r s'' (out ++ out'))
    (hdropped : ∀ s' out, P (.error .dropped) s' out → R (.error .dropped) s' out) :
    Triple (Handler.attempt m >>= f) s R := by
  simp only [Triple, run] at h
  change R (andThen (Handler.attempt m s) f).1 (andThen (Handler.attempt m s) f).2.1
    (andThen (Handler.attempt m s) f).2.2
  unfold Handler.attempt
  rcases hm : m s with ⟨(e | _) | a, s', out⟩ <;> rw [hm] at h
  · exact herror e s' out h
  · exact hdropped s' out h
  · exact hok a s' out h

theorem Triple.timeout {Q : Except (Stop ε) (Option α) → σ → List ω → Prop} {expires : Bool}
    (h : Triple m s P) (hok : ∀ a s' out, P (.ok a) s' out → Q (.ok (some a)) s' out)
    (herror : ∀ e s' out, P (.error (.error e)) s' out → Q (.error (.error e)) s' out)
    (hdropped : ∀ s' out, P (.error .dropped) s' out →
      Q (if expires then .ok none else .error .dropped) s' out) :
    Triple (timeout expires m) s Q := by
  simp only [Triple, run, Handler.timeout] at h ⊢
  rcases hm : m s with ⟨(e | _) | a, s', out⟩ <;> rw [hm] at h
  · exact herror e s' out h
  · exact hdropped s' out h
  · exact hok a s' out h

/-- A handler whose errors are caught and that has a time limit completes, unless
it is dropped from outside. -/
theorem Triple.best_effort {expires : Bool} (h : Triple m s P) :
    Triple (Handler.timeout expires (Handler.attempt m)) s fun r s' out =>
      (∃ a, r = .ok a) ∨ r = .error .dropped ∧ expires = false ∧ P (.error .dropped) s' out := by
  simp only [Triple, run, Handler.timeout, Handler.attempt] at h ⊢
  rcases hm : m s with ⟨(e | _) | a, s', out⟩ <;> rw [hm] at h
  · exact .inl ⟨_, rfl⟩
  · cases expires
    · exact .inr ⟨rfl, rfl, h⟩
    · exact .inl ⟨_, rfl⟩
  · exact .inl ⟨_, rfl⟩

@[simp] theorem triple_pure (a : α) : Triple (pure a) s Q ↔ Q (.ok a) s [] := Iff.rfl

@[simp] theorem triple_throw (e : ε) : Triple (throw e) s Q ↔ Q (.error (.error e)) s [] := Iff.rfl

@[simp] theorem triple_modify {Q : Except (Stop ε) Unit → σ → List ω → Prop} (g : σ → σ) :
    Triple (modify g) s Q ↔ Q (.ok ()) (g s) [] := Iff.rfl

@[simp] theorem triple_throw_bind (e : ε) :
    Triple (throw e >>= f) s R ↔ R (.error (.error e)) s [] := Iff.rfl

@[simp] theorem triple_get_bind (f : σ → Handler σ ω ε β) :
    Triple (get >>= f) s R ↔ Triple (f s) s R := Iff.rfl

@[simp] theorem triple_modify_bind (g : σ → σ) (f : Unit → Handler σ ω ε β) :
    Triple (modify g >>= f) s R ↔ Triple (f ()) (g s) R := Iff.rfl

@[simp] theorem triple_emit_bind (x : ω) (f : Unit → Handler σ ω ε β) :
    Triple (emit x >>= f) s R ↔ Triple (f ()) s fun r s' out => R r s' (x :: out) := Iff.rfl

end Triple

/-! ## Invariants -/

/-- A condition on what a handler has produced and how it ended, which `bind` puts
together: `emits` says what may be produced at any point. -/
structure Trace (σ ω ε : Type) where
  holds : {α : Type} → Except (Stop ε) α → σ → List ω → Prop
  emits : ω → Prop
  nothing : ∀ {α : Type} (r : Except (Stop ε) α) (s : σ), holds r s []
  emitted : ∀ {x : ω} (s : σ), emits x → holds (.ok ()) s [x]
  after : ∀ {α β : Type} {a : α} {r : Except (Stop ε) β} {s s' : σ} {out out' : List ω},
    holds (.ok a) s out → holds r s' out' → holds r s' (out ++ out')
  stopped : ∀ {α β : Type} {e : Stop ε} {s : σ} {out : List ω},
    holds (.error e : Except (Stop ε) α) s out → holds (.error e : Except (Stop ε) β) s out

namespace Trace

def all (O : ω → Prop) : Trace σ ω ε where
  holds _ _ out := ∀ x ∈ out, O x
  emits := O
  nothing _ _ _ hx := nomatch hx
  emitted _ hx := List.forall_mem_singleton.mpr hx
  after h h' := List.forall_mem_append.mpr ⟨h, h'⟩
  stopped h := h

theorem of_emits {T : Trace σ ω ε} {out : List ω} (h : ∀ x ∈ out, T.emits x)
    (r : Except (Stop ε) α) (s : σ) : T.holds r s out := by
  induction out with
  | nil => exact T.nothing r s
  | cons x out ih =>
    obtain ⟨hx, hout⟩ := List.forall_mem_cons.mp h
    exact T.after (T.emitted s hx) (ih hout)

/-- What `T'` says of a handler whose errors are caught comes to `T`. -/
structure Catches (T T' : Trace σ ω ε) : Prop where
  returned : ∀ {α : Type} {a : α} {s out}, T'.holds (.ok a) s out → T.holds (.ok ()) s out
  caught : ∀ {α : Type} {e s out},
    T'.holds (.error (.error e) : Except (Stop ε) α) s out → T.holds (.ok ()) s out
  dropped : ∀ {α β : Type} {s out}, T'.holds (.error .dropped : Except (Stop ε) α) s out →
    T.holds (.error .dropped : Except (Stop ε) β) s out

end Trace

/-- However the run from `s` ends, `P` holds of the state it ends in and `T` of
all that it has produced. -/
def Keeps (P : σ → Prop) (T : Trace σ ω ε) (s : σ) (m : Handler σ ω ε α) : Prop :=
  Triple m s fun r s' out => P s' ∧ T.holds r s' out

namespace Keeps

variable {P : σ → Prop} {T : Trace σ ω ε} {s : σ} {m : Handler σ ω ε α}
  {f : α → Handler σ ω ε β}

theorem pure (a : α) (h : P s) : Keeps P T s (pure a : Handler σ ω ε α) := ⟨h, T.nothing _ _⟩

theorem throw (e : ε) (h : P s) : Keeps P T s (throw e : Handler σ ω ε α) := ⟨h, T.nothing _ _⟩

theorem drop (h : P s) : Keeps P T s (drop : Handler σ ω ε α) := ⟨h, T.nothing _ _⟩

theorem modify {g : σ → σ} (h : P (g s)) : Keeps P T s (modify g : Handler σ ω ε Unit) :=
  ⟨h, T.nothing _ _⟩

theorem emit {x : ω} (hx : T.emits x) (h : P s) : Keeps P T s (emit x : Handler σ ω ε Unit) :=
  ⟨h, T.emitted _ hx⟩

theorem get_bind {f : σ → Handler σ ω ε β} (h : Keeps P T s (f s)) :
    Keeps P T s (get >>= f) := h

theorem modify_bind {g : σ → σ} {f : Unit → Handler σ ω ε β} (h : Keeps P T (g s) (f ())) :
    Keeps P T s (Handler.modify g >>= f) := h

theorem emit_bind {x : ω} {f : Unit → Handler σ ω ε β} (hx : T.emits x)
    (h : Keeps P T s (f ())) : Keeps P T s (Handler.emit x >>= f) :=
  ⟨h.1, T.after (T.emitted s hx) h.2⟩

theorem mono {P' : σ → Prop} (hm : Keeps P T s m) (hP : ∀ s', P s' → P' s') : Keeps P' T s m :=
  ⟨hP _ hm.1, hm.2⟩

theorem after {γ : Type} {c : γ} {t : σ} {out : List ω} (hm : Keeps P T s m)
    (hout : T.holds (.ok c) t out) :
    Triple m s fun r s' out' => P s' ∧ T.holds r s' (out ++ out') :=
  ⟨hm.1, T.after hout hm.2⟩

theorem seq {P' : σ → Prop} (hm : Keeps P T s m) (hP : ∀ s', P s' → P' s')
    (hf : ∀ a s', P s' → Keeps P' T s' (f a)) : Keeps P' T s (m >>= f) :=
  Triple.bind hm (fun a s' _ h => (hf a s' h.1).after h.2)
    fun _ s' _ h => ⟨hP s' h.1, T.stopped h.2⟩

theorem bind (hm : Keeps P T s m) (hf : ∀ a s', P s' → Keeps P T s' (f a)) :
    Keeps P T s (m >>= f) :=
  hm.seq (fun _ h => h) hf

/-! A handler that produces only what may come at any point may end in any way. -/

theorem attempt (hm : Keeps P (.all T.emits) s m) : Keeps P T s (attempt m) :=
  Triple.attempt hm (fun _ _ _ h => ⟨h.1, Trace.of_emits h.2 _ _⟩)
    (fun _ _ _ h => ⟨h.1, Trace.of_emits h.2 _ _⟩) fun _ _ h => ⟨h.1, Trace.of_emits h.2 _ _⟩

theorem timeout (expires : Bool) (hm : Keeps P (.all T.emits) s m) :
    Keeps P T s (timeout expires m) :=
  Triple.timeout hm (fun _ _ _ h => ⟨h.1, Trace.of_emits h.2 _ _⟩)
    (fun _ _ _ h => ⟨h.1, Trace.of_emits h.2 _ _⟩) fun _ _ h => ⟨h.1, Trace.of_emits h.2 _ _⟩

theorem rethrow {f : Except ε α → Handler σ ω ε β} (hm : Keeps P T s m)
    (hok : ∀ a s', P s' → Keeps P T s' (f (.ok a)))
    (herror : ∀ e, f (.error e) = Handler.throw e) :
    Keeps P T s (Handler.attempt m >>= f) := by
  refine Triple.attempt_bind hm (fun a s' out h => (hok a s' h.1).after h.2)
    (fun e s' out h => ?_) fun s' out h => ⟨h.1, T.stopped h.2⟩
  rw [herror e, triple_throw, List.append_nil]
  exact ⟨h.1, T.stopped h.2⟩

end Keeps

def Does (T : Trace σ ω ε) (s s' : σ) (m : Handler σ ω ε α) : Prop :=
  Triple m s fun r t out => (∃ a, r = .ok a) ∧ t = s' ∧ T.holds r t out

/-- The handler completes, and takes the state from `s` to `s'`, or it stops and
leaves the state as it was. -/
structure Changed (T : Trace σ ω ε) (s s' : σ) (r : Except (Stop ε) α) (t : σ) (out : List ω) :
    Prop where
  completed : ∀ a, r = .ok a → t = s'
  stopped : ∀ e, r = .error e → t = s
  outputs : T.holds r t out

def Becomes (T : Trace σ ω ε) (s s' : σ) (m : Handler σ ω ε α) : Prop :=
  Triple m s (Changed T s s')

section Becomes

variable {T : Trace σ ω ε} {s s' s'' : σ} {m : Handler σ ω ε α} {f : α → Handler σ ω ε β}

theorem Does.bind (hm : Does T s s' m) (hf : ∀ a, Does T s' s'' (f a)) :
    Does T s s'' (m >>= f) := by
  refine Triple.bind hm (fun a t out h => ?_) fun e t out h => ?_
  · obtain ⟨-, rfl, hout⟩ := h
    exact Triple.weaken (hf a) fun r t' out' h' => ⟨h'.1, h'.2.1, T.after hout h'.2.2⟩
  · obtain ⟨a, ha⟩ := h.1
    cases ha

theorem Keeps.does_bind {P : σ → Prop} (hm : Does T s s' m) (hf : ∀ a, Keeps P T s' (f a)) :
    Keeps P T s (m >>= f) := by
  refine Triple.bind hm (fun a t out h => ?_) fun e t out h => ?_
  · obtain ⟨-, rfl, hout⟩ := h
    exact (hf a).after hout
  · obtain ⟨a, ha⟩ := h.1
    cases ha

theorem Keeps.becomes (hm : Keeps (· = s) T s m) : Becomes T s s m :=
  Triple.weaken hm fun _ _ _ h => ⟨fun _ _ => h.1, fun _ _ => h.1, h.2⟩

theorem Becomes.does_bind (hm : Becomes T s s' m) (hf : ∀ a, Does T s' s'' (f a)) :
    Becomes T s s'' (m >>= f) := by
  refine Triple.bind hm (fun a t out h => ?_) fun e t out h => ?_
  · obtain rfl := h.completed a rfl
    refine Triple.weaken (hf a) fun r t' out' h' => ⟨fun _ _ => h'.2.1, fun e he => ?_, ?_⟩
    · obtain ⟨b, hb⟩ := h'.1
      exact nomatch hb.symm.trans he
    · exact T.after h.outputs h'.2.2
  · refine ⟨fun b hb => ?_, fun _ _ => h.stopped e rfl, T.stopped h.outputs⟩
    cases hb

theorem Keeps.becomes_bind {P : σ → Prop} (hm : Becomes T s s' m) (hs : P s)
    (hf : ∀ a, Keeps P T s' (f a)) : Keeps P T s (m >>= f) := by
  refine Triple.bind hm (fun a t out h => ?_) fun e t out h => ?_
  · obtain rfl := h.completed a rfl
    exact (hf a).after h.outputs
  · obtain rfl := h.stopped e rfl
    exact ⟨hs, T.stopped h.outputs⟩

theorem Keeps.inert_bind {P : σ → Prop} (hm : Keeps (· = s) T s m) (hs : P s)
    (hf : ∀ a, Keeps P T s (f a)) : Keeps P T s (m >>= f) :=
  Keeps.becomes_bind hm.becomes hs hf

end Becomes

/-! ## Completed runs -/

/-- If the run from `s` completes, `P` holds of its value and the state. -/
def Yields (P : α → σ → Prop) (s : σ) (m : Handler σ ω ε α) : Prop :=
  Triple m s fun r s' _ => ∀ a, r = .ok a → P a s'

namespace Yields

variable {P : α → σ → Prop} {Q : β → σ → Prop} {s : σ} {m : Handler σ ω ε α}
  {f : α → Handler σ ω ε β}

theorem pure {a : α} (h : P a s) : Yields P s (pure a : Handler σ ω ε α) := by
  intro b hb
  cases hb
  exact h

theorem throw (e : ε) : Yields P s (throw e : Handler σ ω ε α) := fun _ he => nomatch he

theorem drop : Yields P s (drop : Handler σ ω ε α) := fun _ he => nomatch he

theorem modify {P : Unit → σ → Prop} {g : σ → σ} (h : P () (g s)) :
    Yields P s (modify g : Handler σ ω ε Unit) := fun _ _ => h

theorem emit {P : Unit → σ → Prop} {x : ω} (h : P () s) :
    Yields P s (emit x : Handler σ ω ε Unit) := fun _ _ => h

theorem get_bind {f : σ → Handler σ ω ε β} (h : Yields Q s (f s)) : Yields Q s (get >>= f) := h

theorem modify_bind {g : σ → σ} {f : Unit → Handler σ ω ε β} (h : Yields Q (g s) (f ())) :
    Yields Q s (Handler.modify g >>= f) := h

theorem emit_bind {x : ω} {f : Unit → Handler σ ω ε β} (h : Yields Q s (f ())) :
    Yields Q s (Handler.emit x >>= f) := h

theorem bind (hm : Yields P s m) (hf : ∀ a s', P a s' → Yields Q s' (f a)) :
    Yields Q s (m >>= f) :=
  Triple.bind hm (fun a s' _ h => hf a s' (h a rfl)) fun _ _ _ _ _ he => nomatch he

theorem mono {P' : α → σ → Prop} (hm : Yields P s m) (hP : ∀ a s', P a s' → P' a s') :
    Yields P' s m :=
  Triple.weaken hm fun _ s' _ h a ha => hP a s' (h a ha)

theorem same_bind (hm : Yields (fun _ s' => s' = s) s m) (hf : ∀ a, Yields Q s (f a)) :
    Yields Q s (m >>= f) := by
  refine hm.bind fun a s' h => ?_
  subst h
  exact hf a

theorem after (hf : ∀ a s', Yields Q s' (f a)) : Yields Q s (m >>= f) :=
  bind (P := fun _ _ => True) (fun _ _ => trivial) fun a s' _ => hf a s'

end Yields

end Handler

end Slt.Lib
