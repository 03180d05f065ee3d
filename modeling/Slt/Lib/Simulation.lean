import Slt.Lib.Handler

/-!
# Handlers against an abstract system

An abstraction says how the state of a handler looks to an abstract system and
which outputs are actions there. `Shows P s m` says what the abstract system
sees of the run of `m` from `s`: the state it ends in and the actions, however
the run ends. A part of a handler of which it sees nothing is hidden, and can
stand before or after any other.
-/

namespace Slt.Lib.Handler

variable {σ ω ε α β V A : Type}

structure Abstraction (σ ω V A : Type) where
  /-- What the states have to keep for the rest to make sense. -/
  inv : σ → Prop
  view : σ → V
  action : ω → Option A

namespace Abstraction

def actions (φ : Abstraction σ ω V A) (out : List ω) : List A := out.filterMap φ.action

def Same (v : V) (v' : V) (acts : List A) : Prop := v' = v ∧ acts = []

/-- However the run from `s` ends, the invariant holds, and `P` of what the
abstract system sees. -/
def Shows (φ : Abstraction σ ω V A) (P : V → List A → Prop) (s : σ) (m : Handler σ ω ε α) : Prop :=
  Triple m s fun _ s' out => φ.inv s' ∧ P (φ.view s') (φ.actions out)

def Hides (φ : Abstraction σ ω V A) (s : σ) (m : Handler σ ω ε α) : Prop :=
  φ.Shows (Same (φ.view s)) s m

def Takes (φ : Abstraction σ ω V A) (s s' : σ) (acts : List A) (m : Handler σ ω ε α) : Prop :=
  Triple m s fun r t out => (∃ a, r = .ok a) ∧ t = s' ∧ φ.actions out = acts

/-- The run from `s` has a value. -/
def Completes (s : σ) (m : Handler σ ω ε α) : Prop := Triple m s fun r _ _ => ∃ a, r = .ok a

variable {φ : Abstraction σ ω V A} {P Q : V → List A → Prop} {s s' s'' : σ}
  {m : Handler σ ω ε α} {f : α → Handler σ ω ε β}

theorem actions_append (out out' : List ω) :
    φ.actions (out ++ out') = φ.actions out ++ φ.actions out' :=
  List.filterMap_append

/-! ## What is shown -/

namespace Shows

theorem pure {a : α} (h : φ.inv s) (hp : P (φ.view s) []) :
    φ.Shows P s (pure a : Handler σ ω ε α) := ⟨h, hp⟩

theorem throw {e : ε} (h : φ.inv s) (hp : P (φ.view s) []) :
    φ.Shows P s (throw e : Handler σ ω ε α) := ⟨h, hp⟩

theorem drop (h : φ.inv s) (hp : P (φ.view s) []) : φ.Shows P s (drop : Handler σ ω ε α) := ⟨h, hp⟩

theorem modify {g : σ → σ} (h : φ.inv (g s)) (hp : P (φ.view (g s)) []) :
    φ.Shows P s (modify g : Handler σ ω ε Unit) := ⟨h, hp⟩

theorem get_bind {f : σ → Handler σ ω ε β} (h : φ.Shows P s (f s)) : φ.Shows P s (get >>= f) := h

theorem modify_bind {g : σ → σ} {f : Unit → Handler σ ω ε β} (h : φ.Shows P (g s) (f ())) :
    φ.Shows P s (Handler.modify g >>= f) := h

theorem mono (hm : φ.Shows P s m) (h : ∀ v acts, P v acts → Q v acts) : φ.Shows Q s m :=
  ⟨hm.1, h _ _ hm.2⟩

theorem bind (hm : φ.Shows Q s m) (hstop : ∀ v acts, Q v acts → P v acts)
    (hf : ∀ a s' acts, φ.inv s' → Q (φ.view s') acts →
      φ.Shows (fun v acts' => P v (acts ++ acts')) s' (f a)) : φ.Shows P s (m >>= f) := by
  refine Triple.bind hm (fun a s' out h => ?_) fun e s' out h => ⟨h.1, hstop _ _ h.2⟩
  refine Triple.weaken (hf a s' (φ.actions out) h.1 h.2) fun r s'' out' h' => ⟨h'.1, ?_⟩
  rw [actions_append]
  exact h'.2

theorem attempt (hm : φ.Shows P s m) : φ.Shows P s (attempt m) :=
  Triple.attempt hm (fun _ _ _ h => h) (fun _ _ _ h => h) fun _ _ h => h

theorem timeout (expires : Bool) (hm : φ.Shows P s m) : φ.Shows P s (timeout expires m) :=
  Triple.timeout hm (fun _ _ _ h => h) (fun _ _ _ h => h) fun _ _ h => h

theorem hides_bind (hm : φ.Hides s m) (hstop : P (φ.view s) [])
    (hf : ∀ a s', φ.inv s' → φ.view s' = φ.view s → φ.Shows P s' (f a)) :
    φ.Shows P s (m >>= f) := by
  refine bind hm ?_ fun a s' acts hs' hsame => ?_
  · rintro v acts ⟨rfl, rfl⟩
    exact hstop
  · obtain ⟨hview, rfl⟩ := hsame
    exact hf a s' hs' hview

theorem bind_hides (hm : φ.Shows P s m) (hf : ∀ a s', φ.inv s' → φ.Hides s' (f a)) :
    φ.Shows P s (m >>= f) := by
  refine bind hm (fun _ _ h => h) fun a s' acts hs' hp => ?_
  refine (hf a s' hs').mono ?_
  rintro v acts' ⟨rfl, rfl⟩
  rw [List.append_nil]
  exact hp

theorem takes_bind {acts : List A} (hm : φ.Takes s s' acts m)
    (hf : ∀ a, φ.Shows (fun v acts' => P v (acts ++ acts')) s' (f a)) :
    φ.Shows P s (m >>= f) := by
  refine Triple.bind hm (fun a t out h => ?_) fun e t out h => ?_
  · obtain ⟨-, rfl, rfl⟩ := h
    refine Triple.weaken (hf a) fun r s'' out' h' => ⟨h'.1, ?_⟩
    rw [actions_append]
    exact h'.2
  · obtain ⟨⟨a, ha⟩, -⟩ := h
    cases ha

theorem attempt_bind {f : Except ε α → Handler σ ω ε β} (hm : φ.Shows Q s m) (hc : Completes s m)
    (hf : ∀ a s' acts, φ.inv s' → Q (φ.view s') acts →
      φ.Shows (fun v acts' => P v (acts ++ acts')) s' (f (.ok a))) :
    φ.Shows P s (Handler.attempt m >>= f) := by
  refine Triple.attempt_bind (Triple.and hm hc) (fun a s' out h => ?_) ?_ ?_
  · refine Triple.weaken (hf a s' (φ.actions out) h.1.1 h.1.2) fun r s'' out' h' => ⟨h'.1, ?_⟩
    rw [actions_append]
    exact h'.2
  · rintro e s' out ⟨-, a, ha⟩
    cases ha
  · rintro s' out ⟨-, a, ha⟩
    cases ha

end Shows

/-! ## What is hidden -/

namespace Hides

theorem pure {a : α} (h : φ.inv s) : φ.Hides s (pure a : Handler σ ω ε α) := ⟨h, rfl, rfl⟩

theorem throw {e : ε} (h : φ.inv s) : φ.Hides s (throw e : Handler σ ω ε α) := ⟨h, rfl, rfl⟩

theorem drop (h : φ.inv s) : φ.Hides s (drop : Handler σ ω ε α) := ⟨h, rfl, rfl⟩

theorem modify {g : σ → σ} (h : φ.inv (g s)) (hv : φ.view (g s) = φ.view s) :
    φ.Hides s (modify g : Handler σ ω ε Unit) := ⟨h, hv, rfl⟩

theorem emit {x : ω} (h : φ.inv s) (hx : φ.action x = none) :
    φ.Hides s (emit x : Handler σ ω ε Unit) :=
  ⟨h, rfl, List.filterMap_cons_none hx⟩

theorem get_bind {f : σ → Handler σ ω ε β} (h : φ.Hides s (f s)) : φ.Hides s (get >>= f) := h

theorem attempt (hm : φ.Hides s m) : φ.Hides s (attempt m) := Shows.attempt hm

theorem timeout (expires : Bool) (hm : φ.Hides s m) : φ.Hides s (timeout expires m) :=
  Shows.timeout expires hm

theorem bind (hm : φ.Hides s m) (hf : ∀ a s', φ.inv s' → φ.Hides s' (f a)) :
    φ.Hides s (m >>= f) :=
  Shows.bind_hides hm hf

theorem triple (hm : φ.Hides s m) :
    Triple m s fun _ s' out => φ.inv s' ∧ φ.view s' = φ.view s ∧ φ.actions out = [] :=
  hm

theorem shows (hm : φ.Hides s m) (hp : P (φ.view s) []) : φ.Shows P s m := by
  refine hm.mono ?_
  rintro v acts ⟨rfl, rfl⟩
  exact hp

end Hides

/-! ## What completes -/

namespace Takes

theorem pure {a : α} : φ.Takes s s [] (pure a : Handler σ ω ε α) := ⟨⟨_, rfl⟩, rfl, rfl⟩

theorem modify {g : σ → σ} : φ.Takes s (g s) [] (modify g : Handler σ ω ε Unit) :=
  ⟨⟨_, rfl⟩, rfl, rfl⟩

theorem emit {x : ω} : φ.Takes s s (φ.action x).toList (emit x : Handler σ ω ε Unit) := by
  refine ⟨⟨_, rfl⟩, rfl, ?_⟩
  cases h : φ.action x with
  | none => exact List.filterMap_cons_none h
  | some a => exact List.filterMap_cons_some h

theorem get_bind {f : σ → Handler σ ω ε β} {acts : List A} (h : φ.Takes s s' acts (f s)) :
    φ.Takes s s' acts (get >>= f) := h

theorem bind {acts acts' : List A} (hm : φ.Takes s s' acts m)
    (hf : ∀ a, φ.Takes s' s'' acts' (f a)) : φ.Takes s s'' (acts ++ acts') (m >>= f) := by
  refine Triple.bind hm (fun a t out h => ?_) fun e t out h => ?_
  · obtain ⟨-, rfl, rfl⟩ := h
    refine Triple.weaken (hf a) fun r t' out' h' => ⟨h'.1, h'.2.1, ?_⟩
    rw [actions_append, h'.2.2]
  · obtain ⟨⟨a, ha⟩, -⟩ := h
    cases ha

theorem shows {acts : List A} (hm : φ.Takes s s' acts m) (h : φ.inv s') (hp : P (φ.view s') acts) :
    φ.Shows P s m := by
  refine Triple.weaken hm fun r t out ht => ?_
  obtain ⟨-, rfl, rfl⟩ := ht
  exact ⟨h, hp⟩

end Takes

namespace Completes

theorem pure {a : α} : Completes s (pure a : Handler σ ω ε α) := ⟨a, rfl⟩

theorem get_bind {f : σ → Handler σ ω ε β} (h : Completes s (f s)) : Completes s (get >>= f) := h

theorem modify_bind {g : σ → σ} {f : Unit → Handler σ ω ε β} (h : Completes (g s) (f ())) :
    Completes s (Handler.modify g >>= f) := h

theorem emit_bind {x : ω} {f : Unit → Handler σ ω ε β} (h : Completes s (f ())) :
    Completes s (Handler.emit x >>= f) := h

theorem takes_bind {acts : List A} (hm : φ.Takes s s' acts m) (hf : ∀ a, Completes s' (f a)) :
    Completes s (m >>= f) := by
  refine Triple.bind hm (fun a t out h => ?_) fun e t out h => ?_
  · obtain ⟨-, rfl, -⟩ := h
    exact hf a
  · obtain ⟨⟨a, ha⟩, -⟩ := h
    cases ha

end Completes

end Abstraction

end Slt.Lib.Handler
