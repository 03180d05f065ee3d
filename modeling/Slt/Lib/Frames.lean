import Slt.Lib.Bytes
import Slt.Lib.Handler

/-!
# Frames on a stream

Frames are written to a stream one after the other. A write that fails or is
dropped leaves a part of its frame, and whatever is written after it is read as
the rest of that frame. So a cut frame has to be the last.

The second half says this of a handler, as a trace that `bind` puts together.
There `writeOf` says which of the outputs are writes to the stream.
-/

namespace Slt.Lib

/-- A frame that was written as a whole, or the first `written` bytes of one. -/
inductive FrameWrite (μ : Type) where
  | whole (message : μ)
  | cut (message : μ) (written : Nat)
  deriving DecidableEq

namespace FrameWrite

variable {μ : Type}

def bytes (encode : μ → Bytes) : FrameWrite μ → Bytes
  | .whole message => encode message
  | .cut message written => (encode message).take written

def stream (encode : μ → Bytes) (ws : List (FrameWrite μ)) : Bytes := ws.flatMap (bytes encode)

def Whole : List (FrameWrite μ) → Prop
  | [] => True
  | .whole _ :: rest => Whole rest
  | .cut _ _ :: _ => False

/-- Nothing is written after a frame that was cut. -/
def Intact : List (FrameWrite μ) → Prop
  | [] => True
  | .whole _ :: rest => Intact rest
  | .cut _ _ :: rest => rest = []

theorem Whole.append {ws ws' : List (FrameWrite μ)} (h : Whole ws) (h' : Whole ws') :
    Whole (ws ++ ws') := by
  induction ws with
  | nil => exact h'
  | cons w ws ih =>
    cases w with
    | whole message => exact ih h
    | cut message written => exact h.elim

theorem Whole.append_intact {ws ws' : List (FrameWrite μ)} (h : Whole ws) (h' : Intact ws') :
    Intact (ws ++ ws') := by
  induction ws with
  | nil => exact h'
  | cons w ws ih =>
    cases w with
    | whole message => exact ih h
    | cut message written => exact h.elim

theorem Whole.intact {ws : List (FrameWrite μ)} (h : Whole ws) : Intact ws := by
  have hnil : Intact (ws ++ []) := h.append_intact trivial
  rwa [List.append_nil] at hnil

/-- The bytes on the stream are whole frames and at most one that is truncated. -/
theorem Intact.bytes {ws : List (FrameWrite μ)} (h : Intact ws) (encode : μ → Bytes) :
    ∃ (frames : List μ) (tail : Bytes), stream encode ws = frames.flatMap encode ++ tail ∧
      (tail = [] ∨ ∃ message, tail <+: encode message) := by
  induction ws with
  | nil => exact ⟨[], [], rfl, .inl rfl⟩
  | cons w ws ih =>
    cases w with
    | whole message =>
      obtain ⟨frames, tail, heq, htail⟩ := ih h
      refine ⟨message :: frames, tail, ?_, htail⟩
      rw [stream, List.flatMap_cons, ← stream, heq, List.flatMap_cons, List.append_assoc]
      rfl
    | cut message written =>
      obtain rfl : ws = [] := h
      refine ⟨[], (encode message).take written, ?_, .inr ⟨message, List.take_prefix _ _⟩⟩
      simp [stream, FrameWrite.bytes]

end FrameWrite

/-! ## Handlers that write frames -/

namespace Handler

open FrameWrite

variable {σ ω ε μ α β : Type}

/-- No frame is written. -/
abbrev Quiet (writeOf : ω → Option (FrameWrite μ)) (s : σ) (m : Handler σ ω ε α) : Prop :=
  Keeps (fun _ => True) (.all (writeOf · = none)) s m

/-- Whole frames were written. When the handler stopped as `B` says, the last
one may be cut. -/
def Wrote (writeOf : ω → Option (FrameWrite μ)) (B : Stop ε → σ → Prop) (r : Except (Stop ε) α)
    (s : σ) (out : List ω) : Prop :=
  Whole (out.filterMap writeOf) ∨ Intact (out.filterMap writeOf) ∧ ∃ e, r = .error e ∧ B e s

/-- The last frame of the handler may be cut, however it ends. -/
def Ends (writeOf : ω → Option (FrameWrite μ)) (s : σ) (m : Handler σ ω ε α) : Prop :=
  Triple m s fun _ _ out => Intact (out.filterMap writeOf)

variable {writeOf : ω → Option (FrameWrite μ)} {B : Stop ε → σ → Prop} {s : σ}
  {m : Handler σ ω ε α} {f : α → Handler σ ω ε β}

theorem Quiet.writes (h : Quiet writeOf s m) :
    Triple m s fun _ _ out => out.filterMap writeOf = [] :=
  Triple.weaken h fun _ _ _ h => List.filterMap_eq_nil_iff.mpr h.2

theorem Quiet.ends (h : Quiet writeOf s m) : Ends writeOf s m :=
  Triple.weaken (Quiet.writes h) fun _ _ _ h => by rw [h]; trivial

namespace Wrote

variable {r : Except (Stop ε) α} {out : List ω}

theorem whole {a : α} (h : Wrote writeOf B (.ok a) s out) : Whole (out.filterMap writeOf) :=
  h.resolve_right fun ⟨_, _, he, _⟩ => nomatch he

theorem intact (h : Wrote writeOf B r s out) : Intact (out.filterMap writeOf) :=
  h.elim Whole.intact And.left

theorem stopped {e : Stop ε} (h : Wrote writeOf B (.error e : Except (Stop ε) α) s out) :
    Wrote writeOf B (.error e : Except (Stop ε) β) s out := by
  refine h.imp_right fun ⟨hintact, e', he, hB⟩ => ⟨hintact, e', ?_, hB⟩
  cases he
  rfl

theorem after {out' : List ω} (hout : Whole (out.filterMap writeOf))
    (h : Wrote writeOf B r s out') : Wrote writeOf B r s (out ++ out') := by
  rw [Wrote, List.filterMap_append]
  exact h.imp hout.append fun ⟨hintact, hstop⟩ => ⟨hout.append_intact hintact, hstop⟩

theorem best_effort {expires : Bool} (h : Triple m s (Wrote writeOf B)) :
    Ends writeOf s (timeout expires (attempt m)) := by
  have hattempt : Ends writeOf s (attempt m) :=
    Triple.attempt h (fun _ _ _ h => h.intact) (fun _ _ _ h => h.intact) fun _ _ h => h.intact
  exact Triple.timeout hattempt (fun _ _ _ h => h) (fun _ _ _ h => h) fun _ _ h => h

end Wrote

/-- Nothing but whole frames is written, up to the one that stops the handler. -/
def Trace.framed (writeOf : ω → Option (FrameWrite μ)) (B : Stop ε → σ → Prop) :
    Trace σ ω ε where
  holds := Wrote writeOf B
  emits x := writeOf x = none
  nothing _ _ := .inl trivial
  emitted _ hx := .inl (by rw [List.filterMap_cons_none hx]; trivial)
  after h h' := h'.after h.whole
  stopped h := h.stopped

/-- Where only a handler that is dropped leaves a frame cut, its errors may be caught. -/
theorem Trace.framed_catches {B' : Stop ε → σ → Prop} (herror : ∀ e s, ¬ B' (.error e) s)
    (hdropped : ∀ s, B' .dropped s → B .dropped s) :
    (framed writeOf B).Catches (framed writeOf B') where
  returned h := .inl h.whole
  caught h := .inl (h.resolve_right fun ⟨_, e, he, hcut⟩ => by
    cases he
    exact herror _ _ hcut)
  dropped h := h.imp_right fun ⟨hintact, e, he, hcut⟩ => by
    cases he
    exact ⟨hintact, _, rfl, hdropped _ hcut⟩

namespace Ends

theorem after (hm : Quiet writeOf s m) (hf : ∀ a s', Ends writeOf s' (f a)) :
    Ends writeOf s (m >>= f) := by
  refine Triple.bind (Quiet.writes hm) (fun a s' out h => ?_) fun _ _ _ h => by rw [h]; trivial
  refine Triple.weaken (hf a s') fun r s'' out' h' => ?_
  rw [List.filterMap_append, h]
  exact h'

theorem bind (hm : Ends writeOf s m) (hf : ∀ a s', Quiet writeOf s' (f a)) :
    Ends writeOf s (m >>= f) := by
  refine Triple.bind hm (fun a s' out h => ?_) fun _ _ _ h => h
  refine Triple.weaken (Quiet.writes (hf a s')) fun r s'' out' h' => ?_
  rw [List.filterMap_append, h', List.append_nil]
  exact h

end Ends

end Handler

end Slt.Lib
