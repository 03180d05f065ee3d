import Mathlib.Data.List.Induction

/-!
# Machines with outputs

A machine takes one input at a time and gives outputs for it; some inputs are only
possible in some states. A run is a list of inputs. What every step keeps, every
run keeps, and an observer sees of a run what it sees of the steps.
-/

namespace Slt.Lib

structure Machine (S I O : Type) where
  step : S → I → S × List O
  Enabled : S → I → Prop

namespace Machine

variable {S I O β : Type} (M : Machine S I O)

def run (s : S) : List I → S × List O
  | [] => (s, [])
  | i :: inputs => (run (M.step s i).1 inputs).map id ((M.step s i).2 ++ ·)

/-- Each input is possible when its turn comes. -/
def Runs (s : S) : List I → Prop
  | [] => True
  | i :: inputs => M.Enabled s i ∧ Runs (M.step s i).1 inputs

def observe (view : I → List O → List β) (s : S) : List I → List β
  | [] => []
  | i :: inputs => view i (M.step s i).2 ++ observe view (M.step s i).1 inputs

instance decidableRuns [∀ s i, Decidable (M.Enabled s i)] :
    ∀ (s : S) (inputs : List I), Decidable (M.Runs s inputs)
  | _, [] => inferInstanceAs (Decidable True)
  | s, i :: inputs =>
    haveI := decidableRuns (M.step s i).1 inputs
    inferInstanceAs (Decidable (_ ∧ _))

variable {M} {s : S} {inputs more : List I}

theorem run_append : ∀ {s : S},
    (M.run s (inputs ++ more)).1 = (M.run (M.run s inputs).1 more).1 := by
  induction inputs with
  | nil => exact rfl
  | cons i inputs ih => exact ih

theorem runs_append : ∀ {s : S},
    M.Runs s (inputs ++ more) ↔ M.Runs s inputs ∧ M.Runs (M.run s inputs).1 more := by
  induction inputs with
  | nil =>
    intro s
    exact (iff_of_eq (true_and _)).symm
  | cons i inputs ih =>
    intro s
    exact (and_congr_right fun _ => ih).trans and_assoc.symm

theorem observe_append (view : I → List O → List β) : ∀ {s : S},
    M.observe view s (inputs ++ more) =
      M.observe view s inputs ++ M.observe view (M.run s inputs).1 more := by
  induction inputs with
  | nil => exact rfl
  | cons i inputs ih =>
    intro s
    simp only [List.cons_append, observe, ih, List.append_assoc]
    rfl

/-- What holds at first and is kept by one more step holds after every run. -/
theorem run_induction {P : List I → S → Prop} (hinit : P [] s)
    (hstep : ∀ inputs i, M.Enabled (M.run s inputs).1 i → P inputs (M.run s inputs).1 →
      P (inputs ++ [i]) (M.step (M.run s inputs).1 i).1)
    (hruns : M.Runs s inputs) : P inputs (M.run s inputs).1 := by
  induction inputs using List.reverseRecOn with
  | nil => exact hinit
  | append_singleton inputs i ih =>
    obtain ⟨hbefore, henabled, -⟩ := runs_append.mp hruns
    rw [run_append]
    exact hstep inputs i henabled (ih hbefore)

/-- Inputs of a kind that keep a property and give only some outputs. -/
theorem run_outputs {P : S → Prop} {kind : I → Prop} {Q : O → Prop}
    (hstep : ∀ s i, kind i → P s → P (M.step s i).1 ∧ ∀ o ∈ (M.step s i).2, Q o) (hinit : P s)
    (hkind : ∀ i ∈ inputs, kind i) : ∀ o ∈ (M.run s inputs).2, Q o := by
  induction inputs generalizing s with
  | nil => exact List.forall_mem_nil _
  | cons i inputs ih =>
    obtain ⟨hkept, hout⟩ := hstep s i (hkind i (List.mem_cons_self ..)) hinit
    have hrest := ih hkept fun j hj => hkind j (List.mem_cons_of_mem _ hj)
    intro o ho
    exact (List.mem_append.mp ho).elim (hout o) (hrest o)

theorem run_monotone {f : S → Nat} (hstep : ∀ s i, f s ≤ f (M.step s i).1) (inputs : List I)
    (s : S) : f s ≤ f (M.run s inputs).1 := by
  induction inputs generalizing s with
  | nil => exact Nat.le_refl _
  | cons i inputs ih => exact Nat.le_trans (hstep s i) (ih (M.step s i).1)

/-- A measure that no step raises and each input of a kind lowers. -/
theorem run_countdown {P : S → Prop} (f : S → Nat) (kind : I → Bool) (inputs : List I)
    (hstep : ∀ s, ∀ i ∈ inputs, P s →
      P (M.step s i).1 ∧ f (M.step s i).1 ≤ f s - (kind i).toNat) (hinit : P s) :
    P (M.run s inputs).1 ∧ f (M.run s inputs).1 ≤ f s - inputs.countP kind := by
  induction inputs generalizing s with
  | nil => exact ⟨hinit, Nat.le_refl _⟩
  | cons i inputs ih =>
    obtain ⟨hkept, hfirst⟩ := hstep s i (List.mem_cons_self ..) hinit
    obtain ⟨hlast, hrest⟩ := ih (fun s j hj => hstep s j (List.mem_cons_of_mem _ hj)) hkept
    refine ⟨hlast, Nat.le_trans hrest ?_⟩
    rw [List.countP_cons]
    cases hkind : kind i <;> simp [hkind] at hfirst ⊢ <;> omega

/-- What every step keeps of the outputs so far and the state, every run keeps. -/
theorem run_history {P : List O → S → Prop}
    (hstep : ∀ outputs s i, P outputs s → P (outputs ++ (M.step s i).2) (M.step s i).1)
    (outputs : List O) (inputs : List I) (hinit : P outputs s) :
    P (outputs ++ (M.run s inputs).2) (M.run s inputs).1 := by
  induction inputs generalizing s outputs with
  | nil => rwa [run, List.append_nil]
  | cons i inputs ih =>
    have hrest := ih _ (hstep outputs s i hinit)
    rwa [List.append_assoc] at hrest

end Machine

end Slt.Lib
