import Mathlib.Data.List.Basic

/-! Finite runs of a partial step function under labels. A run records its labels
and may be restricted by a condition on each step, taken in the state before it.
The rules below turn a fact about one step into a fact about a whole run. -/

namespace Audr.Transition

variable {σ α : Type*}

/-- A run from `start`, every step of which meets `allowed`. -/
inductive Run (step : σ → α → Option σ) (allowed : σ → α → Prop) (start : σ) : List α → σ → Prop where
  | refl : Run step allowed start [] start
  | tail {labels : List α} {s t : σ} {label : α} (before : Run step allowed start labels s)
      (permitted : allowed s label) (taken : step s label = some t) :
      Run step allowed start (labels ++ [label]) t

/-- The condition that permits every step. -/
def anyStep : σ → α → Prop := fun _ _ => True

variable {step : σ → α → Option σ} {allowed : σ → α → Prop} {start s t : σ} {labels more : List α}

theorem Run.single {label : α} (permitted : allowed start label) (taken : step start label = some t) :
    Run step allowed start [label] t :=
  show Run step allowed start ([] ++ [label]) t from Run.tail Run.refl permitted taken

theorem Run.trans (first : Run step allowed start labels s) (second : Run step allowed s more t) :
    Run step allowed start (labels ++ more) t := by
  induction second with
  | refl => simpa using first
  | tail _ permitted taken ih =>
    rw [← List.append_assoc]
    exact Run.tail ih permitted taken

/-- A condition may be weakened along a run. -/
theorem Run.weaken {other : σ → α → Prop} (run : Run step allowed start labels s)
    (weaker : ∀ before label, allowed before label → other before label) :
    Run step other start labels s := by
  induction run with
  | refl => exact Run.refl
  | tail _ permitted taken ih => exact Run.tail ih (weaker _ _ permitted) taken

/-- What holds at the start and is kept by every permitted step holds at the end. -/
theorem Run.invariant (run : Run step allowed start labels s) (holds : σ → Prop)
    (initial : holds start)
    (kept : ∀ before label after, holds before → allowed before label →
      step before label = some after → holds after) : holds s := by
  induction run with
  | refl => exact initial
  | tail _ permitted taken ih => exact kept _ _ _ ih permitted taken

/-- Run the step function along a list of labels, as long as each step is permitted. -/
def executeWithin (step : σ → α → Option σ) (allowed : σ → α → Prop)
    [∀ state label, Decidable (allowed state label)] : σ → List α → Option σ
  | state, [] => some state
  | state, label :: rest =>
      if allowed state label then
        (step state label).bind fun next => executeWithin step allowed next rest
      else none

theorem Run.of_executeWithin [∀ state label, Decidable (allowed state label)]
    (done : executeWithin step allowed start labels = some s) : Run step allowed start labels s := by
  induction labels generalizing start with
  | nil =>
    cases done
    exact Run.refl
  | cons label rest ih =>
    simp only [executeWithin] at done
    split_ifs at done with permitted
    obtain ⟨next, taken, later⟩ := Option.bind_eq_some_iff.mp done
    exact Run.trans (Run.single permitted taken) (ih later)

instance : ∀ (state : σ) (label : α), Decidable (anyStep state label) := fun _ _ => instDecidableTrue

/-- Run the step function along a list of labels. -/
def execute (step : σ → α → Option σ) : σ → List α → Option σ := executeWithin step anyStep

theorem Run.of_execute (done : execute step start labels = some s) : Run step anyStep start labels s :=
  Run.of_executeWithin done

end Audr.Transition
