import Mathlib

set_option autoImplicit false

/-! # Runs of a system that may refuse an input

A system takes inputs one after another; `step` answers the next state or refuses. A run is a
sequence of inputs that are all taken, each of them allowed in the state it meets. What one step
keeps, a run keeps; and a run on given inputs can be executed. -/

namespace Transition

variable {σ ι ε : Type}

/-- From one state to another by inputs that are each allowed where they are met, and taken. -/
inductive Run (step : ι → σ → Except ε σ) (allowed : σ → ι → Prop) : σ → List ι → σ → Prop
  | nil (s : σ) : Run step allowed s [] s
  | cons {s s' s'' : σ} {i : ι} {rest : List ι} (hallowed : allowed s i)
      (hstep : step i s = .ok s') (hrest : Run step allowed s' rest s'') :
      Run step allowed s (i :: rest) s''

section

variable {step : ι → σ → Except ε σ} {allowed : σ → ι → Prop} {s s' s'' : σ}

/-- What every step keeps, a run keeps. -/
theorem Run.invariant {I : σ → Prop} {inputs : List ι}
    (hstep : ∀ (s : σ) (i : ι) (s' : σ), I s → allowed s i → step i s = .ok s' → I s')
    (hrun : Run step allowed s inputs s') (hs : I s) : I s' := by
  induction hrun with
  | nil s => exact hs
  | cons hallowed hone _ ih => exact ih (hstep _ _ _ hs hallowed hone)

/-- A run of a system that allows less is a run of one that allows more. -/
theorem Run.mono {allowed' : σ → ι → Prop} {inputs : List ι}
    (hallowed : ∀ (s : σ) (i : ι), allowed s i → allowed' s i)
    (hrun : Run step allowed s inputs s') : Run step allowed' s inputs s' := by
  induction hrun with
  | nil s => exact .nil s
  | cons hone hstep _ ih => exact .cons (hallowed _ _ hone) hstep ih

end

/-- Take inputs one after another, as long as each is allowed and taken. -/
def execute (step : ι → σ → Except ε σ) (allowed : σ → ι → Bool) : List ι → σ → Option σ
  | [], s => some s
  | i :: rest, s =>
    if allowed s i then
      match step i s with
      | .ok s' => execute step allowed rest s'
      | .error _ => none
    else none

theorem run_of_execute {step : ι → σ → Except ε σ} {allowed : σ → ι → Bool} {s s' : σ}
    {inputs : List ι} (h : execute step allowed inputs s = some s') :
    Run step (fun s i => allowed s i = true) s inputs s' := by
  induction inputs generalizing s with
  | nil =>
    obtain rfl : s = s' := Option.some.inj h
    exact .nil s
  | cons i rest ih =>
    rw [execute] at h
    split at h
    · next hallowed =>
      cases hstep : step i s with
      | error e =>
        rw [hstep] at h
        contradiction
      | ok next =>
        rw [hstep] at h
        exact .cons hallowed hstep (ih h)
    · contradiction

/-! ## Systems that refuse nothing -/

/-- Inputs that are each allowed where they are met. -/
def AllAllowed (next : σ → ι → σ) (allowed : σ → ι → Prop) : σ → List ι → Prop
  | _, [] => True
  | s, i :: rest => allowed s i ∧ AllAllowed next allowed (next s i) rest

instance (next : σ → ι → σ) (allowed : σ → ι → Prop) [∀ s i, Decidable (allowed s i)] :
    (s : σ) → (inputs : List ι) → Decidable (AllAllowed next allowed s inputs)
  | _, [] => inferInstanceAs (Decidable True)
  | s, i :: rest =>
    have := instDecidableAllAllowed next allowed (next s i) rest
    inferInstanceAs (Decidable (allowed s i ∧ AllAllowed next allowed (next s i) rest))

theorem run_of_allAllowed {next : σ → ι → σ} {allowed : σ → ι → Prop} {s : σ} {inputs : List ι}
    (h : AllAllowed next allowed s inputs) :
    Run (fun i s => (.ok (next s i) : Except ε σ)) allowed s inputs (inputs.foldl next s) := by
  induction inputs generalizing s with
  | nil => exact .nil s
  | cons i rest ih => exact .cons h.1 rfl (ih h.2)

end Transition
