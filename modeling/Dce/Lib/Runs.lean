import Mathlib.Tactic.Common

/-!
# Runs of a transition system

States reached by steps that all meet a condition, and the induction rule for
invariants over them.
-/

namespace Dce

variable {σ ι : Type}

/-- Every step of a run is admitted in the state before it. -/
def AdmitsRun (step : σ → ι → σ) (admits : σ → ι → Prop) : σ → List ι → Prop
  | _, [] => True
  | state, label :: labels => admits state label ∧ AdmitsRun step admits (step state label) labels

instance AdmitsRun.decidable {step : σ → ι → σ} {admits : σ → ι → Prop}
    [∀ state label, Decidable (admits state label)] :
    ∀ (state : σ) (labels : List ι), Decidable (AdmitsRun step admits state labels)
  | _, [] => isTrue trivial
  | state, label :: labels =>
      have : Decidable (AdmitsRun step admits (step state label) labels) :=
        AdmitsRun.decidable _ labels
      inferInstanceAs (Decidable (admits state label ∧ AdmitsRun step admits _ labels))

theorem AdmitsRun.mono {step : σ → ι → σ} {admits admits' : σ → ι → Prop}
    (weaker : ∀ state label, admits state label → admits' state label) {labels : List ι}
    {state : σ} (admitted : AdmitsRun step admits state labels) :
    AdmitsRun step admits' state labels := by
  induction labels generalizing state with
  | nil => trivial
  | cons label labels ih => exact ⟨weaker _ _ admitted.1, ih admitted.2⟩

/-- A relation to an abstract system that every admitted step preserves is preserved by runs. -/
theorem AdmitsRun.simulation {τ : Type} {step : σ → ι → σ} {admits : σ → ι → Prop}
    {abstractStep : τ → ι → τ} {related : σ → τ → Prop}
    (preserved : ∀ state abstract label, related state abstract → admits state label →
      related (step state label) (abstractStep abstract label))
    {labels : List ι} {state : σ} {abstract : τ} (admitted : AdmitsRun step admits state labels)
    (start : related state abstract) :
    related (labels.foldl step state) (labels.foldl abstractStep abstract) := by
  induction labels generalizing state abstract with
  | nil => exact start
  | cons label labels ih => exact ih admitted.2 (preserved _ _ _ start admitted.1)

/-- The states reached from `init` by steps whose label is admitted in the state before it. -/
inductive Reachable (step : σ → ι → σ) (admits : σ → ι → Prop) (init : σ → Prop) :
    σ → Prop where
  | start {state : σ} (initial : init state) : Reachable step admits init state
  | step {state : σ} {label : ι} (reached : Reachable step admits init state)
      (admitted : admits state label) : Reachable step admits init (step state label)

namespace Reachable

variable {step : σ → ι → σ} {admits : σ → ι → Prop} {init : σ → Prop}

/-- A property of the initial states that every admitted step preserves holds of every
reachable state. -/
theorem invariant {property : σ → Prop} (base : ∀ state, init state → property state)
    (preserved : ∀ state label, property state → admits state label →
      property (step state label)) {state : σ} (reached : Reachable step admits init state) :
    property state := by
  induction reached with
  | start initial => exact base _ initial
  | step _ admitted ih => exact preserved _ _ ih admitted

/-- The state after a run is reachable. -/
theorem run {state : σ} (reached : Reachable step admits init state) (labels : List ι)
    (admitted : AdmitsRun step admits state labels) :
    Reachable step admits init (labels.foldl step state) := by
  induction labels generalizing state with
  | nil => exact reached
  | cons label labels ih => exact ih (.step reached admitted.1) admitted.2

end Reachable

end Dce
