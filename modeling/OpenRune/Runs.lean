import Mathlib

/-!
# Runs of a step function

A run starts in a state and takes a list of steps. When each step that starts in
a good state ends in one exactly if it meets a condition, then all states of a
run are good exactly if all its steps meet the condition.
-/
namespace OpenRune.Runs

section
variable {σ τ : Type} (step : σ → τ → σ)

/-- Every state of the run, the first and the last among them. -/
def Always (good : σ → Prop) (start : σ) (steps : List τ) : Prop :=
  ∀ before, before <+: steps → good (before.foldl step start)

/-- Every step of the run, each in the state where it is taken. -/
def Throughout (meets : σ → τ → Prop) (start : σ) (steps : List τ) : Prop :=
  ∀ before next, before ++ [next] <+: steps → meets (before.foldl step start) next

variable {step} {good : σ → Prop} {meets : σ → τ → Prop} {start : σ} {steps : List τ}

theorem always_iff (exact : ∀ s next, good s → (good (step s next) ↔ meets s next)) (begins : good start) :
    Always step good start steps ↔ Throughout step meets start steps := by
  constructor
  · intro always before next taken
    have here := always before ((List.prefix_append before [next]).trans taken)
    have after := always _ taken
    rw [List.foldl_append] at after
    exact (exact _ next here).mp after
  · intro throughout before
    induction before using List.reverseRecOn with
    | nil => exact fun _ => begins
    | append_singleton before next ih =>
      intro taken
      have here := ih ((List.prefix_append before [next]).trans taken)
      rw [List.foldl_append]
      exact (exact _ next here).mpr (throughout before next taken)

end
end OpenRune.Runs
