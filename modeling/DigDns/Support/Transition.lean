import Mathlib.Logic.Relation

/-!
# Transition systems

What holds of every state that a system can reach.  A system is a relation
between a state and the next one; `Guarded` leaves only the steps that satisfy a
condition.
-/

namespace Transition

variable {S : Type} {step : S → S → Prop} {Inv : S → Prop} {s s' : S}

/-- The states that a run can reach. -/
abbrev Reaches (step : S → S → Prop) : S → S → Prop := Relation.ReflTransGen step

/-- A property that every step keeps holds in every state of a run. -/
theorem Reaches.invariant (h : Reaches step s s') (hs : Inv s)
    (hstep : ∀ ⦃s₁ s₂ : S⦄, step s₁ s₂ → Inv s₁ → Inv s₂) : Inv s' := by
  induction h with
  | refl => exact hs
  | tail _ hlast ih => exact hstep hlast ih

end Transition
