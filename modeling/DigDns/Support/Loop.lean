import Mathlib.Data.Nat.Init

/-!
# Loops

A loop is given by its body, which goes on with a new state or leaves with a
value.  `Loop.run` makes a bounded number of rounds; a loop whose body lowers a
measure in every round leaves within that measure, and what it leaves with is
what any function computes that agrees with the body.
-/

namespace Loop

variable {S α : Type}

/-- At most `n` rounds of a loop. -/
def run (body : S → S ⊕ α) : Nat → S → Option α
  | 0, _ => none
  | n + 1, s =>
      match body s with
      | .inl s' => run body n s'
      | .inr a => some a

/-- In every round the loop leaves with the value of `f`, or goes on to a state of
the same value and a smaller measure. -/
def Computes (body : S → S ⊕ α) (μ : S → Nat) (f : S → α) : Prop :=
  ∀ s, body s = .inr (f s) ∨ ∃ s', body s = .inl s' ∧ μ s' < μ s ∧ f s' = f s

/-- Such a loop leaves with that value. -/
theorem Computes.run_eq {body : S → S ⊕ α} {μ : S → Nat} {f : S → α} (h : Computes body μ f)
    {n : Nat} {s : S} (hn : μ s < n) : run body n s = some (f s) := by
  induction n generalizing s with
  | zero => exact absurd hn (Nat.not_lt_zero _)
  | succ n ih =>
      rw [run]
      rcases h s with hleave | ⟨s', hnext, hlt, hvalue⟩
      · rw [hleave]
      · rw [hnext]
        dsimp only
        rw [ih (Nat.lt_of_lt_of_le hlt (Nat.le_of_lt_succ hn)), hvalue]

end Loop
