import Mathlib.Data.Set.Basic

/-!
# Fair runs

An infinite run of a labelled transition system, and what must happen along it.  A class
of actions is treated fairly if it is taken, sooner or later, wherever it stays possible.
The rule of this file turns that into termination: a rank that no step raises, and at
every rank that is left one class of actions that stays possible and lowers it.
-/

namespace Fairness

variable {S A T : Type} {step : A → S → S → Prop}

/-- An infinite run, with the action of each step. -/
structure Path (step : A → S → S → Prop) where
  state : Nat → S
  act : Nat → A
  next : ∀ n, step (act n) (state n) (state (n + 1))

/-- Some action of the class is possible. -/
def Enabled (step : A → S → S → Prop) (C : Set A) (s : S) : Prop :=
  ∃ a ∈ C, ∃ s', step a s s'

/-- A class of actions that stays possible is taken. -/
def Path.Fair (path : Path step) (C : Set A) : Prop :=
  ∀ n, (∀ m, n ≤ m → Enabled step C (path.state m)) → ∃ m, n ≤ m ∧ path.act m ∈ C

/-- What every step keeps holds from then on. -/
theorem Path.invariant (path : Path step) {Inv : S → Prop}
    (hstep : ∀ a s s', step a s s' → Inv s → Inv s') {n m : Nat} (hnm : n ≤ m)
    (hn : Inv (path.state n)) : Inv (path.state m) := by
  induction m, hnm using Nat.le_induction with
  | base => exact hn
  | succ m _ ih => exact hstep _ _ _ (path.next m) ih

section Project

variable {S' A' : Type} {step' : A' → S' → S' → Prop} {f : S → S'} {g : A → A'}

/-- A part of the system, from some time on. -/
def Path.project (path : Path step) (n : Nat)
    (hstep : ∀ m, n ≤ m → step' (g (path.act m)) (f (path.state m)) (f (path.state (m + 1)))) :
    Path step' where
  state m := f (path.state (n + m))
  act m := g (path.act (n + m))
  next m := hstep (n + m) (Nat.le_add_right n m)

/-- The part is treated fairly if the whole is: what the part can do, the whole can do. -/
theorem Path.Fair.project {path : Path step} {n : Nat}
    {hstep : ∀ m, n ≤ m → step' (g (path.act m)) (f (path.state m)) (f (path.state (m + 1)))}
    {C : Set A} {C' : Set A'} (hfair : path.Fair C)
    (henabled : ∀ m, n ≤ m → Enabled step' C' (f (path.state m)) →
      Enabled step C (path.state m))
    (hacts : ∀ a ∈ C, g a ∈ C') : (path.project n hstep).Fair C' := by
  intro k hstays
  obtain ⟨m, hm, hact⟩ := hfair (n + k) fun m hm => by
    have hstay := hstays (m - n) (by omega)
    change Enabled step' C' (f (path.state (n + (m - n)))) at hstay
    rw [Nat.add_sub_cancel' (by omega)] at hstay
    exact henabled m (by omega) hstay
  refine ⟨m - n, by omega, ?_⟩
  change g (path.act (n + (m - n))) ∈ C'
  rw [Nat.add_sub_cancel' (by omega)]
  exact hacts _ hact

end Project

/-- Under an invariant no step raises the rank; a step that leaves it as it is leaves the
helpful task as it is; and the helpful task can act, and lowers the rank when it does. -/
structure Ranks (step : A → S → S → Prop) (Inv : S → Prop) (rank : S → Nat) (helpful : S → T)
    (acts : T → Set A) : Prop where
  keeps : ∀ a s s', step a s s' → Inv s → Inv s'
  progress : ∀ a s s', step a s s' → Inv s →
    rank s' < rank s ∨ rank s' = rank s ∧ helpful s' = helpful s
  enabled : ∀ s, Inv s → rank s ≠ 0 → Enabled step (acts (helpful s)) s
  helps : ∀ a s s', step a s s' → Inv s → rank s ≠ 0 → a ∈ acts (helpful s) → rank s' < rank s

namespace Ranks

variable {Inv : S → Prop} {rank : S → Nat} {helpful : S → T} {acts : T → Set A}

theorem antitone (h : Ranks step Inv rank helpful acts) (path : Path step) {n m : Nat}
    (hnm : n ≤ m) (hn : Inv (path.state n)) : rank (path.state m) ≤ rank (path.state n) := by
  induction m, hnm using Nat.le_induction with
  | base => exact Nat.le_refl _
  | succ m hnm ih =>
      have hm := path.invariant h.keeps hnm hn
      rcases h.progress _ _ _ (path.next m) hm with hlt | ⟨heq, -⟩
      · exact Nat.le_trans (Nat.le_of_lt hlt) ih
      · exact heq.trans_le ih

/-- A rank that is left is lowered: else the helpful task would stay the same and stay
possible, and would never be taken. -/
theorem exists_lower (h : Ranks step Inv rank helpful acts) (path : Path step)
    (hfair : ∀ task, path.Fair (acts task)) {n : Nat} (hn : Inv (path.state n))
    (hrank : rank (path.state n) ≠ 0) : ∃ m, n ≤ m ∧ rank (path.state m) < rank (path.state n) := by
  by_contra hnever
  push Not at hnever
  have hsame : ∀ m, n ≤ m → rank (path.state m) = rank (path.state n) ∧
      helpful (path.state m) = helpful (path.state n) := by
    intro m hnm
    induction m, hnm using Nat.le_induction with
    | base => exact ⟨rfl, rfl⟩
    | succ m hnm ih =>
        obtain ⟨heq, htask⟩ := ih
        have hm := path.invariant h.keeps hnm hn
        rcases h.progress _ _ _ (path.next m) hm with hlt | ⟨heq', htask'⟩
        · have hge := hnever (m + 1) (Nat.le_succ_of_le hnm)
          omega
        · exact ⟨heq'.trans heq, htask'.trans htask⟩
  obtain ⟨m, hnm, hact⟩ := hfair (helpful (path.state n)) n fun m hnm => by
    obtain ⟨heq, htask⟩ := hsame m hnm
    rw [← htask]
    exact h.enabled _ (path.invariant h.keeps hnm hn) (by rwa [heq])
  obtain ⟨heq, htask⟩ := hsame m hnm
  rw [← htask] at hact
  have hlower := h.helps _ _ _ (path.next m) (path.invariant h.keeps hnm hn) (by rwa [heq]) hact
  have hge := hnever (m + 1) (Nat.le_succ_of_le hnm)
  omega

/-- Along a fair run the rank comes to zero, and stays there. -/
theorem eventually_zero (h : Ranks step Inv rank helpful acts) (path : Path step)
    (hfair : ∀ task, path.Fair (acts task)) {n : Nat} (hn : Inv (path.state n)) :
    ∃ m, n ≤ m ∧ ∀ k, m ≤ k → rank (path.state k) = 0 := by
  have hzero : ∃ m, n ≤ m ∧ rank (path.state m) = 0 := by
    induction hrank : rank (path.state n) using Nat.strong_induction_on generalizing n with
    | _ r ih =>
        by_cases hdone : r = 0
        · exact ⟨n, Nat.le_refl n, hrank.trans hdone⟩
        · obtain ⟨m, hnm, hlower⟩ := h.exists_lower path hfair hn (hrank ▸ hdone)
          obtain ⟨k, hmk, hk⟩ :=
            ih _ (hrank ▸ hlower) (path.invariant h.keeps hnm hn) rfl
          exact ⟨k, Nat.le_trans hnm hmk, hk⟩
  obtain ⟨m, hnm, hm⟩ := hzero
  refine ⟨m, hnm, fun k hmk => ?_⟩
  have hle := h.antitone path hmk (path.invariant h.keeps hnm hn)
  omega

end Ranks

end Fairness
