import Mathlib.Logic.Basic

/-!
# Results

When a computation that can fail, written with `?` and `map_err`, succeeds.
-/

namespace Rust

variable {ε ε' α β : Type}

/-- `Option::ok_or` -/
def okOr (x : Option α) (e : ε) : Except ε α :=
  match x with
  | some a => .ok a
  | none => .error e

theorem bind_eq_ok_iff {x : Except ε α} {f : α → Except ε β} {b : β} :
    (x >>= f) = .ok b ↔ ∃ a, x = .ok a ∧ f a = .ok b := by
  cases x with
  | error e => simp [Bind.bind, Except.bind]
  | ok a => simp [Bind.bind, Except.bind]

theorem bind_eq_error_iff {x : Except ε α} {f : α → Except ε β} {e : ε} :
    (x >>= f) = .error e ↔ x = .error e ∨ ∃ a, x = .ok a ∧ f a = .error e := by
  cases x with
  | error e' => simp [Bind.bind, Except.bind]
  | ok a => simp [Bind.bind, Except.bind]

theorem okOr_eq_error_iff {x : Option α} {e e' : ε} :
    okOr x e = .error e' ↔ x = none ∧ e = e' := by
  cases x with
  | none => simp [okOr]
  | some a => simp [okOr]

/-- The error of a loop is the error of one of its rounds. -/
theorem exists_of_foldlM_eq_error {f : β → α → Except ε β} {l : List α} {b : β}
    {e : ε} (h : l.foldlM f b = .error e) : ∃ a ∈ l, ∃ b', f b' a = .error e := by
  induction l generalizing b with
  | nil => cases h
  | cons a l ih =>
      rw [List.foldlM_cons, bind_eq_error_iff] at h
      obtain hfirst | ⟨b', -, hrest⟩ := h
      · exact ⟨a, List.mem_cons_self, b, hfirst⟩
      · obtain ⟨a', ha', hround⟩ := ih hrest
        exact ⟨a', List.mem_cons_of_mem _ ha', hround⟩

theorem exists_of_mapM_eq_error {f : α → Except ε β} {l : List α} {e : ε}
    (h : l.mapM f = .error e) : ∃ a ∈ l, f a = .error e := by
  induction l with
  | nil => cases h
  | cons a l ih =>
      rw [List.mapM_cons, bind_eq_error_iff] at h
      obtain hfirst | ⟨_, -, h⟩ := h
      · exact ⟨a, List.mem_cons_self, hfirst⟩
      rw [bind_eq_error_iff] at h
      obtain hrest | ⟨_, -, h⟩ := h
      · obtain ⟨a', ha', hf⟩ := ih hrest
        exact ⟨a', List.mem_cons_of_mem _ ha', hf⟩
      · cases h

theorem mapError_eq_ok_iff {f : ε → ε'} {x : Except ε α} {a : α} :
    x.mapError f = .ok a ↔ x = .ok a := by
  cases x with
  | error e =>
      constructor
      · intro h
        cases h
      · intro h
        cases h
  | ok b =>
      change Except.ok b = Except.ok a ↔ Except.ok b = Except.ok a
      rw [Except.ok.injEq, Except.ok.injEq]

/-- What a successful `mapM` has mapped, it could map. -/
theorem exists_of_mapM_eq_some {α β : Type} {f : α → Option β} {l : List α} {out : List β}
    (h : l.mapM f = some out) {a : α} (ha : a ∈ l) : ∃ b, f a = some b := by
  induction l generalizing out with
  | nil => cases ha
  | cons x l ih =>
      rw [List.mapM_cons] at h
      obtain ⟨b, hb, hrest⟩ := Option.bind_eq_some_iff.mp h
      obtain ⟨bs, hbs, -⟩ := Option.bind_eq_some_iff.mp hrest
      rcases List.mem_cons.mp ha with rfl | ha
      · exact ⟨b, hb⟩
      · exact ih hbs ha

end Rust
