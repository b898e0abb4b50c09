import Mathlib.Data.List.Basic

/-!
# Self-delimiting encodings

An encoding is self-delimiting when a longer word determines both the value at
its front and where that value ends.  A list of such values is one again, when
its length is known or when it is closed by something that no item starts
with.
-/

/-- The front of a word determines the value encoded there, and the rest. -/
def SelfDelimiting {α γ : Type} (f : α → List γ) : Prop :=
  ∀ ⦃x y : α⦄ ⦃s t : List γ⦄, f x ++ s = f y ++ t → x = y ∧ s = t

namespace SelfDelimiting

variable {α β γ : Type} {f : α → List γ} {g : β → List γ}

/-- An injective encoding of constant length. -/
theorem of_length {k : Nat} (hlen : ∀ x, (f x).length = k) (hinj : Function.Injective f) :
    SelfDelimiting f := by
  intro x y s t h
  obtain ⟨hxy, hst⟩ := List.append_inj h (by rw [hlen, hlen])
  exact ⟨hinj hxy, hst⟩

/-- A list whose length is known beforehand. -/
theorem flatMap (hf : SelfDelimiting f) {xs ys : List α} {s t : List γ}
    (hlen : xs.length = ys.length) (h : xs.flatMap f ++ s = ys.flatMap f ++ t) :
    xs = ys ∧ s = t := by
  induction xs generalizing ys with
  | nil =>
      cases ys with
      | nil => exact ⟨rfl, h⟩
      | cons y ys => simp at hlen
  | cons x xs ih =>
      cases ys with
      | nil => simp at hlen
      | cons y ys =>
          rw [List.flatMap_cons, List.flatMap_cons, List.append_assoc, List.append_assoc] at h
          obtain ⟨rfl, hrest⟩ := hf h
          obtain ⟨rfl, rfl⟩ := ih (Nat.succ.inj hlen) hrest
          exact ⟨rfl, rfl⟩

/-- A list closed by an end marker that no item starts with. -/
theorem closedBy (hf : SelfDelimiting f) (hg : SelfDelimiting g)
    (hne : ∀ x y s t, f x ++ s ≠ g y ++ t) :
    SelfDelimiting fun p : List α × β => p.1.flatMap f ++ g p.2 := by
  rintro ⟨xs, e⟩ ⟨ys, e'⟩ s t h
  simp only [List.append_assoc] at h
  induction xs generalizing ys with
  | nil =>
      cases ys with
      | nil =>
          obtain ⟨rfl, rfl⟩ := hg h
          exact ⟨rfl, rfl⟩
      | cons y ys =>
          rw [List.flatMap_cons, List.append_assoc] at h
          exact absurd h.symm (hne _ _ _ _)
  | cons x xs ih =>
      cases ys with
      | nil =>
          rw [List.flatMap_cons, List.append_assoc] at h
          exact absurd h (hne _ _ _ _)
      | cons y ys =>
          rw [List.flatMap_cons, List.flatMap_cons, List.append_assoc, List.append_assoc] at h
          obtain ⟨rfl, hrest⟩ := hf h
          obtain ⟨hxs, rfl⟩ := ih ys hrest
          obtain ⟨rfl, rfl⟩ := Prod.mk.inj hxs
          exact ⟨rfl, rfl⟩

end SelfDelimiting
