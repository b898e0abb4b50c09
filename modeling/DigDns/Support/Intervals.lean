import Mathlib.Data.List.Basic
import Mathlib.Tactic.Common

/-!
# Inclusive intervals of a list

The elements from one position to another, both included, and the ways of cutting
the positions below a bound into such intervals.
-/

namespace Intervals

variable {α : Type*}

/-- The elements at the positions `a` to `b`. -/
def slice (xs : List α) (a b : Nat) : List α := (xs.take (b + 1)).drop a

/-- What stands before, in and behind an interval. -/
theorem exists_append_slice {xs : List α} {a b : Nat} (hab : a ≤ b) (hb : b < xs.length) :
    ∃ front back, xs = front ++ slice xs a b ++ back ∧ front.length = a ∧
      (slice xs a b).length = b + 1 - a := by
  refine ⟨(xs.take (b + 1)).take a, xs.drop (b + 1), ?_, ?_, ?_⟩
  · rw [slice, List.take_append_drop, List.take_append_drop]
  · rw [List.length_take, List.length_take]
    omega
  · rw [slice, List.length_drop, List.length_take]
    omega

/-- Non-empty intervals that follow each other from `a` up to `n`. -/
def IsCut : Nat → List (Nat × Nat) → Nat → Prop
  | a, [], n => a = n
  | a, i :: rest, n => i.1 = a ∧ i.1 ≤ i.2 ∧ IsCut (i.2 + 1) rest n

theorem IsCut.le {a n : Nat} {intervals : List (Nat × Nat)} (h : IsCut a intervals n) :
    a ≤ n := by
  induction intervals generalizing a with
  | nil => exact Nat.le_of_eq h
  | cons i rest ih =>
      obtain ⟨hstart, hne, hrest⟩ := h
      have hnext := ih hrest
      omega

/-- Every interval of a cut is non-empty and ends below the bound. -/
theorem IsCut.bounds {a n : Nat} {intervals : List (Nat × Nat)} (h : IsCut a intervals n) :
    ∀ i ∈ intervals, i.1 ≤ i.2 ∧ i.2 < n := by
  induction intervals generalizing a with
  | nil => exact nofun
  | cons i rest ih =>
      obtain ⟨-, hne, hrest⟩ := h
      exact List.forall_mem_cons.mpr ⟨⟨hne, hrest.le⟩, ih hrest⟩

/-- The slices of a cut are the elements in order, none left out and none twice. -/
theorem IsCut.flatMap_slice {xs : List α} {a n : Nat} {intervals : List (Nat × Nat)}
    (h : IsCut a intervals n) (hn : n ≤ xs.length) :
    intervals.flatMap (fun i => slice xs i.1 i.2) = (xs.take n).drop a := by
  induction intervals generalizing a with
  | nil =>
      obtain rfl := h
      rw [List.flatMap_nil, List.drop_take_self]
  | cons i rest ih =>
      obtain ⟨rfl, hne, hrest⟩ := h
      have hle := hrest.le
      have hfront : (xs.take n).take (i.2 + 1) = xs.take (i.2 + 1) := by
        rw [List.take_take, Nat.min_eq_left hle]
      have hstart : i.1 ≤ (xs.take (i.2 + 1)).length := by
        rw [List.length_take]
        omega
      calc
        (i :: rest).flatMap (fun i => slice xs i.1 i.2) =
            (xs.take (i.2 + 1)).drop i.1 ++ (xs.take n).drop (i.2 + 1) := by
          rw [List.flatMap_cons, ih hrest]
          rfl
        _ = (xs.take (i.2 + 1) ++ (xs.take n).drop (i.2 + 1)).drop i.1 :=
          (List.drop_append_of_le_length hstart).symm
        _ = (xs.take n).drop i.1 := by rw [← hfront, List.take_append_drop]

end Intervals
