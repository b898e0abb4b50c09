import DigDns.Support.Text
import Mathlib.Data.Char
import Mathlib.Data.List.Lex
import Mathlib.Data.List.Sort

/-!
# JSON values

The value tree that `serde_json` builds.  Members of an object are kept in the
order in which they are written down; `sorted` is what a map of `serde_json` makes
of them.
-/

namespace Serde

open Rust

/-- `serde_json::Value`; a number is an integer, or the bits of a double. -/
inductive Value
  | null
  | bool (b : Bool)
  | number (n : Int)
  | float (bits : UInt64)
  | string (s : Str)
  | array (items : List Value)
  | object (members : List (Str × Value))

namespace Value

/-- `Value::get` with a key: only an object has members. -/
def get (key : Str) : Value → Option Value
  | object members => members.lookup key
  | _ => none

/-- `Value::as_bool` -/
def asBool : Value → Option Bool
  | bool b => some b
  | _ => none

/-- `Value::as_str` -/
def asStr : Value → Option Str
  | string s => some s
  | _ => none

/-- `Value::as_u64` -/
def asU64 : Value → Option UInt64
  | number n => if 0 ≤ n ∧ n < 18446744073709551616 then some (UInt64.ofNat n.toNat) else none
  | _ => none

/-- `Value::as_i64` -/
def asI64 : Value → Option Int
  | number n => if -9223372036854775808 ≤ n ∧ n < 9223372036854775808 then some n else none
  | _ => none

theorem asU64_number (n : UInt64) : (number ((n.toNat : Nat) : Int)).asU64 = some n := by
  have hlt := n.toNat_lt
  rw [asU64, if_pos (by omega), Int.toNat_natCast, UInt64.ofNat_toNat]

/-! ## Members in the order of their keys -/

/-- Whether a member does not come after another one. -/
def keyLe (a b : Str × Value) : Prop := a.1 ≤ b.1

instance : DecidableRel keyLe := fun a b => inferInstanceAs (Decidable (a.1 ≤ b.1))

mutual

/-- The value as `serde_json` keeps it: a map has its members in the order of their keys. -/
def sorted : Value → Value
  | null => null
  | bool b => bool b
  | number n => number n
  | float bits => float bits
  | string s => string s
  | array items => array (sortedItems items)
  | object members => object ((sortedMembers members).insertionSort keyLe)

def sortedItems : List Value → List Value
  | [] => []
  | v :: vs => v.sorted :: sortedItems vs

def sortedMembers : List (Str × Value) → List (Str × Value)
  | [] => []
  | (key, v) :: members => (key, v.sorted) :: sortedMembers members

end

theorem lookup_orderedInsert (key : Str) (member : Str × Value) (members : List (Str × Value)) :
    (members.orderedInsert keyLe member).lookup key = (member :: members).lookup key := by
  induction members with
  | nil => rfl
  | cons other members ih =>
      rw [List.orderedInsert_cons]
      split_ifs with hle
      · rfl
      · have hne : member.1 ≠ other.1 := by
          intro heq
          exact hle (le_of_eq heq)
        rw [List.lookup_cons, ih, List.lookup_cons, List.lookup_cons, List.lookup_cons]
        -- the key is that of one of the two at most
        cases hmember : key == member.1 with
        | false => rfl
        | true =>
            have hother : (key == other.1) = false := by
              rw [beq_iff_eq.mp hmember]
              exact beq_eq_false_iff_ne.mpr hne
            rw [hother]

theorem lookup_insertionSort (key : Str) (members : List (Str × Value)) :
    (members.insertionSort keyLe).lookup key = members.lookup key := by
  induction members with
  | nil => rfl
  | cons member members ih =>
      rw [List.insertionSort_cons, lookup_orderedInsert, List.lookup_cons, List.lookup_cons, ih]

theorem lookup_sortedMembers (key : Str) (members : List (Str × Value)) :
    (sortedMembers members).lookup key = (members.lookup key).map sorted := by
  induction members with
  | nil => rfl
  | cons member members ih =>
      obtain ⟨k, v⟩ := member
      rw [sortedMembers, List.lookup_cons, List.lookup_cons, ih]
      cases key == k <;> rfl

/-- Sorting changes no member. -/
theorem get_sorted (key : Str) (v : Value) : v.sorted.get key = (v.get key).map sorted := by
  cases v with
  | object members =>
      rw [sorted, get, lookup_insertionSort, lookup_sortedMembers]
      rfl
  | _ => rw [sorted]; rfl

theorem asBool_sorted (v : Value) : v.sorted.asBool = v.asBool := by
  cases v <;> rw [sorted] <;> rfl

end Value

end Serde
