import Mathlib.Data.List.Basic

/-!
# Base64 of RFC 4648

The standard alphabet with padding.  The decoder is strict: no white space, no
missing padding, no padding bit that is not zero.
-/

namespace Rfc4648

/-- The six-bit value of a symbol of the standard alphabet. -/
def sextet (b : UInt8) : Option Nat :=
  let n := b.toNat
  if 65 ≤ n ∧ n ≤ 90 then some (n - 65)
  else if 97 ≤ n ∧ n ≤ 122 then some (n - 71)
  else if 48 ≤ n ∧ n ≤ 57 then some (n + 4)
  else if n = 43 then some 62
  else if n = 47 then some 63
  else none

/-- Decode four symbols at a time; padding ends the string. -/
def base64Decode : List UInt8 → Option (List UInt8)
  | [] => some []
  | [a, b, 61, 61] => do
      let a ← sextet a
      let b ← sextet b
      if b % 16 = 0 then some [UInt8.ofNat (a * 4 + b / 16)] else none
  | [a, b, c, 61] => do
      let a ← sextet a
      let b ← sextet b
      let c ← sextet c
      if c % 4 = 0 then
        some [UInt8.ofNat (a * 4 + b / 16), UInt8.ofNat (b % 16 * 16 + c / 4)]
      else none
  | a :: b :: c :: d :: rest => do
      let a ← sextet a
      let b ← sextet b
      let c ← sextet c
      let d ← sextet d
      let tail ← base64Decode rest
      some (UInt8.ofNat (a * 4 + b / 16) :: UInt8.ofNat (b % 16 * 16 + c / 4) ::
        UInt8.ofNat (c % 4 * 64 + d) :: tail)
  | _ => none

/-- The symbol of a six-bit value. -/
def base64Symbol (n : Nat) : UInt8 :=
  if n < 26 then UInt8.ofNat (n + 65)
  else if n < 52 then UInt8.ofNat (n + 71)
  else if n < 62 then UInt8.ofNat (n - 4)
  else if n = 62 then 43
  else 47

/-- Encode three bytes at a time, with padding at the end. -/
def base64Encode : List UInt8 → List UInt8
  | [] => []
  | [x] => [base64Symbol (x.toNat / 4), base64Symbol (x.toNat % 4 * 16), 61, 61]
  | [x, y] =>
      [base64Symbol (x.toNat / 4), base64Symbol (x.toNat % 4 * 16 + y.toNat / 16),
        base64Symbol (y.toNat % 16 * 4), 61]
  | x :: y :: z :: rest =>
      base64Symbol (x.toNat / 4) :: base64Symbol (x.toNat % 4 * 16 + y.toNat / 16) ::
        base64Symbol (y.toNat % 16 * 4 + z.toNat / 64) :: base64Symbol (z.toNat % 64) ::
          base64Encode rest

theorem sextet_base64Symbol {n : Nat} (hn : n < 64) :
    sextet (base64Symbol n) = some n ∧ base64Symbol n ≠ 61 ∧ (base64Symbol n).toNat < 128 := by
  have hall : ∀ k : Fin 64, sextet (base64Symbol k.val) = some k.val ∧ base64Symbol k.val ≠ 61 ∧
      (base64Symbol k.val).toNat < 128 := by decide
  exact hall ⟨n, hn⟩

theorem ascii_base64Encode (bytes : List UInt8) : ∀ b ∈ base64Encode bytes, b.toNat < 128 := by
  have hsymbol : ∀ {n : Nat}, n < 64 → (base64Symbol n).toNat < 128 :=
    fun hn => (sextet_base64Symbol hn).2.2
  induction bytes using base64Encode.induct with
  | case1 => simp [base64Encode]
  | case2 x =>
      have hx := x.toNat_lt
      simp only [base64Encode, List.forall_mem_cons]
      exact ⟨hsymbol (by omega), hsymbol (by omega), by decide, by decide, List.forall_mem_nil _⟩
  | case3 x y =>
      have hx := x.toNat_lt
      have hy := y.toNat_lt
      simp only [base64Encode, List.forall_mem_cons]
      exact ⟨hsymbol (by omega), hsymbol (by omega), hsymbol (by omega), by decide,
        List.forall_mem_nil _⟩
  | case4 x y z rest ih =>
      have hx := x.toNat_lt
      have hy := y.toNat_lt
      have hz := z.toNat_lt
      simp only [base64Encode, List.forall_mem_cons]
      exact ⟨hsymbol (by omega), hsymbol (by omega), hsymbol (by omega), hsymbol (by omega), ih⟩

/-- Decoding undoes encoding. -/
theorem base64Decode_base64Encode (bytes : List UInt8) :
    base64Decode (base64Encode bytes) = some bytes := by
  have hsextet : ∀ {n : Nat}, n < 64 → sextet (base64Symbol n) = some n :=
    fun hn => (sextet_base64Symbol hn).1
  have hpad : ∀ {n : Nat}, n < 64 → base64Symbol n ≠ 61 :=
    fun hn => (sextet_base64Symbol hn).2.1
  have hback : ∀ {n : Nat} {x : UInt8}, n = x.toNat → UInt8.ofNat n = x := by
    rintro _ x rfl
    exact UInt8.ofNat_toNat
  induction bytes using base64Encode.induct with
  | case1 => rfl
  | case2 x =>
      have hx := x.toNat_lt
      simp only [base64Encode, base64Decode, hsextet (show x.toNat / 4 < 64 by omega),
        hsextet (show x.toNat % 4 * 16 < 64 by omega), Option.bind_eq_bind, Option.bind_some]
      rw [if_pos (by omega), hback (x := x) (by omega)]
  | case3 x y =>
      have hx := x.toNat_lt
      have hy := y.toNat_lt
      rw [base64Encode, base64Decode]
      · simp only [hsextet (show x.toNat / 4 < 64 by omega),
          hsextet (show x.toNat % 4 * 16 + y.toNat / 16 < 64 by omega),
          hsextet (show y.toNat % 16 * 4 < 64 by omega), Option.bind_eq_bind, Option.bind_some]
        rw [if_pos (by omega), hback (x := x) (by omega), hback (x := y) (by omega)]
      · exact hpad (by omega)
  | case4 x y z rest ih =>
      have hx := x.toNat_lt
      have hy := y.toNat_lt
      have hz := z.toNat_lt
      have hd := hpad (show z.toNat % 64 < 64 by omega)
      rw [base64Encode, base64Decode]
      · simp only [hsextet (show x.toNat / 4 < 64 by omega),
          hsextet (show x.toNat % 4 * 16 + y.toNat / 16 < 64 by omega),
          hsextet (show y.toNat % 16 * 4 + z.toNat / 64 < 64 by omega),
          hsextet (show z.toNat % 64 < 64 by omega), ih, Option.bind_eq_bind, Option.bind_some]
        rw [hback (x := x) (by omega), hback (x := y) (by omega), hback (x := z) (by omega)]
      · exact fun _ h _ => hd h
      · exact fun h _ => hd h

end Rfc4648
