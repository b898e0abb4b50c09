import Mathlib.Tactic.Ring

/-!
# Big-endian integers

`from_be_bytes` and `to_be_bytes` of the unsigned fixed-width types, by their
numeric meaning.
-/

namespace Rust

/-- `u16::from_be_bytes`. -/
def u16FromBe (hi lo : UInt8) : UInt16 :=
  UInt16.ofNat (hi.toNat * 256 + lo.toNat)

/-- `u16::to_be_bytes`. -/
def u16ToBe (n : UInt16) : List UInt8 :=
  [UInt8.ofNat (n.toNat / 256), UInt8.ofNat n.toNat]

/-- `u32::from_be_bytes`. -/
def u32FromBe (b₃ b₂ b₁ b₀ : UInt8) : UInt32 :=
  UInt32.ofNat (b₃.toNat * 2 ^ 24 + b₂.toNat * 2 ^ 16 + b₁.toNat * 2 ^ 8 + b₀.toNat)

/-- `u32::to_be_bytes`. -/
def u32ToBe (n : UInt32) : List UInt8 :=
  [UInt8.ofNat (n.toNat / 2 ^ 24), UInt8.ofNat (n.toNat / 2 ^ 16),
    UInt8.ofNat (n.toNat / 2 ^ 8), UInt8.ofNat n.toNat]

@[simp] theorem length_u16ToBe (n : UInt16) : (u16ToBe n).length = 2 := rfl

@[simp] theorem length_u32ToBe (n : UInt32) : (u32ToBe n).length = 4 := rfl

theorem toNat_u16FromBe (hi lo : UInt8) :
    (u16FromBe hi lo).toNat = hi.toNat * 256 + lo.toNat := by
  have hhi := hi.toNat_lt
  have hlo := lo.toNat_lt
  rw [u16FromBe, UInt16.toNat_ofNat', Nat.mod_eq_of_lt (by omega)]

@[simp] theorem u16FromBe_u16ToBe (n : UInt16) :
    u16FromBe (UInt8.ofNat (n.toNat / 256)) (UInt8.ofNat n.toNat) = n := by
  apply UInt16.toNat_inj.mp
  have hn := n.toNat_lt
  rw [toNat_u16FromBe, UInt8.toNat_ofNat', UInt8.toNat_ofNat']
  omega

@[simp] theorem u16ToBe_u16FromBe (hi lo : UInt8) :
    u16ToBe (u16FromBe hi lo) = [hi, lo] := by
  have hhi := hi.toNat_lt
  have hlo := lo.toNat_lt
  rw [u16ToBe, toNat_u16FromBe]
  congr 1
  · apply UInt8.toNat_inj.mp
    rw [UInt8.toNat_ofNat']
    omega
  · congr 1
    apply UInt8.toNat_inj.mp
    rw [UInt8.toNat_ofNat']
    omega

@[simp] theorem u32FromBe_u32ToBe (n : UInt32) :
    u32FromBe (UInt8.ofNat (n.toNat / 2 ^ 24)) (UInt8.ofNat (n.toNat / 2 ^ 16))
      (UInt8.ofNat (n.toNat / 2 ^ 8)) (UInt8.ofNat n.toNat) = n := by
  apply UInt32.toNat_inj.mp
  have hn := n.toNat_lt
  rw [u32FromBe, UInt32.toNat_ofNat']
  simp only [UInt8.toNat_ofNat']
  omega

end Rust
