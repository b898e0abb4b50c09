import DigDns.Support.Text

/-!
# Hexadecimal

Two digits a byte, high half first.  The encoder writes small letters; the
decoder reads letters of either case and rejects every other string.
-/

namespace Rust.Hex

/-- The digit of a value below sixteen, in lower case. -/
def digit (n : Nat) : Char :=
  Char.ofNat (if n < 10 then 48 + n else 87 + n)

/-- The value of a digit of either case. -/
def digitValue (c : Char) : Option Nat :=
  let n := c.toLower.toNat
  if 48 ≤ n ∧ n ≤ 57 then some (n - 48)
  else if 97 ≤ n ∧ n ≤ 102 then some (n - 87)
  else none

/-- Two lower-case digits a byte. -/
def hexEncode : List UInt8 → Str
  | [] => []
  | b :: bs => digit (b.toNat / 16) :: digit (b.toNat % 16) :: hexEncode bs

/-- The bytes that a string of digits stands for. -/
def hexDecode : Str → Option (List UInt8)
  | [] => some []
  | [_] => none
  | c :: d :: s => do
      let hi ← digitValue c
      let lo ← digitValue d
      let rest ← hexDecode s
      some (UInt8.ofNat (16 * hi + lo) :: rest)

theorem toNat_digit {n : Nat} (hn : n < 16) :
    (digit n).toNat = if n < 10 then 48 + n else 87 + n := by
  have hall : ∀ k : Fin 16, (digit k.val).toNat = if k.val < 10 then 48 + k.val else 87 + k.val := by
    decide
  exact hall ⟨n, hn⟩

/-- A character has a value exactly when its lower case is that digit. -/
theorem digitValue_eq_some_iff {c : Char} {n : Nat} :
    digitValue c = some n ↔ n < 16 ∧ c.toLower = digit n := by
  constructor
  · intro h
    simp only [digitValue] at h
    split_ifs at h with hdec hlet
    · cases h
      refine ⟨by omega, Char.toNat_inj.mp ?_⟩
      rw [toNat_digit (by omega), if_pos (by omega)]
      omega
    · cases h
      refine ⟨by omega, Char.toNat_inj.mp ?_⟩
      rw [toNat_digit (by omega), if_neg (by omega)]
      omega
  · rintro ⟨hn, hc⟩
    simp only [digitValue, hc, toNat_digit hn]
    by_cases h : n < 10
    · rw [if_pos h, if_pos (by omega)]
      congr 1
      omega
    · rw [if_neg h, if_neg (by omega), if_pos (by omega)]
      congr 1
      omega

/-- The decoder accepts, up to letter case, exactly what the encoder writes. -/
theorem hexDecode_eq_some_iff {s : Str} {bs : List UInt8} :
    hexDecode s = some bs ↔ toAsciiLowercase s = hexEncode bs := by
  induction s using hexDecode.induct generalizing bs with
  | case1 => cases bs <;> simp [hexDecode, hexEncode, toAsciiLowercase]
  | case2 c => cases bs <;> simp [hexDecode, hexEncode, toAsciiLowercase]
  | case3 c d s ih =>
      simp only [hexDecode, Option.bind_eq_bind, Option.bind_eq_some_iff, Option.some.injEq,
        digitValue_eq_some_iff]
      cases bs with
      | nil => simp [hexEncode, toAsciiLowercase]
      | cons b bs =>
          simp only [hexEncode, toAsciiLowercase, List.map_cons, List.cons.injEq]
          constructor
          · rintro ⟨hi, ⟨hhi, hc⟩, lo, ⟨hlo, hd⟩, rest, hs, hb, rfl⟩
            have hnat : b.toNat = 16 * hi + lo := by
              rw [← hb, UInt8.toNat_ofNat', Nat.mod_eq_of_lt (by omega)]
            refine ⟨?_, ?_, ih.mp hs⟩
            · rw [hc, hnat, show (16 * hi + lo) / 16 = hi by omega]
            · rw [hd, hnat, show (16 * hi + lo) % 16 = lo by omega]
          · rintro ⟨hc, hd, hs⟩
            have hb := b.toNat_lt
            refine ⟨b.toNat / 16, ⟨by omega, hc⟩, b.toNat % 16, ⟨by omega, hd⟩, bs,
              ih.mpr hs, ?_, rfl⟩
            rw [show 16 * (b.toNat / 16) + b.toNat % 16 = b.toNat by omega]
            simp

/-- `char::is_ascii_hexdigit`. -/
def isAsciiHexdigit (c : Char) : Bool :=
  c.isDigit || ('a' ≤ c && c ≤ 'f') || ('A' ≤ c && c ≤ 'F')

theorem exists_digitValue {c : Char} (hc : isAsciiHexdigit c = true) :
    ∃ n, digitValue c = some n := by
  simp only [isAsciiHexdigit, Bool.or_eq_true, Bool.and_eq_true, decide_eq_true_eq,
    Char.isDigit_iff_toNat] at hc
  have hlower := toNat_toLower c
  simp only [digitValue]
  rcases hc with (⟨hlo, hhi⟩ | ⟨hlo, hhi⟩) | ⟨hlo, hhi⟩
  · change 48 ≤ c.toNat at hlo
    change c.toNat ≤ 57 at hhi
    rw [if_neg (by omega)] at hlower
    exact ⟨_, if_pos (by omega)⟩
  · change 97 ≤ c.toNat at hlo
    change c.toNat ≤ 102 at hhi
    rw [if_neg (by omega)] at hlower
    exact ⟨_, by rw [if_neg (by omega), if_pos (by omega)]⟩
  · change 65 ≤ c.toNat at hlo
    change c.toNat ≤ 70 at hhi
    rw [if_pos (by omega)] at hlower
    exact ⟨_, by rw [if_neg (by omega), if_pos (by omega)]⟩

/-- An even number of digits always decodes. -/
theorem exists_hexDecode {n : Nat} {s : Str} (hlen : s.length = 2 * n)
    (hs : ∀ c ∈ s, isAsciiHexdigit c = true) :
    ∃ bs, hexDecode s = some bs ∧ bs.length = n := by
  induction n generalizing s with
  | zero => exact ⟨[], by simp_all [hexDecode], rfl⟩
  | succ n ih =>
      match s, hlen, hs with
      | c :: d :: s, hlen, hs =>
          obtain ⟨hi, hhi⟩ := exists_digitValue (hs c (by simp))
          obtain ⟨lo, hlo⟩ := exists_digitValue (hs d (by simp))
          obtain ⟨bs, hdecode, hbs⟩ := ih (s := s)
            (by simp only [List.length_cons] at hlen; omega) fun c hc => hs c (by simp [hc])
          exact ⟨_, by simp only [hexDecode, hhi, hlo, hdecode]; rfl, by simp [hbs]⟩

/-- Digits are single bytes. -/
theorem ascii_of_isAsciiHexdigit {c : Char} (hc : isAsciiHexdigit c = true) :
    c.toNat < 128 := by
  obtain ⟨n, hn⟩ := exists_digitValue hc
  simp only [digitValue, toNat_toLower] at hn
  split_ifs at hn <;> omega

end Rust.Hex
