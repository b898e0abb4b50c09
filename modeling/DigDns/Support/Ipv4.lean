import DigDns.Support.Text

/-!
# IPv4 addresses

`std::net::Ipv4Addr` with its textual form: four decimal octets, no leading
zeros, separated by single dots.
-/

namespace Rust

/-- `std::net::Ipv4Addr`. -/
structure Ipv4Addr where
  a : UInt8
  b : UInt8
  c : UInt8
  d : UInt8
deriving DecidableEq, Repr

namespace Ipv4Addr

/-- `Ipv4Addr::octets`. -/
def octets (ip : Ipv4Addr) : List UInt8 :=
  [ip.a, ip.b, ip.c, ip.d]

/-- `Ipv4Addr::is_loopback`: the block `127.0.0.0/8`. -/
def isLoopback (ip : Ipv4Addr) : Bool :=
  ip.a == 127

/-- `{}` formatting. -/
def fmt (ip : Ipv4Addr) : Str :=
  fmtNat ip.a.toNat ++ '.' :: (fmtNat ip.b.toNat ++ '.' ::
    (fmtNat ip.c.toNat ++ '.' :: fmtNat ip.d.toNat))

/-- One octet as the address parser reads it: one to three digits, no leading
zero before another digit, at most 255. -/
def parseOctet (s : Str) : Option UInt8 :=
  if s ≠ [] ∧ s.length ≤ 3 ∧ s.all Char.isDigit ∧ (s.head? = some '0' → s.length = 1) then
    let n := Nat.ofDigitChars 10 s 0
    if n ≤ 255 then some (UInt8.ofNat n) else none
  else none

/-- `str::parse::<Ipv4Addr>`. -/
def parse (s : Str) : Option Ipv4Addr :=
  match s.splitOn '.' with
  | [a, b, c, d] => do
      let a ← parseOctet a
      let b ← parseOctet b
      let c ← parseOctet c
      let d ← parseOctet d
      some ⟨a, b, c, d⟩
  | _ => none

/-- A printed number of two digits or more does not start with a zero. -/
theorem leadingDigit_ne_zero {m : Nat} (hm : 10 ≤ m) : (fmtNat m).head? ≠ some '0' := by
  induction m using Nat.strongRecOn with
  | ind m ih =>
      rw [fmtNat, Nat.toDigits_of_base_le (by decide) hm]
      by_cases hlt : m / 10 < 10
      · rw [Nat.toDigits_of_lt_base hlt]
        simp only [List.singleton_append, List.head?_cons, ne_eq, Option.some.injEq]
        have hpos : 1 ≤ m / 10 := by omega
        have hall : ∀ k : Fin 10, 1 ≤ k.val → Nat.digitChar k.val ≠ '0' := by decide
        exact hall ⟨m / 10, hlt⟩ hpos
      · have hrec := ih (m / 10) (by omega) (by omega)
        rw [fmtNat] at hrec
        cases hdigits : Nat.toDigits 10 (m / 10) with
        | nil => exact absurd hdigits Nat.toDigits_ne_nil
        | cons c rest => simpa [hdigits] using hrec

/-- A printed octet parses back. -/
theorem parseOctet_fmtNat (n : UInt8) : parseOctet (fmtNat n.toNat) = some n := by
  have hn : n.toNat < 256 := n.toNat_lt
  have hlen : (fmtNat n.toNat).length ≤ 3 :=
    (Nat.length_toDigits_le_iff (by decide) (by decide)).mpr (by omega)
  have hall : (fmtNat n.toNat).all Char.isDigit = true :=
    List.all_eq_true.mpr fun c hc => isDigit_of_mem_fmtNat hc
  have hzero : (fmtNat n.toNat).head? = some '0' → (fmtNat n.toNat).length = 1 := by
    intro hhead
    by_contra hne
    -- A leading zero would leave a shorter number with the same value.
    have hge : 10 ≤ n.toNat := by
      by_contra hlt
      rw [fmtNat, Nat.toDigits_of_lt_base (by omega)] at hne
      exact hne rfl
    exact leadingDigit_ne_zero hge hhead
  rw [parseOctet, if_pos ⟨fmtNat_ne_nil _, hlen, hall, hzero⟩]
  simp only [fmtNat, Nat.ofDigitChars_ten_toDigits]
  rw [if_pos (by omega), UInt8.ofNat_toNat]

theorem dot_not_mem_fmtNat (n : Nat) : '.' ∉ fmtNat n := by
  intro h
  exact absurd (isDigit_of_mem_fmtNat h) (by decide)

/-- A printed address parses back. -/
theorem parse_fmt (ip : Ipv4Addr) : parse ip.fmt = some ip := by
  have hsplit : ip.fmt.splitOn '.' =
      [fmtNat ip.a.toNat, fmtNat ip.b.toNat, fmtNat ip.c.toNat, fmtNat ip.d.toNat] := by
    rw [fmt, List.splitOn_append_cons_self_of_not_mem (dot_not_mem_fmtNat _),
      List.splitOn_append_cons_self_of_not_mem (dot_not_mem_fmtNat _),
      List.splitOn_append_cons_self_of_not_mem (dot_not_mem_fmtNat _),
      List.splitOn_eq_singleton (dot_not_mem_fmtNat _)]
  rw [parse, hsplit]
  simp [parseOctet_fmtNat]

theorem fmt_injective : Function.Injective fmt := by
  intro ip ip' h
  have hparse := parse_fmt ip
  rw [h, parse_fmt] at hparse
  exact (Option.some.inj hparse).symm

/-- A printed address is made of digits and dots. -/
theorem dot_or_isDigit_of_mem_fmt {ip : Ipv4Addr} {c : Char} (hc : c ∈ ip.fmt) :
    c = '.' ∨ c.isDigit = true := by
  simp only [fmt, List.mem_append, List.mem_cons] at hc
  rcases hc with h | rfl | h | rfl | h | rfl | h
  · exact Or.inr (isDigit_of_mem_fmtNat h)
  · exact Or.inl rfl
  · exact Or.inr (isDigit_of_mem_fmtNat h)
  · exact Or.inl rfl
  · exact Or.inr (isDigit_of_mem_fmtNat h)
  · exact Or.inl rfl
  · exact Or.inr (isDigit_of_mem_fmtNat h)

/-- What holds of digits and of dots holds of every character of a printed address. -/
theorem forall_mem_fmt (ip : Ipv4Addr) {P : Char → Prop}
    (hchars : ∀ c ∈ "0123456789.".toList, P c) : ∀ c ∈ ip.fmt, P c := by
  intro c hc
  rcases dot_or_isDigit_of_mem_fmt hc with rfl | hdigit
  · exact hchars '.' (by decide)
  · exact forall_digit (fun d hd => hchars d (List.mem_append_left ['.'] hd)) hdigit

theorem trim_fmt (ip : Ipv4Addr) : trim ip.fmt = ip.fmt := by
  apply trim_of_no_whitespace
  intro c hc
  rcases dot_or_isDigit_of_mem_fmt hc with rfl | h
  · decide
  · exact (not_whitespace_of_isDigit h).1

end Ipv4Addr

end Rust
