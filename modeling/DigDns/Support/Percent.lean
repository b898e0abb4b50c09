import DigDns.Support.Hex

/-!
# Percent-encoding

A percent sign and two hexadecimal digits stand for a byte; every other
character stands for its own bytes.  Decoding commutes with cutting a text at
a character that is no digit, up to the cuts that only decoding brings out.
-/

namespace Percent

open Rust

/-- The bytes that a text stands for; an incomplete escape stands for itself. -/
def decode : Str → List UInt8
  | [] => []
  | '%' :: hi :: lo :: rest =>
      match Hex.digitValue hi, Hex.digitValue lo with
      | some h, some l => UInt8.ofNat (16 * h + l) :: decode rest
      | _, _ => utf8 ['%'] ++ decode (hi :: lo :: rest)
  | c :: rest => utf8 [c] ++ decode rest

/-- The text after a percent sign that two digits follow. -/
def IsEscaped (s : Str) : Prop :=
  ∃ hi lo rest h l, s = hi :: lo :: rest ∧ Hex.digitValue hi = some h ∧ Hex.digitValue lo = some l


/-- Outside of an escape a character stands for its bytes. -/
theorem decode_cons {c : Char} {s : Str} (h : c = '%' → ¬ IsEscaped s) :
    decode (c :: s) = utf8 [c] ++ decode s := by
  by_cases hshape : c = '%' ∧ ∃ hi lo rest, s = hi :: lo :: rest
  · obtain ⟨rfl, hi, lo, rest, rfl⟩ := hshape
    rw [decode]
    split
    · next high low hhi hlo => exact absurd ⟨hi, lo, rest, high, low, rfl, hhi, hlo⟩ (h rfl)
    · rfl
  · rw [decode]
    exact fun hi lo rest hc hs => hshape ⟨hc, hi, lo, rest, hs⟩

/-- The digits of an escape stand before any character that is no digit. -/
theorem IsEscaped.of_append {c : Char} (hc : Hex.digitValue c = none) {s t : Str}
    (h : IsEscaped (s ++ c :: t)) : IsEscaped s := by
  obtain ⟨hi, lo, rest, high, low, hs, hhi, hlo⟩ := h
  match s, hs with
  | [], hs =>
      rw [← (List.cons.inj hs).1, hc] at hhi
      cases hhi
  | [d], hs =>
      rw [← (List.cons.inj (List.cons.inj hs).2).1, hc] at hlo
      cases hlo
  | d :: e :: s, hs =>
      rw [List.cons_append, List.cons_append, List.cons.injEq, List.cons.injEq] at hs
      obtain ⟨rfl, rfl, -⟩ := hs
      exact ⟨d, e, s, high, low, rfl, hhi, hlo⟩

theorem decode_append {c : Char} (hc : Hex.digitValue c = none) (s t : Str) :
    decode (s ++ c :: t) = decode s ++ decode (c :: t) := by
  induction s using decode.induct with
  | case1 => rfl
  | case2 hi lo rest high low hlo hhi ih => simp only [List.cons_append, decode, hhi, hlo, ih]
  | case3 hi lo rest hdigits ih =>
      have hescaped : ¬ IsEscaped (hi :: lo :: rest) := by
        rintro ⟨_, _, _, high, low, heq, hhi, hlo⟩
        cases heq
        exact hdigits high low hhi hlo
      rw [List.cons_append, decode_cons fun _ h => hescaped (h.of_append hc), ih,
        decode_cons fun _ => hescaped, List.append_assoc]
  | case4 d rest hshape ih =>
      have hescaped : d = '%' → ¬ IsEscaped rest := by
        rintro hd ⟨hi, lo, rest', _, _, heq, -⟩
        exact hshape hi lo rest' hd heq
      rw [List.cons_append, decode_cons fun hd h => hescaped hd (h.of_append hc), ih,
        decode_cons hescaped, List.append_assoc]

/-- A character that can be no part of an escape is decoded as it stands. -/
theorem utf8_subset_decode {c : Char} (hc : Hex.digitValue c = none) (hpercent : c ≠ '%') {s : Str}
    (hmem : c ∈ s) : utf8 [c] ⊆ decode s := by
  obtain ⟨a, b, rfl⟩ := List.append_of_mem hmem
  rw [decode_append hc, decode_cons fun h => absurd h hpercent]
  exact fun x hx => List.mem_append_right _ (List.mem_append_left _ hx)

/-! ## Cutting -/

/-- A property of lists that holds of every piece without a separator, and of a piece and a
separator before a list that it holds of. -/
theorem cut_induction {α : Type} {P : List α → Prop} (sep : α) (piece : ∀ s, sep ∉ s → P s)
    (cut : ∀ s t, sep ∉ s → P t → P (s ++ sep :: t)) (s : List α) : P s := by
  induction hlen : s.length using Nat.strong_induction_on generalizing s with
  | _ n ih =>
      by_cases hmem : sep ∈ s
      · obtain ⟨a, b, rfl, ha⟩ := List.eq_append_cons_of_mem hmem
        rw [List.length_append, List.length_cons] at hlen
        exact cut a b ha (ih b.length (by omega) b rfl)
      · exact piece s hmem

variable {c : Char}

theorem utf8_singleton (hascii : c.toNat < 128) : utf8 [c] = [UInt8.ofNat c.toNat] :=
  utf8_of_ascii (List.forall_mem_singleton.mpr hascii)

/-- Cutting the bytes of a text at an ASCII character cuts the text. -/
theorem splitOn_utf8 (hascii : c.toNat < 128) (s : Str) :
    (utf8 s).splitOn (UInt8.ofNat c.toNat) = (s.splitOn c).map utf8 := by
  have hbyte : (UInt8.ofNat c.toNat).toNat = c.toNat := by
    rw [UInt8.toNat_ofNat']
    omega
  have hnot : ∀ {s : Str}, c ∉ s → UInt8.ofNat c.toNat ∉ utf8 s := by
    intro s hs hmem
    rw [mem_utf8_iff_of_ascii (by omega), hbyte, Char.ofNat_toNat] at hmem
    exact hs hmem
  induction s using cut_induction c with
  | piece s hs => rw [List.splitOn_eq_singleton hs, List.splitOn_eq_singleton (hnot hs)]; rfl
  | cut s t hs ih =>
      have hcons : utf8 (s ++ c :: t) = utf8 s ++ UInt8.ofNat c.toNat :: utf8 t := by
        rw [utf8_append, utf8_cons, utf8EncodeChar_of_ascii hascii, List.singleton_append]
      rw [hcons, List.splitOn_append_cons_self_of_not_mem (hnot hs),
        List.splitOn_append_cons_self_of_not_mem hs, ih, List.map_cons]

/-- Cutting what a text decodes to cuts the text, and then each of its pieces. -/
theorem splitOn_decode (hascii : c.toNat < 128) (hc : Hex.digitValue c = none) (hpercent : c ≠ '%')
    (s : Str) : (decode s).splitOn (UInt8.ofNat c.toNat) =
      (s.splitOn c).flatMap fun piece => (decode piece).splitOn (UInt8.ofNat c.toNat) := by
  induction s using cut_induction c with
  | piece s hs => rw [List.splitOn_eq_singleton hs, List.flatMap_singleton]
  | cut s t hs ih =>
      rw [decode_append hc, decode_cons fun h => absurd h hpercent, utf8_singleton hascii,
        List.singleton_append, List.splitOn_append_cons_self, ih,
        List.splitOn_append_cons_self_of_not_mem hs, List.flatMap_cons]

end Percent
