import Mathlib.Data.List.DropRight
import Mathlib.Data.List.Infix
import Mathlib.Logic.Function.Defs

/-!
# Rust strings

The operations of the Rust standard library's `str` that text-handling code
leans on, over the sequence of Unicode scalar values.  Case mapping is the
ASCII one throughout, as in `to_ascii_lowercase`; white space is the Unicode
property that `str::trim` uses.  What Rust counts in bytes goes through
`utf8`.
-/

namespace Rust

/-- A `str`, as the sequence of its Unicode scalar values. -/
abbrev Str := List Char

section Decide

variable (P : Char → Prop) [DecidablePred P]

/-- What is checked of every character of a string is checked one by one, and not by
going through all characters that there are. -/
instance (priority := 2000) decidableForallMem (s : Str) : Decidable (∀ c ∈ s, P c) :=
  List.decidableBAll P s

instance (priority := 2000) decidableExistsMem (o : Option Char) : Decidable (∃ c ∈ o, P c) :=
  o.decidableExistsMem

end Decide

/-- `str::as_bytes`. -/
def utf8 (s : Str) : List UInt8 :=
  s.flatMap String.utf8EncodeChar

/-- `str::len`, which counts bytes. -/
def byteLen (s : Str) : Nat :=
  (utf8 s).length

@[simp] theorem utf8_cons (c : Char) (s : Str) :
    utf8 (c :: s) = String.utf8EncodeChar c ++ utf8 s := by
  simp [utf8]

theorem utf8_append (s t : Str) : utf8 (s ++ t) = utf8 s ++ utf8 t :=
  List.flatMap_append

/-- A string is determined by its bytes. -/
theorem utf8_injective : Function.Injective utf8 := by
  intro s t h
  have hstr : String.ofList s = String.ofList t := by
    simp only [utf8] at h
    simp only [String.ofList, List.utf8Encode, h]
  simpa using congrArg String.toList hstr

/-! ## ASCII characters -/

/-- A character below `0x80` is its own single byte. -/
theorem utf8EncodeChar_of_ascii {c : Char} (hc : c.toNat < 128) :
    String.utf8EncodeChar c = [UInt8.ofNat c.toNat] := by
  have hle : c.val.toNat ≤ 0x7f := Nat.le_of_lt_succ hc
  unfold String.utf8EncodeChar
  exact if_pos hle

/-- Every byte of a character from `0x80` on has its top bit set. -/
theorem le_of_mem_utf8EncodeChar {c : Char} (hc : 128 ≤ c.toNat)
    {b : UInt8} (hb : b ∈ String.utf8EncodeChar c) :
    128 ≤ b.toNat := by
  have hgt : ¬ c.val.toNat ≤ 0x7f := Nat.not_le_of_lt hc
  have htop : ∀ n, 128 ≤ n % 256 → 128 ≤ (UInt8.ofNat n).toNat := by
    intro n hn
    simpa using hn
  unfold String.utf8EncodeChar at hb
  simp only [if_neg hgt] at hb
  split at hb
  · rcases List.mem_pair.mp hb with rfl | rfl <;> exact htop _ (by omega)
  · split at hb
    all_goals
      simp only [List.mem_cons, List.not_mem_nil, or_false] at hb
    · rcases hb with rfl | rfl | rfl <;> exact htop _ (by omega)
    · rcases hb with rfl | rfl | rfl | rfl <;> exact htop _ (by omega)

/-- The bytes of an ASCII string are its code points. -/
theorem utf8_of_ascii {s : Str} (hs : ∀ c ∈ s, c.toNat < 128) :
    utf8 s = s.map fun c => UInt8.ofNat c.toNat := by
  induction s with
  | nil => rfl
  | cons c s ih =>
      rw [utf8_cons, utf8EncodeChar_of_ascii (hs c List.mem_cons_self),
        ih fun d hd => hs d (List.mem_cons_of_mem _ hd)]
      rfl

theorem byteLen_of_ascii {s : Str} (hs : ∀ c ∈ s, c.toNat < 128) :
    byteLen s = s.length := by
  rw [byteLen, utf8_of_ascii hs, List.length_map]

/-- A string all of whose bytes are below `0x80` is ASCII. -/
theorem ascii_of_utf8 {s : Str} (hs : ∀ b ∈ utf8 s, b.toNat < 128) :
    ∀ c ∈ s, c.toNat < 128 := by
  intro c hc
  by_contra hge
  obtain ⟨b, hb⟩ := List.exists_mem_of_ne_nil _ (String.utf8EncodeChar_ne_nil (c := c))
  have hlow := hs b (List.mem_flatMap.mpr ⟨c, hc, hb⟩)
  have htop := le_of_mem_utf8EncodeChar (not_lt.mp hge) hb
  omega

/-- A byte below `0x80` stands for the character that it is. -/
theorem mem_utf8_iff_of_ascii {s : Str} {b : UInt8} (hb : b.toNat < 128) :
    b ∈ utf8 s ↔ Char.ofNat b.toNat ∈ s := by
  have hchar : ∀ n : Fin 128, (Char.ofNat n.val).toNat = n.val := by decide
  have hback : (Char.ofNat b.toNat).toNat = b.toNat := hchar ⟨b.toNat, hb⟩
  rw [utf8, List.mem_flatMap]
  constructor
  · rintro ⟨c, hc, hbyte⟩
    have hlow : c.toNat < 128 := by
      by_contra hge
      have htop := le_of_mem_utf8EncodeChar (not_lt.mp hge) hbyte
      omega
    rw [utf8EncodeChar_of_ascii hlow, List.mem_singleton] at hbyte
    have hnat : b.toNat = c.toNat := by
      rw [hbyte, UInt8.toNat_ofNat']
      omega
    rwa [hnat, Char.ofNat_toNat]
  · intro hc
    refine ⟨_, hc, ?_⟩
    rw [utf8EncodeChar_of_ascii (by omega), hback, UInt8.ofNat_toNat]
    exact List.mem_singleton_self b

/-- ASCII bytes, read as characters, have those bytes again. -/
theorem utf8_map_ofNat {bytes : List UInt8} (hascii : ∀ b ∈ bytes, b.toNat < 128) :
    utf8 (bytes.map fun b => Char.ofNat b.toNat) = bytes := by
  have hchar : ∀ n : Fin 128, (Char.ofNat n.val).toNat = n.val := by decide
  have hback : ∀ b ∈ bytes, (Char.ofNat b.toNat).toNat = b.toNat :=
    fun b hb => hchar ⟨b.toNat, hascii b hb⟩
  rw [utf8_of_ascii]
  · rw [List.map_map]
    refine (List.map_congr_left fun b hb => ?_).trans (List.map_id _)
    rw [Function.comp_apply, hback b hb, UInt8.ofNat_toNat, id]
  · intro c hc
    obtain ⟨b, hb, rfl⟩ := List.mem_map.mp hc
    rw [hback b hb]
    exact hascii b hb

/-! ## ASCII case -/

/-- `str::to_ascii_lowercase`. -/
def toAsciiLowercase (s : Str) : Str :=
  s.map Char.toLower

/-- `str::to_ascii_uppercase`. -/
def toAsciiUppercase (s : Str) : Str :=
  s.map Char.toUpper

/-- `str::eq_ignore_ascii_case`. -/
def eqIgnoreAsciiCase (s t : Str) : Bool :=
  toAsciiLowercase s == toAsciiLowercase t

/-- `u8::to_ascii_lowercase`. -/
def byteToAsciiLowercase (b : UInt8) : UInt8 :=
  if 65 ≤ b.toNat ∧ b.toNat ≤ 90 then b + 32 else b

/-- `<[u8]>::eq_ignore_ascii_case`. -/
def bytesEqIgnoreAsciiCase (a b : List UInt8) : Bool :=
  a.map byteToAsciiLowercase == b.map byteToAsciiLowercase

theorem toNat_toLower (c : Char) :
    c.toLower.toNat =
      if 65 ≤ c.toNat ∧ c.toNat ≤ 90 then c.toNat + 32 else c.toNat := by
  unfold Char.toLower
  split
  · rename_i h
    have hlo : 65 ≤ c.toNat := UInt32.le_iff_toNat_le.mp h.1
    have hhi : c.toNat ≤ 90 := UInt32.le_iff_toNat_le.mp h.2
    rw [if_pos ⟨hlo, hhi⟩]
    change (c.val + 32).toNat = _
    rw [UInt32.toNat_add]
    change (c.toNat + 32) % _ = _
    omega
  · rename_i h
    rw [if_neg]
    rintro ⟨hlo, hhi⟩
    exact h ⟨UInt32.le_iff_toNat_le.mpr hlo, UInt32.le_iff_toNat_le.mpr hhi⟩

theorem toNat_toUpper (c : Char) :
    c.toUpper.toNat =
      if 97 ≤ c.toNat ∧ c.toNat ≤ 122 then c.toNat - 32 else c.toNat := by
  unfold Char.toUpper
  split
  · rename_i h
    have hlo : 97 ≤ c.toNat := UInt32.le_iff_toNat_le.mp h.1
    have hhi : c.toNat ≤ 122 := UInt32.le_iff_toNat_le.mp h.2
    rw [if_pos ⟨hlo, hhi⟩]
    change (c.val + 4294967264).toNat = _
    rw [UInt32.toNat_add]
    change (c.toNat + 4294967264) % _ = _
    omega
  · rename_i h
    rw [if_neg]
    rintro ⟨hlo, hhi⟩
    exact h ⟨UInt32.le_iff_toNat_le.mpr hlo, UInt32.le_iff_toNat_le.mpr hhi⟩

@[simp] theorem toLower_toUpper (c : Char) :
    c.toUpper.toLower = c.toLower := by
  apply Char.toNat_inj.mp
  rw [toNat_toLower, toNat_toUpper, toNat_toLower]
  split_ifs <;> omega

@[simp] theorem toUpper_toLower (c : Char) :
    c.toLower.toUpper = c.toUpper := by
  apply Char.toNat_inj.mp
  rw [toNat_toUpper, toNat_toLower, toNat_toUpper]
  split_ifs <;> omega

@[simp] theorem toAsciiLowercase_toAsciiUppercase (s : Str) :
    toAsciiLowercase (toAsciiUppercase s) = toAsciiLowercase s := by
  simp [toAsciiLowercase, toAsciiUppercase]

@[simp] theorem toAsciiUppercase_toAsciiLowercase (s : Str) :
    toAsciiUppercase (toAsciiLowercase s) = toAsciiUppercase s := by
  simp [toAsciiLowercase, toAsciiUppercase]

/-- A string without ASCII capitals is its own lower case. -/
theorem toAsciiLowercase_of_no_upper {s : Str}
    (hs : ∀ c ∈ s, ¬ (65 ≤ c.toNat ∧ c.toNat ≤ 90)) :
    toAsciiLowercase s = s := by
  refine (List.map_congr_left fun c hc => ?_).trans (List.map_id s)
  apply Char.toNat_inj.mp
  rw [toNat_toLower, if_neg (hs c hc), id]

/-- A string without ASCII small letters is its own upper case. -/
theorem toAsciiUppercase_of_no_lower {s : Str}
    (hs : ∀ c ∈ s, ¬ (97 ≤ c.toNat ∧ c.toNat ≤ 122)) :
    toAsciiUppercase s = s := by
  refine (List.map_congr_left fun c hc => ?_).trans (List.map_id s)
  apply Char.toNat_inj.mp
  rw [toNat_toUpper, if_neg (hs c hc), id]

/-- Changing the case of ASCII letters keeps the number of bytes. -/
theorem byteLen_toAsciiUppercase (s : Str) :
    byteLen (toAsciiUppercase s) = byteLen s := by
  induction s with
  | nil => rfl
  | cons c s ih =>
      simp only [byteLen, toAsciiUppercase, List.map_cons, utf8_cons,
        List.length_append] at ih ⊢
      rw [ih, Nat.add_right_cancel_iff]
      by_cases hc : c.toNat < 128
      · have hup : c.toUpper.toNat < 128 := by
          rw [toNat_toUpper]
          split_ifs <;> omega
        simp [utf8EncodeChar_of_ascii hc, utf8EncodeChar_of_ascii hup]
      · have hup : c.toUpper = c := by
          apply Char.toNat_inj.mp
          rw [toNat_toUpper, if_neg (by omega)]
        rw [hup]

/-! ## White space -/

/-- The Unicode `White_Space` property, which `char::is_whitespace` tests. -/
def isWhitespace (c : Char) : Bool :=
  let n := c.toNat
  (9 ≤ n && n ≤ 13) || n == 0x20 || n == 0x85 || n == 0xA0 || n == 0x1680 ||
    (0x2000 ≤ n && n ≤ 0x200A) || n == 0x2028 || n == 0x2029 || n == 0x202F ||
    n == 0x205F || n == 0x3000

/-- `str::trim`. -/
def trim (s : Str) : Str :=
  (s.dropWhile isWhitespace).rdropWhile isWhitespace

theorem trim_of_no_whitespace {s : Str} (hs : ∀ c ∈ s, isWhitespace c = false) :
    trim s = s := by
  have hleft : s.dropWhile isWhitespace = s := by
    cases s with
    | nil => rfl
    | cons c s =>
        rw [List.dropWhile_cons, hs c List.mem_cons_self]
        rfl
  rw [trim, hleft, List.rdropWhile_eq_self_iff]
  intro hne
  simp [hs _ (List.getLast_mem hne)]

/-- Trimming leaves nothing to trim. -/
@[simp] theorem trim_trim (s : Str) :
    trim (trim s) = trim s := by
  have hleft : (trim s).dropWhile isWhitespace = trim s := by
    rw [List.dropWhile_eq_self_iff]
    intro hlen
    have hpre : trim s <+: s.dropWhile isWhitespace :=
      List.rdropWhile_prefix _ _
    rw [List.IsPrefix.getElem hpre hlen]
    have hpos : 0 < (s.dropWhile isWhitespace).length :=
      lt_of_lt_of_le hlen hpre.length_le
    exact List.dropWhile_get_zero_not isWhitespace s hpos
  rw [trim, hleft]
  exact List.rdropWhile_idempotent _ _

/-- Trimming takes nothing but white space away. -/
theorem mem_trim_iff {s : Str} {c : Char} (hc : isWhitespace c = false) : c ∈ trim s ↔ c ∈ s := by
  have hleft : ∀ t : Str, c ∈ t.dropWhile isWhitespace ↔ c ∈ t := by
    intro t
    rw [← List.takeWhile_append_dropWhile (p := isWhitespace) (l := t), List.mem_append]
    rw [List.takeWhile_append_dropWhile]
    refine ⟨Or.inr, fun h => h.resolve_left fun hmem => ?_⟩
    rw [List.mem_takeWhile_imp hmem] at hc
    exact absurd hc (by decide)
  rw [trim, List.rdropWhile, List.mem_reverse, hleft, List.mem_reverse, hleft]

/-- A fact about a string literal is one about the list of its characters. -/
theorem of_literal (P : Str → Prop) {s : Str} (h : P s) : P (String.ofList s).toList := by
  rw [String.toList_ofList]
  exact h

/-! ## Cutting strings -/

/-- `str::strip_prefix`. -/
def stripPrefix (p s : Str) : Option Str :=
  if p.isPrefixOf s then some (s.drop p.length) else none

/-- `str::strip_suffix`. -/
def stripSuffix (p s : Str) : Option Str :=
  if p.isSuffixOf s then some (s.take (s.length - p.length)) else none

/-- `s.split(c).next().unwrap_or(s)`: everything before the first `c`. -/
def splitNext (c : Char) (s : Str) : Str :=
  (s.splitOn c).headD s

/-- `s.rsplit(c).next().unwrap_or(s)`: everything after the last `c`. -/
def rsplitNext (c : Char) (s : Str) : Str :=
  (s.splitOn c).getLastD s

/-- `str::split_once` at a character. -/
def splitOnce (c : Char) : Str → Option (Str × Str)
  | [] => none
  | d :: s =>
      if d = c then some ([], s)
      else (splitOnce c s).map fun p => (d :: p.1, p.2)

/-- `str::rsplit_once` at a character. -/
def rsplitOnce (c : Char) (s : Str) : Option (Str × Str) :=
  (splitOnce c s.reverse).map fun p => (p.2.reverse, p.1.reverse)

theorem stripPrefix_append (p s : Str) : stripPrefix p (p ++ s) = some s := by
  rw [stripPrefix, if_pos (by simp), List.drop_left]

theorem splitOnce_append_of_not_mem {c : Char} {a s : Str} (ha : c ∉ a) :
    splitOnce c (a ++ s) = (splitOnce c s).map fun parts => (a ++ parts.1, parts.2) := by
  induction a with
  | nil => simp
  | cons d a ih =>
      have hne : d ≠ c := fun h => ha (h ▸ List.mem_cons_self)
      have hrest : c ∉ a := fun hmem => ha (List.mem_cons_of_mem d hmem)
      rw [List.cons_append, splitOnce, if_neg hne, ih hrest, Option.map_map]
      rfl

theorem splitOnce_append {c : Char} {s t : Str} (hs : c ∉ s) :
    splitOnce c (s ++ c :: t) = some (s, t) := by
  rw [splitOnce_append_of_not_mem hs, splitOnce, if_pos rfl, Option.map_some, List.append_nil]

theorem stripPrefix_eq_some_iff {p s t : Str} : stripPrefix p s = some t ↔ s = p ++ t := by
  constructor
  · intro h
    rw [stripPrefix] at h
    split_ifs at h with hpre
    obtain ⟨rest, rfl⟩ := List.isPrefixOf_iff_prefix.mp hpre
    rw [List.drop_left, Option.some.injEq] at h
    rw [h]
  · rintro rfl
    exact stripPrefix_append p t

theorem splitOnce_eq_some_iff {c : Char} {s a b : Str} :
    splitOnce c s = some (a, b) ↔ s = a ++ c :: b ∧ c ∉ a := by
  constructor
  · intro h
    induction s generalizing a with
    | nil => cases h
    | cons d s ih =>
        rw [splitOnce] at h
        split_ifs at h with hd
        · cases h
          exact ⟨by rw [hd, List.nil_append], List.not_mem_nil⟩
        · obtain ⟨⟨a', b'⟩, hparts, heq⟩ := Option.map_eq_some_iff.mp h
          cases heq
          obtain ⟨rfl, hmem⟩ := ih hparts
          exact ⟨rfl, List.not_mem_cons_of_ne_of_not_mem (Ne.symm hd) hmem⟩
  · rintro ⟨rfl, ha⟩
    exact splitOnce_append ha

theorem rsplitOnce_append {c : Char} {s t : Str} (ht : c ∉ t) :
    rsplitOnce c (s ++ c :: t) = some (s, t) := by
  have hreverse : (s ++ c :: t).reverse = t.reverse ++ c :: s.reverse := by simp
  rw [rsplitOnce, hreverse, splitOnce_append (by simpa using ht)]
  simp

/-- `str::contains` with a string pattern. -/
def strContains (s p : Str) : Bool :=
  s.tails.any p.isPrefixOf

theorem strContains_append (a p b : Str) : strContains (a ++ p ++ b) p = true := by
  refine List.any_eq_true.mpr ⟨p ++ b, ?_, ?_⟩
  · rw [List.mem_tails, List.append_assoc]
    exact List.suffix_append a (p ++ b)
  · exact List.isPrefixOf_iff_prefix.mpr (List.prefix_append p b)

/-! ## Decimal numbers -/

/-- `{}` formatting of an unsigned integer. -/
def fmtNat (n : Nat) : Str :=
  Nat.toDigits 10 n

/-- `{}` formatting of a signed integer. -/
def fmtInt : Int → Str
  | .ofNat n => fmtNat n
  | .negSucc n => '-' :: fmtNat (n + 1)

/-- `str::parse` into an unsigned integer type with values below `bound`: one
optional `+`, then one or more decimal digits, overflow an error. -/
def parseUnsigned (bound : Nat) (s : Str) : Option Nat :=
  let digits := (stripPrefix ['+'] s).getD s
  if digits ≠ [] ∧ digits.all Char.isDigit then
    let n := Nat.ofDigitChars 10 digits 0
    if n < bound then some n else none
  else none

theorem isDigit_of_mem_fmtNat {n : Nat} {c : Char} (hc : c ∈ fmtNat n) :
    c.isDigit = true :=
  Nat.isDigit_of_mem_toDigits (by decide) (by decide) hc

/-- What holds of the ten digits holds of every digit. -/
theorem forall_digit {P : Char → Prop} (hdigits : ∀ c ∈ "0123456789".toList, P c) {c : Char}
    (hc : c.isDigit = true) : P c := by
  apply hdigits
  have hmem : ∀ n : Fin 58, 48 ≤ n.val → Char.ofNat n.val ∈ "0123456789".toList := by decide
  obtain ⟨hlo, hhi⟩ := Char.isDigit_iff_toNat.mp hc
  change 48 ≤ c.toNat at hlo
  change c.toNat ≤ 57 at hhi
  have hfound := hmem ⟨c.toNat, by omega⟩ hlo
  rwa [Char.ofNat_toNat] at hfound

theorem forall_mem_fmtNat (n : Nat) {P : Char → Prop} (hdigits : ∀ c ∈ "0123456789".toList, P c) :
    ∀ c ∈ fmtNat n, P c :=
  fun _ hc => forall_digit hdigits (isDigit_of_mem_fmtNat hc)

theorem fmtNat_ne_nil (n : Nat) : fmtNat n ≠ [] :=
  Nat.toDigits_ne_nil

/-- Digits are neither white space nor a sign. -/
theorem not_whitespace_of_isDigit {c : Char} (hc : c.isDigit = true) :
    isWhitespace c = false ∧ c ≠ '+' := by
  obtain ⟨hlo, hhi⟩ := Char.isDigit_iff_toNat.mp hc
  change 48 ≤ c.toNat at hlo
  change c.toNat ≤ 57 at hhi
  constructor
  · simp only [isWhitespace, Bool.or_eq_false_iff, Bool.and_eq_false_iff,
      decide_eq_false_iff_not, beq_eq_false_iff_ne]
    omega
  · rintro rfl
    exact absurd hlo (by decide)

theorem trim_fmtNat (n : Nat) : trim (fmtNat n) = fmtNat n :=
  trim_of_no_whitespace fun _ hc =>
    (not_whitespace_of_isDigit (isDigit_of_mem_fmtNat hc)).1

/-- A printed number parses back. -/
theorem parseUnsigned_fmtNat {bound n : Nat} (hn : n < bound) :
    parseUnsigned bound (fmtNat n) = some n := by
  have hplus : stripPrefix ['+'] (fmtNat n) = none := by
    cases h : fmtNat n with
    | nil => rfl
    | cons c s =>
        have hdig : c.isDigit = true :=
          isDigit_of_mem_fmtNat (by rw [h]; exact List.mem_cons_self)
        have hne := (not_whitespace_of_isDigit hdig).2
        simp [stripPrefix, List.isPrefixOf, Ne.symm hne]
  have hall : (fmtNat n).all Char.isDigit = true :=
    List.all_eq_true.mpr fun c hc => isDigit_of_mem_fmtNat hc
  rw [parseUnsigned, hplus]
  simp only [Option.getD_none]
  rw [if_pos ⟨fmtNat_ne_nil n, hall⟩]
  simp [fmtNat, hn]

/-- A non-empty string of decimal digits, and its value. -/
def IsNumeral (s : Str) (n : Nat) : Prop :=
  s ≠ [] ∧ (∀ c ∈ s, c.isDigit = true) ∧ n = Nat.ofDigitChars 10 s 0

/-- A numeral that may have a `+` before it. -/
def IsSignedNumeral (s : Str) (n : Nat) : Prop :=
  IsNumeral s n ∨ ∃ digits, s = '+' :: digits ∧ IsNumeral digits n

theorem IsNumeral.plus_not_mem {s : Str} {n : Nat} (h : IsNumeral s n) : '+' ∉ s :=
  fun hmem => (not_whitespace_of_isDigit (h.2.1 _ hmem)).2 rfl

/-- What holds of the digits and of the plus sign holds of a signed numeral. -/
theorem IsSignedNumeral.forall_mem {P : Char → Prop} {s : Str} {n : Nat}
    (hP : ∀ c ∈ "+0123456789".toList, P c) (h : IsSignedNumeral s n) : ∀ c ∈ s, P c := by
  have hdigits : ∀ c ∈ "0123456789".toList, P c := fun c hc => hP c (List.mem_cons_of_mem _ hc)
  rcases h with h | ⟨digits, rfl, h⟩
  · exact fun c hc => forall_digit hdigits (h.2.1 c hc)
  · exact List.forall_mem_cons.mpr
      ⟨hP _ List.mem_cons_self, fun c hc => forall_digit hdigits (h.2.1 c hc)⟩

theorem IsSignedNumeral.ne_nil {s : Str} {n : Nat} (h : IsSignedNumeral s n) : s ≠ [] := by
  rcases h with h | ⟨digits, rfl, -⟩
  · exact h.1
  · exact List.cons_ne_nil _ _

/-- The strings that a parse accepts are the signed numerals below the bound. -/
theorem parseUnsigned_eq_some_iff {bound n : Nat} {s : Str} :
    parseUnsigned bound s = some n ↔ IsSignedNumeral s n ∧ n < bound := by
  have hread : ∀ digits : Str, (if digits ≠ [] ∧ digits.all Char.isDigit then
      let n := Nat.ofDigitChars 10 digits 0
      if n < bound then some n else none
    else none) = some n ↔ IsNumeral digits n ∧ n < bound := by
    intro digits
    rw [IsNumeral, ← List.all_eq_true]
    dsimp only
    split_ifs with hdigits hlt
    · rw [Option.some.injEq]
      constructor
      · rintro rfl
        exact ⟨⟨hdigits.1, hdigits.2, rfl⟩, hlt⟩
      · exact fun h => h.1.2.2.symm
    · refine iff_of_false (by simp) fun h => hlt ?_
      rw [← h.1.2.2]
      exact h.2
    · exact iff_of_false (by simp) fun h => hdigits ⟨h.1.1, h.1.2.1⟩
  rw [parseUnsigned]
  cases hplus : stripPrefix ['+'] s with
  | none =>
      rw [Option.getD_none, hread]
      refine and_congr_left' ⟨Or.inl, fun h => h.resolve_right ?_⟩
      rintro ⟨digits, rfl, -⟩
      cases hplus.symm.trans (stripPrefix_append ['+'] digits)
  | some digits =>
      obtain rfl := stripPrefix_eq_some_iff.mp hplus
      rw [Option.getD_some, hread]
      refine and_congr_left' ⟨fun h => Or.inr ⟨digits, rfl, h⟩, ?_⟩
      rintro (h | ⟨digits', heq, h⟩)
      · exact absurd List.mem_cons_self h.plus_not_mem
      · obtain rfl := List.append_cancel_left heq
        exact h

/-- A numeral has one value. -/
theorem IsSignedNumeral.unique {s : Str} {m n : Nat} (hm : IsSignedNumeral s m)
    (hn : IsSignedNumeral s n) : m = n := by
  have hm' := parseUnsigned_eq_some_iff.mpr ⟨hm, Nat.lt_succ_of_le (Nat.le_max_left m n)⟩
  have hn' := parseUnsigned_eq_some_iff.mpr ⟨hn, Nat.lt_succ_of_le (Nat.le_max_right m n)⟩
  exact Option.some.inj (hm'.symm.trans hn')

/-- `str::parse::<u16>`. -/
def parseU16 (s : Str) : Option UInt16 :=
  (parseUnsigned UInt16.size s).map UInt16.ofNat

/-- `str::parse::<u32>`. -/
def parseU32 (s : Str) : Option UInt32 :=
  (parseUnsigned UInt32.size s).map UInt32.ofNat

theorem parseU16_fmtNat (n : UInt16) : parseU16 (fmtNat n.toNat) = some n := by
  rw [parseU16, parseUnsigned_fmtNat n.toNat_lt]
  simp

theorem parseU32_fmtNat (n : UInt32) : parseU32 (fmtNat n.toNat) = some n := by
  rw [parseU32, parseUnsigned_fmtNat n.toNat_lt]
  simp

end Rust
