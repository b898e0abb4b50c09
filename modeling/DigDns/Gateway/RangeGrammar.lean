import DigDns.Gateway

/-!
# The grammar of byte ranges

A single range names its first and last byte, its first byte, or the number of
the last bytes.  `parse_range` is compared with that grammar on all strings: it
takes a plus sign before a number, and no number from 2^64 on.
-/

namespace DigDns

open Rust

/-! ## What a header names -/

/-- What a single range asks for. -/
inductive Bounds
  | closed (first last : Nat)
  | opened (first : Nat)
  | suffix (length : Nat)
deriving DecidableEq

namespace Bounds

/-- The first byte is not behind the last one. -/
def IsOrdered : Bounds → Prop
  | closed first last => first ≤ last
  | opened _ => True
  | suffix _ => True

/-- The numbers are values of a `u64`. -/
def Fits : Bounds → Prop
  | closed first last => first < UInt64.size ∧ last < UInt64.size
  | opened first => first < UInt64.size
  | suffix length => length < UInt64.size

/-- The part of a resource of `total` bytes. -/
def select (total : Nat) : Bounds → RangeSpec
  | closed first last =>
      if first < total then .satisfiable first (min last (total - 1)) else .unsatisfiable
  | opened first => if first < total then .satisfiable first (total - 1) else .unsatisfiable
  | suffix length =>
      if 0 < length ∧ 0 < total then .satisfiable (total - min length total) (total - 1)
      else .unsatisfiable

theorem select_ne_whole (total : Nat) (bounds : Bounds) : bounds.select total ≠ .whole := by
  cases bounds with
  | closed first last =>
      rw [select]
      split_ifs <;> simp
  | opened first =>
      rw [select]
      split_ifs <;> simp
  | suffix length =>
      rw [select]
      split_ifs <;> simp

end Bounds

/-- `Spells numeral a b bounds`: the parts before and after the hyphen are
`first-last`, `first-` or `-suffix`, in numbers that are written as `numeral` says. -/
inductive Spells (numeral : Str → Nat → Prop) : Str → Str → Bounds → Prop
  | closed {a b : Str} {first last : Nat} (hfirst : numeral a first) (hlast : numeral b last) :
      Spells numeral a b (.closed first last)
  | opened {a : Str} {first : Nat} (hfirst : numeral a first) : Spells numeral a [] (.opened first)
  | suffix {b : Str} {length : Nat} (hlength : numeral b length) :
      Spells numeral [] b (.suffix length)

/-- The bounds that a header names. -/
def NamesRange (numeral : Str → Nat → Prop) (header : Str) (bounds : Bounds) : Prop :=
  ∃ s a b, trim header = "bytes=".toList ++ s ∧ trim s = a ++ '-' :: b ∧ Spells numeral a b bounds

/-- `parse_range` decides the grammar of single ranges: it selects the part that an
ordered range names, and the whole where a header names none. -/
structure ReadsGrammar (header : Str) (total : Nat) : Prop where
  valid : ∀ bounds, NamesRange IsNumeral header bounds → bounds.IsOrdered →
    parseRange header total = bounds.select total
  malformed : (∀ bounds, ¬ NamesRange IsNumeral header bounds) → parseRange header total = .whole

/-! ## What the code takes -/

theorem parseU64_eq_some_iff {s : Str} {n : Nat} :
    parseU64 s = some n ↔ IsSignedNumeral s n ∧ n < UInt64.size :=
  parseUnsigned_eq_some_iff

theorem Spells.mono {p q : Str → Nat → Prop} (hpq : ∀ s n, p s n → q s n) {a b : Str}
    {bounds : Bounds} (h : Spells p a b bounds) : Spells q a b bounds := by
  cases h with
  | closed hfirst hlast => exact .closed (hpq _ _ hfirst) (hpq _ _ hlast)
  | opened hfirst => exact .opened (hpq _ _ hfirst)
  | suffix hlength => exact .suffix (hpq _ _ hlength)

/-- The signs and digits of the two parts. -/
theorem Spells.forall_mem {P : Char → Prop} (hP : ∀ c ∈ "+0123456789".toList, P c) {a b : Str}
    {bounds : Bounds} (h : Spells IsSignedNumeral a b bounds) :
    (∀ c ∈ a, P c) ∧ ∀ c ∈ b, P c := by
  cases h with
  | closed hfirst hlast => exact ⟨hfirst.forall_mem hP, hlast.forall_mem hP⟩
  | opened hfirst => exact ⟨hfirst.forall_mem hP, List.forall_mem_nil _⟩
  | suffix hlength => exact ⟨List.forall_mem_nil _, hlength.forall_mem hP⟩

/-- The two parts meet at the first hyphen. -/
theorem Spells.splitOnce {s a b : Str} {bounds : Bounds} (h : Spells IsSignedNumeral a b bounds)
    (hparts : s = a ++ '-' :: b) : splitOnce '-' s = some (a, b) := by
  refine splitOnce_eq_some_iff.mpr ⟨hparts, fun hmem => ?_⟩
  exact (h.forall_mem (P := fun c => c ≠ '-') (by decide)).1 _ hmem rfl

variable {header : Str} {bounds : Bounds}

/-- Signed numbers that fit are read as they stand; an unordered range cannot be satisfied. -/
theorem parseRange_of_names (h : NamesRange IsSignedNumeral header bounds) (hfits : bounds.Fits)
    (total : Nat) :
    (bounds.IsOrdered → parseRange header total = bounds.select total) ∧
      (¬ bounds.IsOrdered → parseRange header total = .unsatisfiable) := by
  obtain ⟨s, a, b, hheader, hparts, hspells⟩ := h
  have hcomma : s.contains ',' = false := by
    rw [Bool.eq_false_iff]
    intro hcontains
    obtain ⟨ha, hb⟩ := hspells.forall_mem (P := fun c => c ≠ ',') (by decide)
    have hmem := (mem_trim_iff (by decide)).mpr (List.contains_iff_mem.mp hcontains)
    rw [hparts, List.mem_append, List.mem_cons] at hmem
    rcases hmem with hmem | hmem | hmem
    · exact ha _ hmem rfl
    · exact absurd hmem (by decide)
    · exact hb _ hmem rfl
  have hsplit := hspells.splitOnce hparts
  unfold parseRange
  rw [stripPrefix_eq_some_iff.mpr hheader]
  dsimp only
  rw [hcomma, hsplit, if_neg Bool.false_ne_true]
  cases hspells with
  | @closed _ _ first last hfirst hlast =>
      dsimp only
      rw [if_neg hfirst.ne_nil, if_neg hlast.ne_nil,
        parseU64_eq_some_iff.mpr ⟨hfirst, hfits.1⟩, parseU64_eq_some_iff.mpr ⟨hlast, hfits.2⟩]
      simp only [Option.map_some, Bounds.IsOrdered, Bounds.select]
      constructor
      · intro hordered
        by_cases hlt : first < total
        · rw [if_pos hlt, if_neg (by omega)]
        · rw [if_neg hlt, if_pos (by omega)]
      · intro hordered
        rw [if_pos (by omega)]
  | @opened _ first hfirst =>
      dsimp only
      rw [if_neg hfirst.ne_nil, if_pos rfl, parseU64_eq_some_iff.mpr ⟨hfirst, hfits⟩]
      refine ⟨fun _ => ?_, fun hordered => absurd trivial hordered⟩
      simp only [Bounds.select]
      by_cases hlt : first < total
      · rw [if_pos hlt, if_neg (by omega)]
      · rw [if_neg hlt, if_pos (by omega)]
  | @suffix _ length hlength =>
      dsimp only
      rw [if_pos rfl, parseU64_eq_some_iff.mpr ⟨hlength, hfits⟩]
      refine ⟨fun _ => ?_, fun hordered => absurd trivial hordered⟩
      simp only [Bounds.select]
      by_cases hpos : 0 < length ∧ 0 < total
      · rw [if_pos hpos, if_neg (by omega)]
      · rw [if_neg hpos, if_pos (by omega)]

theorem parseRange_ne_whole (h : NamesRange IsSignedNumeral header bounds) (hfits : bounds.Fits)
    (total : Nat) : parseRange header total ≠ .whole := by
  obtain ⟨hselect, hunsatisfiable⟩ := parseRange_of_names h hfits total
  by_cases hordered : bounds.IsOrdered
  · rw [hselect hordered]
    exact bounds.select_ne_whole total
  · rw [hunsatisfiable hordered]
    exact RangeSpec.noConfusion

/-- Only signed numbers that fit are read. -/
theorem exists_names_of_parseRange {total : Nat} (h : parseRange header total ≠ .whole) :
    ∃ bounds, NamesRange IsSignedNumeral header bounds ∧ bounds.Fits := by
  rcases parseRange_cases header total with hwhole | ⟨s, a, b, hspec, hparts, hread⟩
  · exact absurd hwhole h
  have hnames : ∀ {bounds : Bounds}, Spells IsSignedNumeral a b bounds →
      NamesRange IsSignedNumeral header bounds := fun hspells =>
    ⟨s, a, b, stripPrefix_eq_some_iff.mp hspec, (splitOnce_eq_some_iff.mp hparts).1, hspells⟩
  rcases hread with ⟨rfl, length, hlength, -⟩ |
    ⟨first, last, hfirst, ⟨rfl, -⟩ | ⟨n, hlast, -⟩, -⟩
  · obtain ⟨hnumeral, hlt⟩ := parseU64_eq_some_iff.mp hlength
    exact ⟨.suffix length, hnames (.suffix hnumeral), hlt⟩
  · obtain ⟨hnumeral, hlt⟩ := parseU64_eq_some_iff.mp hfirst
    exact ⟨.opened first, hnames (.opened hnumeral), hlt⟩
  · obtain ⟨hnumeral, hlt⟩ := parseU64_eq_some_iff.mp hfirst
    obtain ⟨hnumeral', hlt'⟩ := parseU64_eq_some_iff.mp hlast
    exact ⟨.closed first n, hnames (.closed hnumeral hnumeral'), hlt, hlt'⟩

/-! ## One meaning -/

/-- A header names one range at most. -/
theorem NamesRange.unique {bounds' : Bounds} (h : NamesRange IsSignedNumeral header bounds)
    (h' : NamesRange IsSignedNumeral header bounds') : bounds = bounds' := by
  obtain ⟨s, a, b, hheader, hparts, hspells⟩ := h
  obtain ⟨s', a', b', hheader', hparts', hspells'⟩ := h'
  obtain rfl := List.append_cancel_left (hheader.symm.trans hheader')
  have heq := (hspells.splitOnce hparts).symm.trans (hspells'.splitOnce hparts')
  rw [Option.some.injEq, Prod.mk.injEq] at heq
  obtain ⟨rfl, rfl⟩ := heq
  cases hspells with
  | closed hfirst hlast =>
      cases hspells' with
      | closed hfirst' hlast' => rw [hfirst.unique hfirst', hlast.unique hlast']
      | opened _ => exact absurd rfl hlast.ne_nil
      | suffix _ => exact absurd rfl hfirst.ne_nil
  | opened hfirst =>
      cases hspells' with
      | closed _ hlast' => exact absurd rfl hlast'.ne_nil
      | opened hfirst' => rw [hfirst.unique hfirst']
      | suffix _ => exact absurd rfl hfirst.ne_nil
  | suffix hlength =>
      cases hspells' with
      | closed hfirst' _ => exact absurd rfl hfirst'.ne_nil
      | opened hfirst' => exact absurd rfl hfirst'.ne_nil
      | suffix hlength' => rw [hlength.unique hlength']

/-! ## Where the code decides the grammar -/

/-- The numbers of an ordered range are values of a `u64`, and no header is a range of
such numbers but for its plus signs. -/
structure HasPlainBounds (header : Str) : Prop where
  fits : ∀ bounds, NamesRange IsNumeral header bounds → bounds.IsOrdered → bounds.Fits
  unsigned : ∀ bounds, NamesRange IsSignedNumeral header bounds → bounds.Fits →
    NamesRange IsNumeral header bounds

theorem NamesRange.signed (h : NamesRange IsNumeral header bounds) :
    NamesRange IsSignedNumeral header bounds := by
  obtain ⟨s, a, b, hheader, hparts, hspells⟩ := h
  exact ⟨s, a, b, hheader, hparts, hspells.mono fun _ _ => Or.inl⟩

/-- A range has no plus sign. -/
theorem NamesRange.plus_not_mem (h : NamesRange IsNumeral header bounds) : '+' ∉ header := by
  obtain ⟨s, a, b, hheader, hparts, hspells⟩ := h
  have hsides : '+' ∉ a ∧ '+' ∉ b := by
    cases hspells with
    | closed hfirst hlast => exact ⟨hfirst.plus_not_mem, hlast.plus_not_mem⟩
    | opened hfirst => exact ⟨hfirst.plus_not_mem, List.not_mem_nil⟩
    | suffix hlength => exact ⟨List.not_mem_nil, hlength.plus_not_mem⟩
  have hs : '+' ∉ s := by
    rw [← mem_trim_iff (by decide), hparts, List.mem_append, List.mem_cons]
    rintro (hmem | hmem | hmem)
    · exact hsides.1 hmem
    · exact absurd hmem (by decide)
    · exact hsides.2 hmem
  rw [← mem_trim_iff (by decide), hheader]
  exact List.not_mem_append (by decide) hs

/-- `parse_range` decides the grammar exactly on these headers. -/
theorem readsGrammar_iff (header : Str) (total : Nat) :
    ReadsGrammar header total ↔ HasPlainBounds header := by
  constructor
  · intro h
    refine ⟨fun bounds hnames hordered => ?_, fun bounds hnames hfits => ?_⟩
    · have hne : parseRange header total ≠ .whole := by
        rw [h.valid bounds hnames hordered]
        exact bounds.select_ne_whole total
      obtain ⟨bounds', hnames', hfits⟩ := exists_names_of_parseRange hne
      rwa [hnames.signed.unique hnames']
    · by_contra hplain
      apply parseRange_ne_whole hnames hfits total
      apply h.malformed
      intro bounds' hnames'
      rw [hnames.unique hnames'.signed] at hplain
      exact hplain hnames'
  · intro h
    constructor
    · intro bounds hnames hordered
      exact (parseRange_of_names hnames.signed (h.fits bounds hnames hordered) total).1 hordered
    · intro hnone
      by_contra hne
      obtain ⟨bounds, hnames, hfits⟩ := exists_names_of_parseRange hne
      exact hnone bounds (h.unsigned bounds hnames hfits)

/-- A plus sign before the numbers, and a number that no `u64` holds. -/
theorem readsGrammar_signed_large :
    ¬ ReadsGrammar "bytes=+0-+3".toList 10 ∧
      ¬ ReadsGrammar "bytes=0-18446744073709551616".toList 10 := by
  constructor
  · intro h
    have hread : parseRange "bytes=+0-+3".toList 10 = .satisfiable 0 3 := by decide
    have hwhole : parseRange "bytes=+0-+3".toList 10 = .whole := by
      exact h.malformed fun bounds hnames => hnames.plus_not_mem (by decide)
    rw [hread] at hwhole
    cases hwhole
  · intro h
    have hnames : NamesRange IsNumeral "bytes=0-18446744073709551616".toList
        (.closed 0 18446744073709551616) := by
      refine ⟨"0-18446744073709551616".toList, "0".toList, "18446744073709551616".toList,
        by decide, by decide, .closed ?_ ?_⟩
      · exact ⟨by decide, by decide, by decide⟩
      · exact ⟨by decide, by decide, by decide⟩
    have hread : parseRange "bytes=0-18446744073709551616".toList 10 = .whole := by decide
    rw [h.valid _ hnames (Nat.zero_le _)] at hread
    cases hread

end DigDns
