import DigDns.Support.Text

/-!
# Dotted names

Names of labels with dots between them, up to ASCII case: where a name is cut at a
dot, changing the case of its letters changes nothing, and the last label of a name
is what stands behind its last dot.
-/

namespace Rust

/-- Only letters change with case. -/
theorem toLower_eq_iff {c d : Char} (hd : ¬ (97 ≤ d.toNat ∧ d.toNat ≤ 122))
    (hd' : ¬ (65 ≤ d.toNat ∧ d.toNat ≤ 90)) : c.toLower = d ↔ c = d := by
  rw [← Char.toNat_inj, ← Char.toNat_inj, toNat_toLower]
  split_ifs <;> omega

@[simp] theorem toAsciiLowercase_append (s t : Str) :
    toAsciiLowercase (s ++ t) = toAsciiLowercase s ++ toAsciiLowercase t :=
  List.map_append

@[simp] theorem toAsciiLowercase_cons (c : Char) (s : Str) :
    toAsciiLowercase (c :: s) = c.toLower :: toAsciiLowercase s := rfl

theorem eqIgnoreAsciiCase_iff {s t : Str} :
    eqIgnoreAsciiCase s t = true ↔ toAsciiLowercase s = toAsciiLowercase t :=
  beq_iff_eq

/-- A string whose lower case has a dot has that dot. -/
theorem toAsciiLowercase_eq_append_dot_iff {s x y : Str} :
    toAsciiLowercase s = x ++ '.' :: y ↔
      ∃ a b, s = a ++ '.' :: b ∧ toAsciiLowercase a = x ∧ toAsciiLowercase b = y := by
  constructor
  · intro h
    obtain ⟨a, rest, rfl, ha, hrest⟩ := List.map_eq_append_iff.mp h
    obtain ⟨c, b, rfl, hc, hb⟩ := List.map_eq_cons_iff.mp hrest
    rw [(toLower_eq_iff (by decide) (by decide)).mp hc]
    exact ⟨a, b, rfl, ha, hb⟩
  · rintro ⟨a, b, rfl, rfl, rfl⟩
    rw [toAsciiLowercase_append, toAsciiLowercase_cons]
    rfl

theorem dot_mem_toAsciiLowercase {s : Str} : '.' ∈ toAsciiLowercase s ↔ '.' ∈ s := by
  rw [toAsciiLowercase, List.mem_map]
  constructor
  · rintro ⟨c, hc, hlower⟩
    rwa [(toLower_eq_iff (by decide) (by decide)).mp hlower] at hc
  · exact fun h => ⟨'.', h, rfl⟩

theorem map_byteToAsciiLowercase_utf8 (s : Str) :
    (utf8 s).map byteToAsciiLowercase = utf8 (toAsciiLowercase s) := by
  induction s with
  | nil => rfl
  | cons c s ih =>
      rw [utf8_cons, List.map_append, ih, toAsciiLowercase_cons, utf8_cons]
      congr 1
      by_cases hc : c.toNat < 128
      · have hlower : c.toLower.toNat < 128 := by
          rw [toNat_toLower]
          split_ifs <;> omega
        have hbyte : (UInt8.ofNat c.toNat).toNat = c.toNat := by
          rw [UInt8.toNat_ofNat']
          omega
        rw [utf8EncodeChar_of_ascii hc, utf8EncodeChar_of_ascii hlower, toNat_toLower,
          List.map_singleton, byteToAsciiLowercase, hbyte]
        split_ifs
        · rw [UInt8.ofNat_add]
          rfl
        · rfl
      · have hself : c.toLower = c := by
          rw [← Char.toNat_inj, toNat_toLower, if_neg (by omega)]
        have hkeep : ∀ b ∈ String.utf8EncodeChar c, byteToAsciiLowercase b = b := by
          intro b hb
          have htop := le_of_mem_utf8EncodeChar (by omega) hb
          rw [byteToAsciiLowercase, if_neg (by omega)]
        rw [hself, List.map_congr_left hkeep, List.map_id']

/-- Bytes are compared without case as the strings they encode are. -/
theorem bytesEqIgnoreAsciiCase_utf8 {s t : Str} :
    bytesEqIgnoreAsciiCase (utf8 s) (utf8 t) = true ↔
      toAsciiLowercase s = toAsciiLowercase t := by
  rw [bytesEqIgnoreAsciiCase, beq_iff_eq, map_byteToAsciiLowercase_utf8,
    map_byteToAsciiLowercase_utf8, utf8_injective.eq_iff]

/-! ## Labels -/

/-- Labels with dots between them. -/
def dotted (labels : List Str) : Str := List.intercalate ['.'] labels

theorem dotted_singleton (l : Str) : dotted [l] = l := List.intercalate_singleton

theorem dotted_cons {labels : List Str} (l : Str) (hne : labels ≠ []) :
    dotted (l :: labels) = l ++ '.' :: dotted labels := by
  rw [dotted, List.intercalate_cons_of_ne_nil hne, List.append_assoc, List.singleton_append]
  rfl

theorem dotted_concat {labels : List Str} (l : Str) (hne : labels ≠ []) :
    dotted (labels ++ [l]) = dotted labels ++ '.' :: l := by
  induction labels with
  | nil => exact absurd rfl hne
  | cons a labels ih =>
      cases labels with
      | nil =>
          rw [List.singleton_append, dotted_cons a (List.cons_ne_nil l []), dotted_singleton,
            dotted_singleton]
      | cons b labels =>
          have hrest : b :: labels ≠ [] := List.cons_ne_nil b labels
          rw [List.cons_append, dotted_cons a (by simp), ih hrest, dotted_cons a hrest,
            List.append_assoc, List.cons_append]

theorem toAsciiLowercase_dotted (labels : List Str) :
    toAsciiLowercase (dotted labels) = dotted (labels.map toAsciiLowercase) := by
  induction labels with
  | nil => rfl
  | cons l labels ih =>
      cases labels with
      | nil => rw [List.map_singleton, dotted_singleton, dotted_singleton]
      | cons b labels =>
          have hmap : (b :: labels).map toAsciiLowercase ≠ [] := List.cons_ne_nil _ _
          rw [List.map_cons, dotted_cons l (List.cons_ne_nil b labels),
            dotted_cons (toAsciiLowercase l) hmap, ← ih, toAsciiLowercase_append]
          rfl

/-- What stands behind the last dot. -/
theorem dot_suffix_iff {s l t : Str} (hl : '.' ∉ l) (ht : '.' ∉ t) :
    ('.' :: t) <:+ s ++ '.' :: l ↔ l = t := by
  constructor
  · rintro ⟨front, hfront⟩
    have hcut := rsplitOnce_append (s := front) ht
    rw [hfront, rsplitOnce_append hl] at hcut
    exact (Prod.mk.inj (Option.some.inj hcut)).2
  · rintro rfl
    exact List.suffix_append s _

/-- A name lies under a label, or is it, exactly when its last label is that. -/
theorem dot_suffix_dotted_iff {labels : List Str} {t : Str} (hne : labels ≠ [])
    (hdots : ∀ l ∈ labels, '.' ∉ l) (ht : '.' ∉ t) :
    ('.' :: t) <:+ dotted labels ∨ dotted labels = t ↔ labels.getLast? = some t := by
  obtain ⟨front, l, rfl⟩ := (List.eq_nil_or_concat labels).resolve_left hne
  have hl : '.' ∉ l := hdots l (by simp)
  rw [List.concat_eq_append, List.getLast?_concat, Option.some.injEq]
  by_cases hfront : front = []
  · rw [hfront, List.nil_append, dotted_singleton]
    refine or_iff_right fun hsuffix => hl ?_
    exact hsuffix.subset List.mem_cons_self
  · rw [dotted_concat l hfront, dot_suffix_iff hl ht]
    refine or_iff_left fun heq => ht ?_
    rw [← heq]
    simp

/-- A dotted name ends with its last label. -/
theorem suffix_dotted_concat (labels : List Str) (l : Str) : l <:+ dotted (labels ++ [l]) := by
  by_cases hne : labels = []
  · rw [hne, List.nil_append, dotted_singleton]
  · rw [dotted_concat l hne]
    exact (List.suffix_cons '.' l).trans (List.suffix_append _ _)

/-! ## Cutting names -/

theorem splitNext_append_cons {c : Char} {a b : Str} (ha : c ∉ a) :
    splitNext c (a ++ c :: b) = a := by
  rw [splitNext, List.splitOn_append_cons_self_of_not_mem ha]
  rfl

theorem splitNext_prefix_self (c : Char) (s : Str) : splitNext c s <+: s := by
  by_cases hmem : c ∈ s
  · obtain ⟨a, b, rfl, ha⟩ := List.eq_append_cons_of_mem hmem
    rw [splitNext_append_cons ha]
    exact List.prefix_append _ _
  · rw [splitNext, List.splitOn_eq_singleton hmem]
    exact List.prefix_rfl

theorem stripSuffix_getD_prefix_self (p s : Str) : (stripSuffix p s).getD s <+: s := by
  rw [stripSuffix]
  split
  · exact List.take_prefix _ _
  · exact List.prefix_rfl

/-- What stands before a colon is not changed by what stands behind the last one. -/
theorem splitNext_append {c : Char} {s t : Str} (ht : c ∉ t) :
    splitNext c (s ++ t) = splitNext c s ++ if c ∈ s then [] else t := by
  split_ifs with hs
  · obtain ⟨a, b, rfl, ha⟩ := List.eq_append_cons_of_mem hs
    rw [List.append_assoc, List.cons_append, splitNext_append_cons ha, splitNext_append_cons ha,
      List.append_nil]
  · rw [splitNext, splitNext, List.splitOn_eq_singleton hs, List.splitOn_eq_singleton]
    · rfl
    · exact fun hmem => (List.mem_append.mp hmem).elim hs ht

/-- Dropping all final dots or none of them leaves the same name before the colon, when
that name has no final dot. -/
theorem splitNext_rdropWhile_dot {s : Str} (hlast : (splitNext ':' s).getLast? ≠ some '.') :
    splitNext ':' (s.rdropWhile (· = '.')) = splitNext ':' s := by
  have hdots : ∀ c ∈ s.rtakeWhile (· = '.'), c = '.' := fun c hc => by
    simpa using List.mem_rtakeWhile_imp hc
  have hcolon : ':' ∉ s.rtakeWhile (· = '.') := by
    intro hmem
    cases hdots _ hmem
  have hcut := splitNext_append (s := s.rdropWhile (· = '.')) hcolon
  rw [List.rdropWhile_append_rtakeWhile] at hcut
  rw [hcut] at hlast ⊢
  split_ifs at hlast ⊢ with hmem
  · rw [List.append_nil]
  · cases hdrop : s.rtakeWhile (· = '.') using List.reverseRecOn with
    | nil => rw [List.append_nil]
    | append_singleton front c _ =>
        rw [hdrop] at hlast hdots
        refine absurd ?_ hlast
        rw [← List.append_assoc, List.getLast?_concat, hdots c (by simp)]

/-- Nor does dropping one dot first. -/
theorem rdropWhile_stripSuffix_dot (s : Str) :
    ((stripSuffix ['.'] s).getD s).rdropWhile (· = '.') = s.rdropWhile (· = '.') := by
  rw [stripSuffix]
  split_ifs with hdot
  · obtain ⟨t, rfl⟩ := List.isSuffixOf_iff_suffix.mp hdot
    rw [List.length_append, Nat.add_sub_cancel, List.take_left, Option.getD_some,
      List.rdropWhile_concat_pos _ _ _ (by rfl)]
  · rfl

/-! ## Host names -/

/-- A letter, a digit or a hyphen. -/
def isLdh (c : Char) : Bool :=
  (97 ≤ c.toNat && c.toNat ≤ 122) || (65 ≤ c.toNat && c.toNat ≤ 90) ||
    (48 ≤ c.toNat && c.toNat ≤ 57) || c == '-'

theorem isLdh_iff {c : Char} :
    isLdh c = true ↔ (97 ≤ c.toNat ∧ c.toNat ≤ 122) ∨ (65 ≤ c.toNat ∧ c.toNat ≤ 90) ∨
      (48 ≤ c.toNat ∧ c.toNat ≤ 57) ∨ c.toNat = 45 := by
  have hhyphen : c = '-' ↔ c.toNat = 45 := Char.toNat_inj.symm
  simp only [isLdh, Bool.or_eq_true, Bool.and_eq_true, decide_eq_true_eq, beq_iff_eq, hhyphen,
    or_assoc]

@[simp] theorem isLdh_toLower (c : Char) : isLdh c.toLower = isLdh c := by
  apply Bool.eq_iff_iff.mpr
  rw [isLdh_iff, isLdh_iff, toNat_toLower]
  split_ifs <;> omega

/-- What a host name is written with. -/
def IsName (s : Str) : Prop := ∀ c ∈ s, isLdh c = true ∨ c = '.'

namespace IsName

variable {s t : Str}

theorem nil : IsName [] := nofun

theorem append (hs : IsName s) (ht : IsName t) : IsName (s ++ t) :=
  List.forall_mem_append.mpr ⟨hs, ht⟩

theorem dot_cons (hs : IsName s) : IsName ('.' :: s) :=
  List.forall_mem_cons.mpr ⟨.inr rfl, hs⟩

theorem of_lower (hs : IsName (toAsciiLowercase s)) : IsName s := by
  intro c hc
  have hlower := hs c.toLower (List.mem_map_of_mem hc)
  rwa [isLdh_toLower, toLower_eq_iff (by decide) (by decide)] at hlower

theorem toNat_cases (hs : IsName s) {c : Char} (hc : c ∈ s) :
    (97 ≤ c.toNat ∧ c.toNat ≤ 122) ∨ (65 ≤ c.toNat ∧ c.toNat ≤ 90) ∨
      (48 ≤ c.toNat ∧ c.toNat ≤ 57) ∨ c.toNat = 45 ∨ c.toNat = 46 := by
  rcases hs c hc with hldh | rfl
  · have hrange := isLdh_iff.mp hldh
    omega
  · decide

theorem not_whitespace (hs : IsName s) {c : Char} (hc : c ∈ s) : isWhitespace c = false := by
  have hrange := hs.toNat_cases hc
  simp only [isWhitespace, Bool.or_eq_false_iff, Bool.and_eq_false_iff,
    decide_eq_false_iff_not, beq_eq_false_iff_ne]
  omega

/-- A name has no white space around it. -/
theorem trim_eq (hs : IsName s) : trim s = s :=
  trim_of_no_whitespace fun _ hc => hs.not_whitespace hc

theorem colon_not_mem (hs : IsName s) : ':' ∉ s := by
  intro hmem
  have hrange := hs.toNat_cases hmem
  simp at hrange

/-- A name has no port. -/
theorem splitNext_eq (hs : IsName s) : splitNext ':' s = s := by
  rw [splitNext, List.splitOn_eq_singleton hs.colon_not_mem]
  rfl

end IsName

end Rust
