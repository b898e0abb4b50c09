import DigDns.Support.Text
import Mathlib.Algebra.Order.BigOperators.Group.List
import Mathlib.Algebra.Order.Group.Nat
import Mathlib.Data.List.Chain

/-!
# Unit files

The configuration files of `systemd`: lines of comments, group headers and
`key=value` settings, and how the value of an `Environment=` setting is read.
A value is cut at blanks outside quotes, quotes group and are dropped, and
specifiers after `%` are expanded.
-/

namespace UnitFile

open Rust

/-- Lines, each closed by a newline. -/
def unlines (ls : List Str) : Str := ls.flatMap (· ++ ['\n'])

/-- The blanks around keys and values, and between words. -/
def isBlank (c : Char) : Bool := c = ' ' || c = '\t' || c = '\r' || c = '\n'

/-- A string without the blanks at its ends. -/
def strip (s : Str) : Str := (s.dropWhile isBlank).rdropWhile isBlank

/-- A setting, in the group it stands in. -/
structure Setting where
  group : Str
  key : Str
  value : Str
deriving DecidableEq

/-- What one line says. -/
inductive Line
  | nothing
  | header (group : Str)
  | setting (key value : Str)
deriving DecidableEq

/-- Reads a line that is stripped of blanks. -/
def readStripped : Str → Line
  | [] => .nothing
  | c :: l =>
      if c = '#' ∨ c = ';' then .nothing
      else if c = '[' ∧ l.getLast? = some ']' then .header l.dropLast
      else
        match splitOnce '=' (c :: l) with
        | some (key, value) => .setting (strip key) (strip value)
        | none => .nothing

/-- Reads lines that begin in a group. -/
def readLines : Str → List Str → List Setting
  | _, [] => []
  | group, l :: ls =>
      match readStripped (strip l) with
      | .nothing => readLines group ls
      | .header group' => readLines group' ls
      | .setting key value => ⟨group, key, value⟩ :: readLines group ls

/-- The group after some lines. -/
def lastGroup : Str → List Str → Str
  | group, [] => group
  | group, l :: ls =>
      match readStripped (strip l) with
      | .header group' => lastGroup group' ls
      | _ => lastGroup group ls

/-- The settings of a file. -/
def read (text : Str) : List Setting := readLines [] (text.splitOn '\n')

/-! ## Reading lines -/

theorem splitOn_unlines {ls : List Str} (h : ∀ l ∈ ls, '\n' ∉ l) :
    (unlines ls).splitOn '\n' = ls ++ [[]] := by
  induction ls with
  | nil => rfl
  | cons l ls ih =>
      have hl : '\n' ∉ l := h l List.mem_cons_self
      have hcons : unlines (l :: ls) = l ++ '\n' :: unlines ls := by simp [unlines]
      rw [hcons, List.splitOn_append_cons_self_of_not_mem hl,
        ih fun l' hl' => h l' (List.mem_cons_of_mem _ hl')]
      rfl

theorem readLines_append (group : Str) (as bs : List Str) :
    readLines group (as ++ bs) = readLines group as ++ readLines (lastGroup group as) bs := by
  induction as generalizing group with
  | nil => rfl
  | cons a as ih =>
      rw [List.cons_append, readLines, readLines, lastGroup]
      cases readStripped (strip a) with
      | nothing => exact ih group
      | header group' => exact ih group'
      | setting key value => exact congrArg _ (ih group)

/-- The settings of lines that carry no newline of their own. -/
theorem read_unlines {ls : List Str} (h : ∀ l ∈ ls, '\n' ∉ l) :
    read (unlines ls) = readLines [] ls := by
  rw [read, splitOn_unlines h, readLines_append]
  exact List.append_nil _

theorem dropWhile_of_head {s : Str} (h : ∀ c ∈ s.head?, isBlank c = false) :
    s.dropWhile isBlank = s := by
  cases s with
  | nil => rfl
  | cons c s => simp [h c rfl]

theorem strip_of_ends {s : Str} (hhead : ∀ c ∈ s.head?, isBlank c = false)
    (hlast : ∀ c ∈ s.getLast?, isBlank c = false) : strip s = s := by
  rw [strip, dropWhile_of_head hhead, List.rdropWhile,
    dropWhile_of_head (by simpa using hlast), List.reverse_reverse]

/-- A setting written down without blanks around it. -/
theorem readStripped_setting {c : Char} {key value : Str} (hc : c ≠ '#' ∧ c ≠ ';' ∧ c ≠ '[')
    (hkey : '=' ∉ c :: key) :
    readStripped (c :: key ++ '=' :: value) = .setting (strip (c :: key)) (strip value) := by
  obtain ⟨hhash, hsemi, hbracket⟩ := hc
  rw [List.cons_append, readStripped, if_neg (by simp [hhash, hsemi]), if_neg (by simp [hbracket]),
    ← List.cons_append, splitOnce_append hkey]

/-- A setting as it is written down. -/
def settingLine (setting : Str × Str) : Str := setting.1 ++ '=' :: setting.2

/-- A setting that a line of its own can carry. -/
structure IsClean (setting : Str × Str) : Prop where
  start : ∃ c ∈ setting.1.head?, isBlank c = false ∧ c ≠ '#' ∧ c ≠ ';' ∧ c ≠ '['
  key : ∃ c ∈ setting.1.getLast?, isBlank c = false
  first : ∃ c ∈ setting.2.head?, isBlank c = false
  last : ∃ c ∈ setting.2.getLast?, isBlank c = false
  equals : '=' ∉ setting.1
  newline : '\n' ∉ setting.1 ++ setting.2

instance (setting : Str × Str) : Decidable (IsClean setting) :=
  decidable_of_iff
    ((∃ c ∈ setting.1.head?, isBlank c = false ∧ c ≠ '#' ∧ c ≠ ';' ∧ c ≠ '[') ∧
      (∃ c ∈ setting.1.getLast?, isBlank c = false) ∧
      (∃ c ∈ setting.2.head?, isBlank c = false) ∧
      (∃ c ∈ setting.2.getLast?, isBlank c = false) ∧
      '=' ∉ setting.1 ∧ '\n' ∉ setting.1 ++ setting.2)
    ⟨fun ⟨hstart, hkey, hfirst, hlast, hequals, hnewline⟩ =>
      ⟨hstart, hkey, hfirst, hlast, hequals, hnewline⟩,
    fun h => ⟨h.start, h.key, h.first, h.last, h.equals, h.newline⟩⟩

/-- A setting that is given by two string literals. -/
theorem isClean_literal {key value : Str} (h : IsClean (key, value)) :
    IsClean ((String.ofList key).toList, (String.ofList value).toList) := by
  rw [String.toList_ofList, String.toList_ofList]
  exact h

theorem strip_eq_self {s : Str} (hfirst : ∃ c ∈ s.head?, isBlank c = false)
    (hlast : ∃ c ∈ s.getLast?, isBlank c = false) : strip s = s := by
  obtain ⟨c, hc, hcblank⟩ := hfirst
  obtain ⟨d, hd, hdblank⟩ := hlast
  refine strip_of_ends (fun e he => ?_) fun e he => ?_
  · rw [Option.mem_unique he hc]
    exact hcblank
  · rw [Option.mem_unique he hd]
    exact hdblank

/-- What stands at the end of a string is not changed by what stands before. -/
theorem endsVisibly_append {t : Str} (s : Str) (c : Char)
    (h : ∃ d ∈ t.getLast?, isBlank d = false) :
    ∃ d ∈ (s ++ c :: t).getLast?, isBlank d = false := by
  obtain ⟨d, hd, hblank⟩ := h
  refine ⟨d, ?_, hblank⟩
  rw [List.getLast?_append, List.getLast?_cons, Option.mem_def.mp hd]
  rfl

theorem startsVisibly_append {s : Str} (t : Str) (h : ∃ c ∈ s.head?, isBlank c = false) :
    ∃ c ∈ (s ++ t).head?, isBlank c = false := by
  obtain ⟨c, hc, hblank⟩ := h
  refine ⟨c, ?_, hblank⟩
  rw [List.head?_append, Option.mem_def.mp hc]
  rfl

/-- A line with one setting, without blanks before its key and after its value. -/
theorem readStripped_settingLine {setting : Str × Str}
    (hstart : ∃ c ∈ setting.1.head?, isBlank c = false ∧ c ≠ '#' ∧ c ≠ ';' ∧ c ≠ '[')
    (hlast : ∃ c ∈ setting.2.getLast?, isBlank c = false) (hequals : '=' ∉ setting.1) :
    readStripped (strip (settingLine setting)) = .setting (strip setting.1) (strip setting.2) := by
  obtain ⟨key, value⟩ := setting
  obtain ⟨c, hc, hcblank, hsetting⟩ := hstart
  cases key with
  | nil => cases hc
  | cons c' key =>
      cases hc
      have hline : strip (c :: key ++ '=' :: value) = c :: key ++ '=' :: value :=
        strip_eq_self ⟨c, rfl, hcblank⟩ (endsVisibly_append _ _ hlast)
      rw [settingLine, hline]
      exact readStripped_setting hsetting hequals

theorem readLines_settings (group : Str) {settings : List (Str × Str)} (ls : List Str)
    (h : ∀ s ∈ settings, IsClean s) :
    readLines group (settings.map settingLine ++ ls) =
      settings.map (fun s => ⟨group, s.1, s.2⟩) ++ readLines group ls := by
  induction settings with
  | nil => rfl
  | cons s settings ih =>
      obtain ⟨hs, hrest⟩ := List.forall_mem_cons.mp h
      have hfirst : ∃ c ∈ s.1.head?, isBlank c = false := by
        obtain ⟨c, hc, hblank, -⟩ := hs.start
        exact ⟨c, hc, hblank⟩
      rw [List.map_cons, List.cons_append, readLines,
        readStripped_settingLine hs.start hs.last hs.equals, strip_eq_self hfirst hs.key,
        strip_eq_self hs.first hs.last, ih hrest]
      rfl

/-- Comments and empty lines set nothing. -/
theorem readLines_ignored (group : Str) {cs : List Str} (ls : List Str)
    (h : ∀ l ∈ cs, readStripped (strip l) = .nothing) :
    readLines group (cs ++ ls) = readLines group ls := by
  induction cs with
  | nil => rfl
  | cons c cs ih =>
      obtain ⟨hc, hrest⟩ := List.forall_mem_cons.mp h
      rw [List.cons_append, readLines, hc]
      exact ih hrest

theorem readLines_setting (group : Str) {l key value : Str} (ls : List Str)
    (h : readStripped (strip l) = .setting key value) :
    readLines group (l :: ls) = ⟨group, key, value⟩ :: readLines group ls := by
  rw [readLines, h]

theorem readLines_header (group : Str) {group' l : Str} (ls : List Str)
    (h : readStripped (strip l) = .header group') :
    readLines group (l :: ls) = readLines group' ls := by
  rw [readLines, h]

theorem IsClean.newline_not_mem {setting : Str × Str} (h : IsClean setting) :
    '\n' ∉ settingLine setting := by
  have hnewline := h.newline
  simp only [settingLine, List.mem_append, List.mem_cons, not_or] at hnewline ⊢
  exact ⟨hnewline.1, by decide, hnewline.2⟩

/-! ## Words and specifiers -/

/-- Cuts a value at the blanks outside quotes, `quote` being the open quote and
`word` the word so far; there is no reading with a quote left open. -/
def words : Option Char → Option Str → Str → Option (List Str)
  | some _, _, [] => none
  | none, word, [] => some word.toList
  | some quote, word, c :: s =>
      if c = quote then words none word s
      else words (some quote) (some (word.getD [] ++ [c])) s
  | none, word, c :: s =>
      if isBlank c then (words none none s).map (word.toList ++ ·)
      else if c = '"' ∨ c = '\'' then words (some c) (some (word.getD [])) s
      else words none (some (word.getD [] ++ [c])) s

/-- Expands the specifiers of a word: `%%` is a percent sign, and a `%` before a
character without a meaning stays. -/
def expand (specifier : Char → Option Str) : Str → Str
  | [] => []
  | [c] => [c]
  | c :: d :: s =>
      if c = '%' then
        (if d = '%' then ['%'] else (specifier d).getD ['%', d]) ++ expand specifier s
      else c :: expand specifier (d :: s)

/-- The assignments in a value; a word without `=` assigns nothing. -/
def assignments (specifier : Char → Option Str) (value : Str) : List (Str × Str) :=
  ((words none none value).getD []).filterMap fun word => splitOnce '=' (expand specifier word)

/-- The environment that the settings of a service give. -/
def environment (specifier : Char → Option Str) (settings : List Setting) : List (Str × Str) :=
  settings.flatMap fun s =>
    if s.group = "Service".toList ∧ s.key = "Environment".toList then
      assignments specifier s.value
    else []

/-- The command lines that the settings of a service give. -/
def commands (specifier : Char → Option Str) (settings : List Setting) : List (List Str) :=
  settings.filterMap fun s =>
    if s.group = "Service".toList ∧ s.key = "ExecStart".toList then
      (words none none s.value).map (List.map (expand specifier))
    else none

/-- A character that ends a word or begins a quote. -/
def isSpecial (c : Char) : Bool := isBlank c || c = '"' || c = '\''

/-- The adjacent characters that are not expanded. -/
def NoSpecifier (letters : Char → Bool) (c d : Char) : Prop :=
  c = '%' → d ≠ '%' ∧ letters d = false

instance (letters : Char → Bool) : DecidableRel (NoSpecifier letters) :=
  fun _ _ => inferInstanceAs (Decidable (_ → _ ∧ _))

/-- A string that is read as it stands, where `letters` are the specifiers. -/
structure Plain (letters : Char → Bool) (s : Str) : Prop where
  special : ∀ c ∈ s, isSpecial c = false
  percent : s.IsChain (NoSpecifier letters)

/-! ## What is read as it stands -/

/-- Cutting into words makes nothing longer. -/
theorem length_words {quote : Option Char} {word : Option Str} {s : Str} {ws : List Str}
    (h : words quote word s = some ws) :
    ws.flatten.length ≤ (word.getD []).length + s.length := by
  induction s generalizing quote word ws with
  | nil =>
      cases quote with
      | some quote => cases h
      | none =>
          obtain rfl := Option.some.inj h
          cases word with
          | none => simp
          | some word => simp
  | cons c s ih =>
      cases quote with
      | some quote =>
          rw [words] at h
          split at h
          · have := ih h
            rw [List.length_cons]
            omega
          · have := ih h
            simp only [Option.getD_some, List.length_append, List.length_singleton] at this
            rw [List.length_cons]
            omega
      | none =>
          rw [words] at h
          split at h
          · obtain ⟨rest, hrest, rfl⟩ := Option.map_eq_some_iff.mp h
            have := ih hrest
            cases word with
            | none =>
                simp at this ⊢
                omega
            | some word =>
                simp at this ⊢
                omega
          · split at h
            · have := ih h
              rw [Option.getD_some] at this
              rw [List.length_cons]
              omega
            · have := ih h
              simp only [Option.getD_some, List.length_append, List.length_singleton] at this
              rw [List.length_cons]
              omega

/-- A blank or a quote outside quotes is lost. -/
theorem length_words_lt {word : Option Str} {s : Str} {ws : List Str}
    (h : words none word s = some ws) {c : Char} (hc : c ∈ s) (hspecial : isSpecial c = true) :
    ws.flatten.length < (word.getD []).length + s.length := by
  induction s generalizing word ws with
  | nil => cases hc
  | cons d s ih =>
      rw [words] at h
      split at h
      · obtain ⟨rest, hrest, rfl⟩ := Option.map_eq_some_iff.mp h
        have := length_words hrest
        cases word with
        | none =>
            simp at this ⊢
            omega
        | some word =>
            simp at this ⊢
            omega
      · split at h
        · have := length_words h
          rw [Option.getD_some] at this
          rw [List.length_cons]
          omega
        · rename_i hblank hquote
          have hmem : c ∈ s := by
            rcases List.mem_cons.mp hc with rfl | hmem
            · simp [isSpecial, hblank] at hspecial
              exact absurd hspecial hquote
            · exact hmem
          have := ih h hmem
          simp only [Option.getD_some, List.length_append, List.length_singleton] at this
          rw [List.length_cons]
          omega

/-- A character that neither ends a word nor begins a quote goes into the word. -/
theorem words_cons {word : Option Str} {c : Char} (s : Str) (hc : isSpecial c = false) :
    words none word (c :: s) = words none (some (word.getD [] ++ [c])) s := by
  simp only [isSpecial, Bool.or_eq_false_iff, decide_eq_false_iff_not] at hc
  obtain ⟨⟨hblank, hdouble⟩, hsingle⟩ := hc
  rw [words, if_neg (by simp [hblank]), if_neg (by simp [hdouble, hsingle])]

theorem words_of_not_special {word s : Str} (h : ∀ c ∈ s, isSpecial c = false) :
    words none (some word) s = some [word ++ s] := by
  induction s generalizing word with
  | nil => simp [words]
  | cons c s ih =>
      rw [words_cons s (h c List.mem_cons_self), ih fun d hd => h d (List.mem_cons_of_mem _ hd)]
      simp

/-- A string without blanks and quotes is one word. -/
theorem words_eq_singleton {s : Str} (hs : s ≠ []) (h : ∀ c ∈ s, isSpecial c = false) :
    words none none s = some [s] := by
  cases s with
  | nil => exact absurd rfl hs
  | cons c s =>
      rw [words_cons s (h c List.mem_cons_self),
        words_of_not_special fun d hd => h d (List.mem_cons_of_mem _ hd)]
      rfl

/-- A word ends at a blank. -/
theorem words_append_space {w : Str} (rest : Str) (hw : w ≠ [])
    (h : ∀ c ∈ w, isSpecial c = false) :
    words none none (w ++ ' ' :: rest) = (words none none rest).map (w :: ·) := by
  have hopen : ∀ word : Str, words none (some word) (w ++ ' ' :: rest) =
      (words none none rest).map ((word ++ w) :: ·) := by
    clear hw
    induction w with
    | nil =>
        intro word
        have hblank : isBlank ' ' = true := rfl
        rw [List.nil_append, words, if_pos hblank, List.append_nil]
        rfl
    | cons c w ih =>
        intro word
        rw [List.cons_append, words_cons _ (h c List.mem_cons_self),
          ih fun d hd => h d (List.mem_cons_of_mem _ hd)]
        simp
  cases w with
  | nil => exact absurd rfl hw
  | cons c w =>
      have hword := hopen []
      rw [List.cons_append, words_cons _ (h c List.mem_cons_self)] at hword ⊢
      exact hword

variable {letters : Char → Bool}

/-- A string without specifiers stays, whatever they stand for. -/
theorem expand_of_noSpecifier {specifier : Char → Option Str} {s : Str}
    (hspecifier : ∀ c, letters c = false → specifier c = none)
    (h : s.IsChain (NoSpecifier letters)) : expand specifier s = s := by
  induction s using expand.induct with
  | case1 => rfl
  | case2 c => rfl
  | case3 d s ih =>
      obtain ⟨hpair, hrest⟩ := List.isChain_cons_cons.mp h
      obtain ⟨hpercent, hletter⟩ := hpair rfl
      rw [expand, if_pos rfl, if_neg hpercent, hspecifier d hletter, ih hrest.tail]
      rfl
  | case4 c d s hc ih =>
      rw [expand, if_neg hc, ih (List.isChain_cons_cons.mp h).2]

/-- Where specifiers stand for nothing, expansion makes nothing longer. -/
theorem length_expand (letters : Char → Bool) (s : Str) :
    (expand (fun c => if letters c then some [] else none) s).length ≤ s.length := by
  induction s using expand.induct with
  | case1 => exact le_rfl
  | case2 c => exact le_rfl
  | case3 d s ih =>
      rw [expand, if_pos rfl, List.length_append, List.length_cons, List.length_cons]
      have hpair : (if d = '%' then ['%']
          else (if letters d then some [] else none).getD ['%', d]).length ≤ 2 := by
        split
        · simp
        · split <;> simp
      omega
  | case4 c d s hc ih =>
      rw [expand, if_neg hc, List.length_cons, List.length_cons]
      omega

/-- An expansion that keeps the length had nothing to expand. -/
theorem noSpecifier_of_length {s : Str}
    (h : (expand (fun c => if letters c then some [] else none) s).length = s.length) :
    s.IsChain (NoSpecifier letters) := by
  induction s using expand.induct with
  | case1 => exact .nil
  | case2 c => exact .singleton c
  | case3 d s ih =>
      rw [expand, if_pos rfl, List.length_append, List.length_cons, List.length_cons] at h
      have hrest := length_expand letters s
      by_cases hpercent : d = '%'
      · rw [if_pos hpercent, List.length_singleton] at h
        omega
      rw [if_neg hpercent] at h
      cases hletter : letters d with
      | true =>
          simp only [hletter, if_true, Option.getD_some, List.length_nil] at h
          omega
      | false =>
          simp only [hletter, Bool.false_eq_true, if_false, Option.getD_none, List.length_cons,
            List.length_nil] at h
          have hchain := ih (by omega)
          refine List.isChain_cons_cons.mpr ⟨fun _ => ⟨hpercent, hletter⟩, hchain.cons ?_⟩
          exact fun _ _ hd => absurd hd hpercent
  | case4 c d s hc ih =>
      rw [expand, if_neg hc, List.length_cons, List.length_cons] at h
      exact List.isChain_cons_cons.mpr ⟨fun hpercent => absurd hpercent hc, ih (by omega)⟩

/-- A value is read as one assignment, the same on every host, exactly when there
is nothing in it to cut, to group or to expand. -/
theorem assignments_iff {key value : Str} (hkey : '=' ∉ key) :
    (∀ host : Char → Str,
      assignments (fun c => if letters c then some (host c) else none) (key ++ '=' :: value) =
        [(key, value)]) ↔ Plain letters (key ++ '=' :: value) := by
  constructor
  · intro h
    have hempty := h fun _ => []
    -- The word that holds the assignment is as long as the whole value.
    rw [assignments] at hempty
    cases hwords : words none none (key ++ '=' :: value) with
    | none => simp [hwords] at hempty
    | some ws =>
        rw [hwords, Option.getD_some] at hempty
        obtain ⟨word, hword, hsplit⟩ : ∃ word ∈ ws, splitOnce '='
            (expand (fun c => if letters c then some [] else none) word) = some (key, value) := by
          have hmem : (key, value) ∈ [(key, value)] := List.mem_singleton_self _
          rw [← hempty] at hmem
          exact List.mem_filterMap.mp hmem
        have hexpand := (splitOnce_eq_some_iff.mp hsplit).1
        have hshorter := length_expand letters word
        rw [hexpand] at hshorter
        have hsum : word.length ≤ ws.flatten.length :=
          (List.sublist_flatten_of_mem hword).length_le
        have hspecial : ∀ c ∈ key ++ '=' :: value, isSpecial c = false := by
          intro c hc
          by_contra hne
          have := length_words_lt hwords hc (by simpa using hne)
          simp only [Option.getD_none, List.length_nil] at this
          omega
        have hone := words_eq_singleton (by simp) hspecial
        rw [hwords, Option.some.injEq] at hone
        rw [hone, List.mem_singleton] at hword
        refine ⟨hspecial, noSpecifier_of_length ?_⟩
        rw [← hword, hexpand, hword]
  · intro h host
    have hexpand : expand (fun c => if letters c then some (host c) else none)
        (key ++ '=' :: value) = key ++ '=' :: value :=
      expand_of_noSpecifier (fun c hc => by simp [hc]) h.percent
    rw [assignments, words_eq_singleton (by simp) h.special, Option.getD_some]
    simp [hexpand, splitOnce_append hkey]

theorem plain_assignment_iff {key value : Str} (hspecial : ∀ c ∈ key, isSpecial c = false)
    (hpercent : '%' ∉ key) : Plain letters (key ++ '=' :: value) ↔ Plain letters value := by
  constructor
  · intro h
    refine ⟨fun c hc => h.special c (by simp [hc]), ?_⟩
    exact (List.isChain_append.mp h.percent).2.1.tail
  · intro h
    constructor
    · intro c hc
      rcases List.mem_append.mp hc with hc | hc
      · exact hspecial c hc
      · rcases List.mem_cons.mp hc with rfl | hc
        · decide
        · exact h.special c hc
    · refine List.isChain_append.mpr ⟨?_, h.percent.cons ?_, ?_⟩
      · refine (List.pairwise_of_forall_mem_list fun c hc d _ => ?_).isChain
        exact fun hp => absurd (hp ▸ hc) hpercent
      · exact fun d _ hd => absurd hd (by decide)
      · exact fun c hc d _ hp => absurd (hp ▸ List.mem_of_mem_getLast? hc) hpercent

end UnitFile
