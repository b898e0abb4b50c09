import DigDns.Support.Text

/-!
# Responses on the wire

The bytes of an HTTP response, the text that a client makes of them, and where it
finds the status and the body in that text.
-/

namespace Rust

/-! ## Text out of bytes -/

/-- How many bytes at the front of a list that starts with no character are replaced
together: the longest start of the encoding of some character. -/
def replacedLength : List UInt8 → Nat
  | b :: c :: rest =>
      let two :=
        (b = 0xE0 ∧ 0xA0 ≤ c ∧ c ≤ 0xBF) ∨
        (0xE1 ≤ b ∧ b ≤ 0xEF ∧ b ≠ 0xED ∧ 0x80 ≤ c ∧ c ≤ 0xBF) ∨
        (b = 0xED ∧ 0x80 ≤ c ∧ c ≤ 0x9F) ∨
        (b = 0xF0 ∧ 0x90 ≤ c ∧ c ≤ 0xBF) ∨
        (0xF1 ≤ b ∧ b ≤ 0xF3 ∧ 0x80 ≤ c ∧ c ≤ 0xBF) ∨
        (b = 0xF4 ∧ 0x80 ≤ c ∧ c ≤ 0x8F)
      if two then
        if 0xF0 ≤ b ∧ rest.head?.any (fun d => 0x80 ≤ d ∧ d ≤ 0xBF) then 3 else 2
      else 1
  | _ => 1

/-- `String::from_utf8_lossy`. -/
def fromUtf8Lossy : List UInt8 → Str
  | [] => []
  | b :: bs =>
      match ByteArray.utf8DecodeChar? (b :: bs).toByteArray 0 with
      | some c => c :: fromUtf8Lossy (bs.drop (c.utf8Size - 1))
      | none => Char.ofNat 0xFFFD :: fromUtf8Lossy (bs.drop (replacedLength (b :: bs) - 1))
termination_by bytes => bytes.length
decreasing_by
  all_goals
    rw [List.length_drop, List.length_cons]
    omega

theorem fromUtf8Lossy_nil : fromUtf8Lossy [] = [] := by
  rw [fromUtf8Lossy]

/-- What starts as text is read as text. -/
theorem fromUtf8Lossy_utf8_append (s : Str) (rest : List UInt8) :
    fromUtf8Lossy (utf8 s ++ rest) = s ++ fromUtf8Lossy rest := by
  induction s with
  | nil => rfl
  | cons c s ih =>
      rw [utf8_cons, List.append_assoc]
      have hdecode : ByteArray.utf8DecodeChar?
          (String.utf8EncodeChar c ++ (utf8 s ++ rest)).toByteArray 0 = some c := by
        rw [List.toByteArray_append]
        exact ByteArray.utf8DecodeChar?_utf8EncodeChar_append
      have hsize := String.length_utf8EncodeChar c
      have hpos := c.utf8Size_pos
      cases hbytes : String.utf8EncodeChar c with
      | nil =>
          rw [hbytes, List.length_nil] at hsize
          omega
      | cons b bs =>
          rw [hbytes, List.length_cons] at hsize
          rw [hbytes, List.cons_append] at hdecode
          have hdrop : (bs ++ (utf8 s ++ rest)).drop (c.utf8Size - 1) = utf8 s ++ rest := by
            rw [← hsize, Nat.add_sub_cancel, List.drop_left]
          rw [List.cons_append, fromUtf8Lossy, hdecode]
          dsimp only
          rw [hdrop, ih, List.cons_append]

theorem fromUtf8Lossy_utf8 (s : Str) : fromUtf8Lossy (utf8 s) = s := by
  have h := fromUtf8Lossy_utf8_append s []
  rwa [List.append_nil, fromUtf8Lossy_nil, List.append_nil] at h

/-! ## Parts of a text -/

/-- The text before and after the first occurrence of a pattern, as `str::find` gives
its place. -/
def splitAround (p : Str) : Str → Option (Str × Str)
  | [] => if p = [] then some ([], []) else none
  | c :: s =>
      if p.isPrefixOf (c :: s) then some ([], (c :: s).drop p.length)
      else (splitAround p s).map fun parts => (c :: parts.1, parts.2)

/-- `s.lines().next().unwrap_or("")`. -/
def firstLine (s : Str) : Str :=
  match splitOnce '\n' s with
  | some (l, _) => (stripSuffix ['\r'] l).getD l
  | none => s

/-- `str::lines`. -/
def lines (s : Str) : List Str :=
  let parts := s.splitOn '\n'
  let ended := parts.dropLast.map fun l => (stripSuffix ['\r'] l).getD l
  ended ++ (parts.getLast?.filter fun l => l ≠ []).toList

/-- `str::split_whitespace`. -/
def splitWhitespace (s : Str) : List Str := (s.splitOnP isWhitespace).filter (· ≠ [])

theorem splitWhitespace_append {w s : Str} {c : Char} (hne : w ≠ [])
    (hw : ∀ d ∈ w, isWhitespace d = false) (hc : isWhitespace c = true) :
    splitWhitespace (w ++ c :: s) = w :: splitWhitespace s := by
  rw [splitWhitespace, List.splitOnP_append_cons_of_forall_mem hw c hc, List.filter_cons,
    if_pos (by simpa using hne)]
  rfl

theorem stripSuffix_concat (c d : Char) (s : Str) :
    stripSuffix [c] (s ++ [d]) = if c = d then some s else none := by
  have hsuffix : [c].isSuffixOf (s ++ [d]) = true ↔ c = d := by
    rw [List.isSuffixOf_iff_suffix, List.singleton_suffix_append_singleton_iff]
  rw [stripSuffix]
  by_cases h : c = d
  · rw [if_pos (hsuffix.mpr h), if_pos h, List.length_append]
    change some (List.take (s.length + 1 - 1) (s ++ [d])) = some s
    rw [Nat.add_sub_cancel, List.take_left]
  · rw [if_neg (mt hsuffix.mp h), if_neg h]

/-- The first line of a text begins as the text does. -/
theorem firstLine_append {a s : Str} (hline : '\n' ∉ a) (hlast : a.getLast? ≠ some '\r') :
    firstLine (a ++ s) = a ++ firstLine s := by
  rw [firstLine, splitOnce_append_of_not_mem hline, firstLine]
  cases splitOnce '\n' s with
  | none => rfl
  | some parts =>
      obtain ⟨l, r⟩ := parts
      change (stripSuffix ['\r'] (a ++ l)).getD (a ++ l) = a ++ (stripSuffix ['\r'] l).getD l
      cases l using List.reverseRecOn with
      | nil =>
          rw [List.append_nil, stripSuffix, if_neg]
          · simp [stripSuffix]
          · rwa [List.isSuffixOf_iff_suffix, List.singleton_suffix_iff_getLast?_eq_some]
      | append_singleton l d _ =>
          rw [← List.append_assoc, stripSuffix_concat, stripSuffix_concat]
          split_ifs with hd
          · rfl
          · rw [Option.getD_none, Option.getD_none, List.append_assoc]

/-- A pattern is not found at a place where its first character is not. -/
theorem splitAround_append {c : Char} {p a s : Str} (ha : c ∉ a) :
    splitAround (c :: p) (a ++ s) =
      (splitAround (c :: p) s).map fun parts => (a ++ parts.1, parts.2) := by
  induction a with
  | nil => simp
  | cons d a ih =>
      have hne : c ≠ d := fun h => ha (h ▸ List.mem_cons_self)
      have hrest : c ∉ a := fun hmem => ha (List.mem_cons_of_mem d hmem)
      rw [List.cons_append, splitAround, if_neg (by simp [List.isPrefixOf, hne]), ih hrest,
        Option.map_map]
      rfl

end Rust

namespace Http

open Rust

/-! ## Responses -/

/-- A response to a `GET`.  The reason phrase and the headers stay on their lines. -/
structure Reply where
  /-- The digit after `HTTP/1.` -/
  minor : Fin 10
  status : UInt16
  reason : Str
  headers : List (Str × Str)
  body : List UInt8
  reason_line : ∀ c ∈ reason, c ≠ '\r' ∧ c ≠ '\n'
  header_lines : ∀ h ∈ headers, ∀ c ∈ h.1 ++ h.2, c ≠ '\r' ∧ c ≠ '\n'

namespace Reply

variable (r : Reply)

/-- A status from 200 to 299. -/
def IsSuccess : Prop := 200 ≤ r.status.toNat ∧ r.status.toNat < 300

instance : Decidable r.IsSuccess := inferInstanceAs (Decidable (_ ∧ _))

/-- A status that sends a client somewhere else. -/
def IsRedirect : Prop := r.status ∈ [301, 302, 303, 307, 308]

instance : Decidable r.IsRedirect := inferInstanceAs (Decidable (_ ∈ _))

/-- `HTTP/1.<minor>` -/
def version : Str := "HTTP/1.".toList ++ fmtNat r.minor.val

/-- The status line up to the reason phrase. -/
def statusText : Str := r.version ++ ' ' :: (fmtNat r.status.toNat ++ [' '])

/-- The text of a header. -/
def headerText (h : Str × Str) : Str := h.1 ++ ':' :: ' ' :: h.2

/-- Everything before the empty line. -/
def head : Str :=
  r.statusText ++ (r.reason ++ r.headers.flatMap fun h => '\r' :: '\n' :: headerText h)

/-- The end of a line and an empty line. -/
def blankLine : Str := ['\r', '\n', '\r', '\n']

/-- The bytes of the response. -/
def wire : List UInt8 := utf8 (r.head ++ blankLine) ++ r.body

/-- A client reads the head and then the body. -/
theorem fromUtf8Lossy_wire :
    fromUtf8Lossy r.wire = r.head ++ (blankLine ++ fromUtf8Lossy r.body) := by
  rw [wire, fromUtf8Lossy_utf8_append, List.append_assoc]

/-! ### Where the head ends -/

/-- A line that is not empty is not the end of the head. -/
theorem splitAround_line {l text : Str} (hne : l ≠ []) (hline : '\r' ∉ l) :
    splitAround blankLine ('\r' :: '\n' :: l ++ text) =
      (splitAround blankLine text).map fun parts => ('\r' :: '\n' :: l ++ parts.1, parts.2) := by
  have hpre : blankLine.isPrefixOf ('\r' :: '\n' :: l ++ text) = false := by
    cases l with
    | nil => exact absurd rfl hne
    | cons c l =>
        have hc : '\r' ≠ c := fun h => hline (h ▸ List.mem_cons_self)
        simp [blankLine, List.isPrefixOf, hc]
  have hrest : '\r' ∉ '\n' :: l := List.not_mem_cons_of_ne_of_not_mem (by decide) hline
  rw [List.cons_append, splitAround, ← List.cons_append, hpre, blankLine,
    splitAround_append hrest]
  rw [if_neg Bool.false_ne_true, Option.map_map]
  rfl

theorem splitAround_headers {headers : List (Str × Str)} (text : Str)
    (h : ∀ h ∈ headers, ∀ c ∈ h.1 ++ h.2, c ≠ '\r' ∧ c ≠ '\n') :
    splitAround blankLine ((headers.flatMap fun h => '\r' :: '\n' :: headerText h) ++
        (blankLine ++ text)) =
      some (headers.flatMap fun h => '\r' :: '\n' :: headerText h, text) := by
  induction headers with
  | nil => rfl
  | cons header headers ih =>
      obtain ⟨hheader, hrest⟩ := List.forall_mem_cons.mp h
      have hne : headerText header ≠ [] := by simp [headerText]
      have hline : '\r' ∉ headerText header := by
        intro hmem
        have hin : '\r' ∈ header.1 ++ header.2 := by simpa [headerText] using hmem
        exact (hheader _ hin).1 rfl
      rw [List.flatMap_cons, List.append_assoc, splitAround_line hne hline, ih hrest]
      rfl

theorem forall_mem_statusText {P : Char → Prop} (hchars : ∀ c ∈ "HTTP/1. ".toList, P c)
    (hdigits : ∀ c ∈ "0123456789".toList, P c) : ∀ c ∈ r.statusText, P c := by
  have hspace : P ' ' := hchars ' ' (by decide)
  refine List.forall_mem_append.mpr ⟨List.forall_mem_append.mpr ⟨?_, ?_⟩, ?_⟩
  · exact fun c hc => hchars c (List.mem_append_left [' '] hc)
  · exact forall_mem_fmtNat _ hdigits
  · refine List.forall_mem_cons.mpr ⟨hspace, List.forall_mem_append.mpr ⟨?_, ?_⟩⟩
    · exact forall_mem_fmtNat _ hdigits
    · exact List.forall_mem_singleton.mpr hspace

/-- The first empty line ends the head. -/
theorem splitAround_head (text : Str) :
    splitAround blankLine (r.head ++ (blankLine ++ text)) = some (r.head, text) := by
  have hstatus : '\r' ∉ r.statusText ++ r.reason := by
    intro hmem
    rcases List.mem_append.mp hmem with hmem | hmem
    · exact r.forall_mem_statusText (P := fun c => c ≠ '\r') (by decide) (by decide) _ hmem rfl
    · exact (r.reason_line _ hmem).1 rfl
  have hhead : r.head ++ (blankLine ++ text) = (r.statusText ++ r.reason) ++
      ((r.headers.flatMap fun h => '\r' :: '\n' :: headerText h) ++ (blankLine ++ text)) := by
    rw [head, List.append_assoc, List.append_assoc, List.append_assoc]
  rw [hhead, blankLine, splitAround_append hstatus]
  change (splitAround blankLine (_ ++ (blankLine ++ text))).map _ = _
  rw [splitAround_headers text r.header_lines, Option.map_some, head, List.append_assoc]

/-! ### What the status line says -/

/-- The first two words of a text that begins with the status. -/
theorem splitWhitespace_statusText (text : Str) :
    splitWhitespace (r.statusText ++ text) =
      r.version :: fmtNat r.status.toNat :: splitWhitespace text := by
  have hdigits : ∀ n, ∀ c ∈ fmtNat n, isWhitespace c = false := fun n c hc =>
    (not_whitespace_of_isDigit (isDigit_of_mem_fmtNat hc)).1
  have hhttp : ∀ c ∈ "HTTP/1.".toList, isWhitespace c = false := by decide
  have hversion : ∀ c ∈ r.version, isWhitespace c = false := by
    intro c hc
    rcases List.mem_append.mp hc with hc | hc
    · exact hhttp c hc
    · exact hdigits _ c hc
  have hne : r.version ≠ [] := List.append_ne_nil_of_right_ne_nil _ (fmtNat_ne_nil _)
  rw [statusText, List.append_assoc, List.cons_append, List.append_assoc,
    splitWhitespace_append hne hversion (by decide), List.singleton_append,
    splitWhitespace_append (fmtNat_ne_nil _) (hdigits _) (by decide)]

theorem firstLine_statusText (text : Str) :
    firstLine (r.statusText ++ text) = r.statusText ++ firstLine text := by
  apply firstLine_append
  · exact fun hmem =>
      r.forall_mem_statusText (P := fun c => c ≠ '\n') (by decide) (by decide) _ hmem rfl
  · rw [statusText, ← List.cons_append, ← List.append_assoc, List.getLast?_concat]
    decide

theorem length_statusText_le : r.statusText.length ≤ 15 := by
  have hhttp : "HTTP/1.".toList.length = 7 := rfl
  have hminor : (fmtNat r.minor.val).length ≤ 1 :=
    (Nat.length_toDigits_le_iff (by decide) (by decide)).mpr r.minor.isLt
  have hword := r.status.toNat_lt
  have hstatus : (fmtNat r.status.toNat).length ≤ 5 := by
    rw [fmtNat, Nat.length_toDigits_le_iff (by decide) (by decide)]
    omega
  unfold statusText version
  simp only [List.length_append, List.length_cons, List.length_nil, hhttp]
  omega

/-- The status is in the first 256 bytes. -/
theorem exists_fromUtf8Lossy_take :
    ∃ text, fromUtf8Lossy (r.wire.take 256) = r.statusText ++ text := by
  have hascii : ∀ c ∈ r.statusText, c.toNat < 128 :=
    r.forall_mem_statusText (by decide) (by decide)
  have hbytes : (utf8 r.statusText).length = r.statusText.length := byteLen_of_ascii hascii
  have hlength := r.length_statusText_le
  have hlength : (utf8 r.statusText).length ≤ 256 := by omega
  refine ⟨fromUtf8Lossy ((utf8 (r.reason ++ r.headers.flatMap fun h =>
    '\r' :: '\n' :: headerText h) ++ (utf8 blankLine ++ r.body)).take
      (256 - (utf8 r.statusText).length)), ?_⟩
  rw [wire, head, utf8_append, utf8_append, List.append_assoc, List.append_assoc, List.take_append,
    List.take_of_length_le hlength, fromUtf8Lossy_utf8_append]

end Reply

end Http
