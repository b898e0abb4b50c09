import DigDns.Gateway
import DigDns.Support.Intervals

/-!
# Byte ranges

A ranged response carries exactly the bytes that it names, whatever the header asks
for, and the ranges of any cut of a resource put it together again.
-/

namespace DigDns

open Rust Intervals

/-! ## Without a panic -/

/-- `a - b` on unsigned integers, where an underflow panics. -/
def checkedSub (a b : Nat) : Option Nat := if b ≤ a then some (a - b) else none

/-- `bytes[start..=end]`, where an index outside of the slice panics. -/
def indexInclusive (bytes : List UInt8) (start stop : Nat) : Option (List UInt8) :=
  if start ≤ stop + 1 ∧ stop < bytes.length then some (slice bytes start stop) else none

/-- `parse_range` with its panics. -/
def tryParseRange (header : Str) (total : Nat) : Option RangeSpec :=
  match stripPrefix "bytes=".toList (trim header) with
  | none => some .whole
  | some s =>
  if s.contains ',' then some .whole
  else
    match splitOnce '-' (trim s) with
    | none => some .whole
    | some (a, b) =>
        if a = [] then
          match parseU64 b with
          | none => some .whole
          | some n =>
              if n = 0 ∨ total = 0 then some .unsatisfiable
              else do
                let start ← checkedSub total (min n total)
                let stop ← checkedSub total 1
                return .satisfiable start stop
        else
          match parseU64 a with
          | none => some .whole
          | some start =>
              let stop? :=
                if b = [] then some (total - 1)
                else (parseU64 b).map fun n => min n (total - 1)
              match stop? with
              | none => some .whole
              | some stop =>
                  if total = 0 ∨ start ≥ total ∨ start > stop then some .unsatisfiable
                  else some (.satisfiable start stop)

/-- `ok_body_response` with its panics. -/
def tryOkBodyResponse (resourceKey : Str) (bytes : List UInt8) (range : Option Str)
    (pinned : Bool) : Option GatewayResponse :=
  let cacheControl := if pinned then immutable else "no-cache".toList
  let total := bytes.length
  let headers := [
    ("content-type".toList, contentTypeFor resourceKey),
    ("accept-ranges".toList, "bytes".toList),
    ("cache-control".toList, cacheControl)]
  match range with
  | none => some { status := 200, headers, body := bytes }
  | some header => do
      match ← tryParseRange header total with
      | .satisfiable start stop =>
          let body ← indexInclusive bytes start stop
          return {
            status := 206
            headers := headers ++ [("content-range".toList,
              "bytes ".toList ++ fmtNat start ++ '-' :: (fmtNat stop ++ '/' :: fmtNat total))]
            body }
      | .unsatisfiable =>
          return {
            status := 416
            headers := headers ++ [("content-range".toList, "bytes */".toList ++ fmtNat total)]
            body := [] }
      | .whole => return { status := 200, headers, body := bytes }

/-- The subtractions of `parse_range` do not underflow. -/
theorem tryParseRange_eq (header : Str) (total : Nat) :
    tryParseRange header total = some (parseRange header total) := by
  unfold tryParseRange parseRange
  cases stripPrefix "bytes=".toList (trim header) with
  | none => rfl
  | some s =>
      dsimp only
      split_ifs with hcomma
      · rfl
      · cases splitOnce '-' (trim s) with
        | none => rfl
        | some parts =>
            dsimp only
            by_cases ha : parts.1 = []
            · rw [if_pos ha, if_pos ha]
              cases parseU64 parts.2 with
              | none => rfl
              | some n =>
                  dsimp only
                  split_ifs with hnone
                  · rfl
                  · have hstart : min n total ≤ total := Nat.min_le_right n total
                    have hstop : 1 ≤ total := by omega
                    rw [checkedSub, if_pos hstart, checkedSub, if_pos hstop]
                    rfl
            · rw [if_neg ha, if_neg ha]
              cases parseU64 parts.1 with
              | none => rfl
              | some start =>
                  cases (if parts.2 = [] then some (total - 1)
                      else (parseU64 parts.2).map fun n => min n (total - 1)) with
                  | none => rfl
                  | some stop =>
                      dsimp only
                      split_ifs with hnone
                      · rfl
                      · rfl

/-- `ok_body_response` does not panic. -/
theorem tryOkBodyResponse_eq (resourceKey : Str) (bytes : List UInt8) (range : Option Str)
    (pinned : Bool) :
    tryOkBodyResponse resourceKey bytes range pinned =
      some (okBodyResponse resourceKey bytes range pinned) := by
  cases range with
  | none => rfl
  | some header =>
      unfold tryOkBodyResponse okBodyResponse
      dsimp only [Option.map_some]
      rw [tryParseRange_eq]
      cases hspec : parseRange header bytes.length with
      | satisfiable start stop =>
          obtain ⟨hle, hlt⟩ := bounds_of_parseRange hspec
          have hindex : indexInclusive bytes start stop = some (slice bytes start stop) :=
            if_pos ⟨by omega, hlt⟩
          dsimp only [bind, Option.bind]
          rw [hindex]
          rfl
      | unsatisfiable => rfl
      | whole => rfl

/-! ## What a response carries -/

/-- The values of the `Content-Range` headers. -/
def contentRanges (r : GatewayResponse) : List Str :=
  (r.headers.filter fun h => h.1 = "content-range".toList).map Prod.snd

/-- The three responses to a request for a range. -/
inductive RangeAnswer (bytes : List UInt8) (r : GatewayResponse) : Prop
  | whole (hstatus : r.status = 200) (hbody : r.body = bytes) (hrange : contentRanges r = [])
  | part (front back : List UInt8) (start stop : Nat) (hstatus : r.status = 206)
      (hle : start ≤ stop) (hlt : stop < bytes.length)
      (hbytes : bytes = front ++ r.body ++ back) (hfront : front.length = start)
      (hbody : r.body.length = stop + 1 - start)
      (hrange : contentRanges r =
        ["bytes ".toList ++ fmtNat start ++ '-' :: (fmtNat stop ++ '/' :: fmtNat bytes.length)])
  | none (hstatus : r.status = 416) (hbody : r.body = [])
      (hrange : contentRanges r = ["bytes */".toList ++ fmtNat bytes.length])

theorem rangeAnswer_okBodyResponse (resourceKey : Str) (bytes : List UInt8)
    (range : Option Str) (pinned : Bool) :
    RangeAnswer bytes (okBodyResponse resourceKey bytes range pinned) := by
  cases range with
  | none => exact .whole rfl rfl rfl
  | some header =>
      unfold okBodyResponse
      dsimp only [Option.map_some]
      cases hspec : parseRange header bytes.length with
      | satisfiable start stop =>
          obtain ⟨hle, hlt⟩ := bounds_of_parseRange hspec
          obtain ⟨front, back, hbytes, hfront, hbody⟩ := exists_append_slice hle hlt
          exact .part front back start stop rfl hle hlt hbytes hfront hbody rfl
      | unsatisfiable => exact .none rfl rfl rfl
      | whole => exact .whole rfl rfl rfl

/-! ## Putting a resource together -/

/-- `isize::MAX`, the length that no `Vec` of bytes exceeds. -/
def isizeMax : Nat := 9223372036854775807

/-- `bytes=<start>-<stop>`, where the last part may be left out. -/
def rangeHeader (start : Nat) (stop : Str) : Str :=
  "bytes=".toList ++ (fmtNat start ++ '-' :: stop)

/-- The header for an interval. -/
def closedRange (i : Nat × Nat) : Str := rangeHeader i.1 (fmtNat i.2)

/-- The header for everything from a position on. -/
def openRange (start : Nat) : Str := rangeHeader start []

theorem parseU64_fmtNat {n : Nat} (hn : n ≤ isizeMax) : parseU64 (fmtNat n) = some n := by
  apply parseUnsigned_fmtNat
  unfold isizeMax at hn
  omega

theorem parseRange_rangeHeader {start total : Nat} {stop : Str} (hstart : start ≤ isizeMax)
    (hstop : ∀ c ∈ stop, c.isDigit = true) :
    parseRange (rangeHeader start stop) total =
      match (if stop = [] then some (total - 1)
        else (parseU64 stop).map fun n => min n (total - 1)) with
      | none => .whole
      | some stop =>
          if total = 0 ∨ start ≥ total ∨ start > stop then .unsatisfiable
          else .satisfiable start stop := by
  have hdigits : ∀ (P : Char → Prop), (∀ c ∈ "0123456789".toList, P c) → P '-' →
      ∀ c ∈ fmtNat start ++ '-' :: stop, P c := by
    intro P hP hhyphen
    refine List.forall_mem_append.mpr ⟨forall_mem_fmtNat start hP, ?_⟩
    exact List.forall_mem_cons.mpr ⟨hhyphen, fun c hc => forall_digit hP (hstop c hc)⟩
  have hspace := hdigits (fun c => isWhitespace c = false) (by decide) (by decide)
  have htrim : trim (rangeHeader start stop) = rangeHeader start stop := by
    apply trim_of_no_whitespace
    exact List.forall_mem_append.mpr ⟨by decide, hspace⟩
  have hcomma : (fmtNat start ++ '-' :: stop).contains ',' = false := by
    have hne := hdigits (fun c => c ≠ ',') (by decide) (by decide)
    rw [Bool.eq_false_iff]
    intro hcontains
    exact hne ',' (List.contains_iff_mem.mp hcontains) rfl
  have hsplit : splitOnce '-' (fmtNat start ++ '-' :: stop) = some (fmtNat start, stop) := by
    apply splitOnce_append
    intro hmem
    exact forall_mem_fmtNat (P := fun c => c ≠ '-') start (by decide) '-' hmem rfl
  have hparse : parseU64 (fmtNat start) = some start := parseU64_fmtNat hstart
  have hprefix : stripPrefix "bytes=".toList (rangeHeader start stop) =
      some (fmtNat start ++ '-' :: stop) := stripPrefix_append _ _
  unfold parseRange
  rw [htrim, hprefix]
  dsimp only
  rw [hcomma, trim_of_no_whitespace hspace, hsplit]
  dsimp only
  rw [if_neg (fmtNat_ne_nil start), hparse]
  rfl

theorem parseRange_closedRange {i : Nat × Nat} {total : Nat} (hle : i.1 ≤ i.2) (hlt : i.2 < total)
    (htotal : total ≤ isizeMax) :
    parseRange (closedRange i) total = .satisfiable i.1 i.2 := by
  have hdigits : ∀ c ∈ fmtNat i.2, c.isDigit = true := fun c hc => isDigit_of_mem_fmtNat hc
  rw [closedRange, parseRange_rangeHeader (by omega) hdigits, if_neg (fmtNat_ne_nil i.2),
    parseU64_fmtNat (by omega), Option.map_some]
  dsimp only
  rw [Nat.min_eq_left (by omega), if_neg (by omega)]

theorem parseRange_openRange {start total : Nat} (hlt : start < total)
    (htotal : total ≤ isizeMax) :
    parseRange (openRange start) total = .satisfiable start (total - 1) := by
  rw [openRange, parseRange_rangeHeader (by omega) (fun c hc => absurd hc List.not_mem_nil),
    if_pos rfl]
  dsimp only
  rw [if_neg (by omega)]

/-- The headers for the intervals of a cut, the last one open. -/
def openedRanges : List (Nat × Nat) → List Str
  | [] => []
  | [i] => [openRange i.1]
  | i :: rest => closedRange i :: openedRanges rest

/-- A resource comes in parts when each of the headers gets a part and the parts in order
are the resource. -/
def ComesInParts (resourceKey : Str) (bytes : List UInt8) (pinned : Bool)
    (ranges : List Str) : Prop :=
  (∀ h ∈ ranges, (okBodyResponse resourceKey bytes (some h) pinned).status = 206) ∧
    ranges.flatMap (fun h => (okBodyResponse resourceKey bytes (some h) pinned).body) = bytes

/-- Headers that name the intervals of a cut. -/
theorem comesInParts_of_forall₂ {resourceKey : Str} {bytes : List UInt8} {pinned : Bool}
    {ranges : List Str} {intervals : List (Nat × Nat)} (hcut : IsCut 0 intervals bytes.length)
    (h : List.Forall₂ (fun range i => parseRange range bytes.length = .satisfiable i.1 i.2)
      ranges intervals) : ComesInParts resourceKey bytes pinned ranges := by
  have hpart : ∀ {range : Str} {i : Nat × Nat},
      parseRange range bytes.length = .satisfiable i.1 i.2 →
        (okBodyResponse resourceKey bytes (some range) pinned).status = 206 ∧
          (okBodyResponse resourceKey bytes (some range) pinned).body = slice bytes i.1 i.2 := by
    intro range i hrange
    unfold okBodyResponse
    dsimp only [Option.map_some]
    rw [hrange]
    exact ⟨rfl, rfl⟩
  constructor
  · clear hcut
    induction h with
    | nil => exact nofun
    | cons hi _ ih => exact List.forall_mem_cons.mpr ⟨(hpart hi).1, ih⟩
  · have hbodies : ranges.flatMap
        (fun range => (okBodyResponse resourceKey bytes (some range) pinned).body) =
          intervals.flatMap (fun i => slice bytes i.1 i.2) := by
      clear hcut
      induction h with
      | nil => rfl
      | cons hi _ ih => rw [List.flatMap_cons, List.flatMap_cons, ih, (hpart hi).2]
    rw [hbodies, hcut.flatMap_slice le_rfl, List.take_length, List.drop_zero]

theorem forall₂_closedRange {intervals : List (Nat × Nat)} {a total : Nat}
    (hcut : IsCut a intervals total) (htotal : total ≤ isizeMax) :
    List.Forall₂ (fun range i => parseRange range total = .satisfiable i.1 i.2)
      (intervals.map closedRange) intervals := by
  rw [List.forall₂_map_left_iff, List.forall₂_same]
  intro i hi
  obtain ⟨hle, hlt⟩ := hcut.bounds i hi
  exact parseRange_closedRange hle hlt htotal

theorem forall₂_openedRanges {intervals : List (Nat × Nat)} {a total : Nat}
    (hcut : IsCut a intervals total) (htotal : total ≤ isizeMax) :
    List.Forall₂ (fun range i => parseRange range total = .satisfiable i.1 i.2)
      (openedRanges intervals) intervals := by
  induction intervals using openedRanges.induct generalizing a with
  | case1 => exact .nil
  | case2 i =>
      obtain ⟨-, hle, hlast⟩ := hcut
      have hlast : i.2 + 1 = total := hlast
      refine .cons ?_ .nil
      rw [parseRange_openRange (by omega) htotal]
      congr 1
      omega
  | case3 i rest hne ih =>
      obtain ⟨hle, hlt⟩ := hcut.bounds i List.mem_cons_self
      rw [openedRanges]
      · exact .cons (parseRange_closedRange hle hlt htotal) (ih hcut.2.2)
      · exact hne

/-- Ranges are served exactly. -/
structure RangeLaw (resourceKey : Str) (bytes : List UInt8) (pinned : Bool) : Prop where
  /-- No header makes the gateway panic. -/
  total : ∀ range, tryOkBodyResponse resourceKey bytes range pinned =
    some (okBodyResponse resourceKey bytes range pinned)
  /-- Every response is the whole resource, a part of it, or no part. -/
  answer : ∀ range, RangeAnswer bytes (okBodyResponse resourceKey bytes range pinned)
  /-- The intervals of any cut put the resource together. -/
  closed : ∀ intervals, IsCut 0 intervals bytes.length →
    ComesInParts resourceKey bytes pinned (intervals.map closedRange)
  /-- So they do when the last of them is left open. -/
  opened : ∀ intervals, IsCut 0 intervals bytes.length →
    ComesInParts resourceKey bytes pinned (openedRanges intervals)

/-- Every resource that fits into a `Vec` is served exactly. -/
theorem rangeLaw (resourceKey : Str) {bytes : List UInt8} (pinned : Bool)
    (hbytes : bytes.length ≤ isizeMax) : RangeLaw resourceKey bytes pinned where
  total range := tryOkBodyResponse_eq resourceKey bytes range pinned
  answer range := rangeAnswer_okBodyResponse resourceKey bytes range pinned
  closed _ hcut := comesInParts_of_forall₂ hcut (forall₂_closedRange hcut hbytes)
  opened _ hcut := comesInParts_of_forall₂ hcut (forall₂_openedRanges hcut hbytes)

/-- Ten digits in three parts. -/
theorem rangeLaw_digits :
    ([48, 49, 50, 51, 52, 53, 54, 55, 56, 57] : List UInt8).length ≤ isizeMax ∧
      ComesInParts "data.bin".toList [48, 49, 50, 51, 52, 53, 54, 55, 56, 57] false
        (openedRanges [(0, 0), (1, 4), (5, 9)]) :=
  ⟨by decide, (rangeLaw "data.bin".toList false (by decide)).opened _
    ⟨rfl, by decide, rfl, by decide, rfl, by decide, rfl⟩⟩

end DigDns
