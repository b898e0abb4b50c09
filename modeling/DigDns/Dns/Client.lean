import DigDns.Dns.Policy
import DigDns.Support.Loop
import DigDns.Support.Scan

/-!
# The probe's side of DNS

The helpers of `dns.rs` for `doctor`: `build_a_query` writes a query for a name, and
`parse_first_a_ipv4` looks for the first address in a response.
-/

namespace DigDns.Dns

open Rust Rfc1035 Interaction

/-! ## Definitions -/

/-- A label as `build_a_query` writes it: its first 63 bytes at most. -/
def writeLabel (label : Str) : List UInt8 :=
  let len := min (byteLen label) 63
  UInt8.ofNat len :: (utf8 label).take len

/-- `build_a_query` -/
def buildAQuery (name : Str) : List UInt8 :=
  [0x00, 0x00] ++ u16ToBe 0x0100 ++ u16ToBe 1 ++ [0, 0, 0, 0, 0, 0] ++
    ((name.splitOn '.').filter (· ≠ [])).flatMap writeLabel ++
    [0] ++ u16ToBe typeA ++ u16ToBe 1

/-- A query is at most as long as its labels allow. -/
theorem length_buildAQuery_le (name : Str) :
    (buildAQuery name).length ≤ 17 + 64 * (name.splitOn '.').length := by
  have hlabels : ∀ labels : List Str, ((labels.filter (· ≠ [])).flatMap writeLabel).length ≤
      64 * labels.length := by
    intro labels
    induction labels with
    | nil => exact Nat.zero_le _
    | cons l labels ih =>
        have hlabel : (writeLabel l).length ≤ 64 := by
          rw [writeLabel, List.length_cons, List.length_take]
          omega
        rw [List.filter_cons, List.length_cons]
        split_ifs
        · rw [List.flatMap_cons, List.length_append]
          omega
        · omega
  have hname := hlabels (name.splitOn '.')
  simp only [buildAQuery, List.length_append, length_u16ToBe, List.length_cons, List.length_nil]
  omega

/-- `skip_name` -/
def skipName (msg : List UInt8) (pos : Nat) : Option Nat :=
  match _hget : msg[pos]? with
  | none => none
  | some len =>
      if len = 0 then some (pos + 1)
      -- A compression pointer.
      else if len &&& 0xC0 = 0xC0 then some (pos + 2)
      else skipName msg (pos + 1 + len.toNat)
termination_by msg.length - pos
decreasing_by
  have := (List.getElem?_eq_some_iff.mp _hget).1
  omega

/-- The walk over the questions. -/
def skipQuestions (msg : List UInt8) : Nat → Nat → Option Nat
  | 0, pos => some pos
  | n + 1, pos => do
      let pos ← skipName msg pos
      skipQuestions msg n (pos + 4)

/-- `Ipv4Addr::new` of the four bytes of a slice. -/
def ipv4Of (msg : List UInt8) (start : Nat) : Option Ipv4Addr :=
  match getRange msg start (start + 4) with
  | some [a, b, c, d] => some ⟨a, b, c, d⟩
  | _ => none

/-- The walk over the answers. -/
def firstA (msg : List UInt8) : Nat → Nat → Option Ipv4Addr
  | 0, _ => none
  | n + 1, pos => do
      let pos ← skipName msg pos
      let rtype := u16FromBe (← msg[pos]?) (← msg[pos + 1]?)
      let rdlength := (u16FromBe (← msg[pos + 8]?) (← msg[pos + 9]?)).toNat
      let rdataStart := pos + 10
      if rtype = typeA ∧ rdlength = 4 then ipv4Of msg rdataStart
      else firstA msg n (rdataStart + rdlength)

theorem length_ge_of_not_lt {response : List UInt8} (h : ¬response.length < headerLen) :
    headerLen ≤ response.length :=
  Nat.le_of_not_lt h

/-- `parse_first_a_ipv4` -/
def parseFirstAIpv4 (response : List UInt8) : Option Ipv4Addr :=
  if h : response.length < headerLen then none
  else
    let header : Request := ⟨response, length_ge_of_not_lt h⟩
    do
      let pos ← skipQuestions response header.qdcount.toNat headerLen
      firstA response header.ancount.toNat pos

/-! ## Well-formed responses -/

/-- A question as a response may write it: its name may end in a pointer. -/
structure Asked where
  owner : Owner
  qtype : UInt16
  qclass : UInt16

def Asked.encode (q : Asked) : List UInt8 :=
  q.owner.encode ++ (u16ToBe q.qtype ++ u16ToBe q.qclass)

/-- A response up to its answers, with whatever stands behind them. -/
structure Response where
  id : UInt16
  flags : UInt16
  nscount : UInt16
  arcount : UInt16
  questions : Section Asked
  answers : Section Record
  rest : List UInt8

def Response.header (r : Response) : Header where
  id := r.id
  flags := r.flags
  qdcount := count r.questions
  ancount := count r.answers
  nscount := r.nscount
  arcount := r.arcount

def Response.encode (r : Response) : List UInt8 :=
  r.header.encode ++ (r.questions.val.flatMap Asked.encode ++
    (r.answers.val.flatMap Record.encode ++ r.rest))

/-- The address that a record of type `A` with four bytes of data holds. -/
def address (r : Record) : Option Ipv4Addr :=
  if r.rtype = typeA then
    match r.rdata with
    | [a, b, c, d] => some ⟨a, b, c, d⟩
    | _ => none
  else none

/-! ## Names -/

section Names

variable {msg : List UInt8} {pos : Nat}

theorem skipName_root (hget : msg[pos]? = some 0) : skipName msg pos = some (pos + 1) := by
  rw [skipName, hget]
  rfl

theorem skipName_pointer {len : UInt8} (hget : msg[pos]? = some len)
    (hptr : len &&& 0xC0 = 0xC0) : skipName msg pos = some (pos + 2) := by
  have hzero : len ≠ 0 := by
    rintro rfl
    exact absurd hptr (by decide)
  rw [skipName, hget]
  simp only [hzero, hptr, if_false, if_true]

theorem skipName_label {len : UInt8} (hget : msg[pos]? = some len) (hzero : len ≠ 0)
    (hlt : len.toNat < 64) : skipName msg pos = skipName msg (pos + 1 + len.toNat) := by
  have hptr : len &&& 0xC0 ≠ 0xC0 := by
    rw [(and_c0_eq_zero_iff len).mpr hlt]
    decide
  rw [skipName, hget]
  simp only [hzero, hptr, if_false]

end Names

/-- The first byte of a pointer has its two top bits set. -/
theorem pointer_and_c0 (offset : Fin (2 ^ 14)) :
    UInt8.ofNat (192 + offset.val / 256) &&& 0xC0 = 0xC0 := by
  have hall : ∀ n : Fin 64, UInt8.ofNat (192 + n.val) &&& 0xC0 = 0xC0 := by
    decide +kernel
  have hlt := offset.isLt
  exact hall ⟨offset.val / 256, by omega⟩

/-- The byte behind a prefix. -/
theorem getElem?_behind (front tail : List UInt8) (i : Nat) :
    (front ++ tail)[front.length + i]? = tail[i]? := by
  rw [List.getElem?_append_right (Nat.le_add_right _ _), Nat.add_sub_cancel_left]

theorem skipName_ending (ending : Option (Fin (2 ^ 14))) (front tail : List UInt8) :
    skipName (front ++ (encodeEnding ending ++ tail)) front.length =
      some (front.length + (encodeEnding ending).length) := by
  have hget := getElem?_behind front (encodeEnding ending ++ tail) 0
  cases ending with
  | none => exact skipName_root hget
  | some offset => exact skipName_pointer hget (pointer_and_c0 offset)

/-- Every name is skipped to its end, however it ends. -/
theorem skipName_owner (owner : Owner) (front tail : List UInt8) :
    skipName (front ++ (owner.encode ++ tail)) front.length =
      some (front.length + owner.encode.length) := by
  obtain ⟨labels, ending⟩ := owner
  induction labels generalizing front with
  | nil => exact skipName_ending ending front tail
  | cons label labels ih =>
      have hlen := label.toNat_length
      have hpos := label.pos
      have hlt := label.lt
      have hencode : Owner.encode ⟨label :: labels, ending⟩ =
          label.encode ++ Owner.encode ⟨labels, ending⟩ := by
        simp only [Owner.encode, List.flatMap_cons, List.append_assoc]
      have hnext : front.length + 1 + (UInt8.ofNat label.bytes.length).toNat =
          (front ++ label.encode).length := by
        rw [hlen, List.length_append, Label.encode, List.length_cons]
        omega
      have hzero : UInt8.ofNat label.bytes.length ≠ 0 := by
        intro hzero
        rw [hzero] at hlen
        exact absurd hlen (Nat.ne_of_lt hpos)
      have hget : (front ++ (Owner.encode ⟨label :: labels, ending⟩ ++ tail))[front.length]? =
          some (UInt8.ofNat label.bytes.length) := by
        rw [hencode, List.append_assoc]
        exact getElem?_behind front _ 0
      rw [skipName_label hget hzero (by omega), hnext, hencode, List.append_assoc,
        ← List.append_assoc front, ih, List.length_append, List.length_append]
      exact congrArg some (Nat.add_assoc _ _ _)

/-! ## The two sections -/

theorem skipQuestions_encode (questions : List Asked) (front tail : List UInt8) :
    skipQuestions (front ++ (questions.flatMap Asked.encode ++ tail)) questions.length
        front.length =
      some (front.length + (questions.flatMap Asked.encode).length) := by
  induction questions generalizing front with
  | nil => rfl
  | cons q questions ih =>
      have hmsg : front ++ ((q :: questions).flatMap Asked.encode ++ tail) =
          front ++ (q.owner.encode ++ ((u16ToBe q.qtype ++ u16ToBe q.qclass) ++
            (questions.flatMap Asked.encode ++ tail))) := by
        simp only [List.flatMap_cons, Asked.encode, List.append_assoc]
      have hmsg' : front ++ ((q :: questions).flatMap Asked.encode ++ tail) =
          (front ++ q.encode) ++ (questions.flatMap Asked.encode ++ tail) := by
        simp only [List.flatMap_cons, List.append_assoc]
      have hlen : front.length + q.owner.encode.length + 4 = (front ++ q.encode).length := by
        simp only [Asked.encode, List.length_append, length_u16ToBe]
        omega
      have hskip : skipName (front ++ ((q :: questions).flatMap Asked.encode ++ tail))
          front.length = some (front.length + q.owner.encode.length) := by
        rw [hmsg]
        exact skipName_owner q.owner front _
      have hrest := ih (front ++ q.encode)
      rw [← hmsg', ← hlen] at hrest
      rw [List.length_cons, skipQuestions, hskip]
      refine hrest.trans (congrArg some ?_)
      rw [hlen, List.flatMap_cons, List.length_append, List.length_append, Nat.add_assoc]

theorem ipv4Of_behind (front tail : List UInt8) (a b c d : UInt8) :
    ipv4Of (front ++ ([a, b, c, d] ++ tail)) front.length = some ⟨a, b, c, d⟩ := by
  have hrange : getRange (front ++ ([a, b, c, d] ++ tail)) front.length (front.length + 4) =
      some [a, b, c, d] := by
    have htake : (front ++ ([a, b, c, d] ++ tail)).take (front.length + 4) =
        front ++ [a, b, c, d] := by
      rw [← List.append_assoc]
      exact List.take_left' (by rw [List.length_append]; rfl)
    rw [getRange_eq_some_iff, htake]
    refine ⟨Nat.le_add_right _ _, ?_, List.drop_left⟩
    simp only [List.length_append, List.length_cons]
    omega
  rw [ipv4Of, hrange]

/-- A record of type `A` with four bytes of data is one that `address` reads. -/
theorem address_of_length {r : Record} (htype : r.rtype = typeA) (hlen : r.rdata.length = 4) :
    ∃ a b c d, r.rdata = [a, b, c, d] ∧ address r = some ⟨a, b, c, d⟩ := by
  obtain ⟨a, b, c, d, hdata⟩ : ∃ a b c d, r.rdata = [a, b, c, d] := by
    match r.rdata, hlen with
    | [a, b, c, d], _ => exact ⟨a, b, c, d, rfl⟩
  refine ⟨a, b, c, d, hdata, ?_⟩
  rw [address, if_pos htype, hdata]

theorem address_eq_none {r : Record} (h : ¬ (r.rtype = typeA ∧ r.rdata.length = 4)) :
    address r = none := by
  rw [address]
  split
  · rename_i htype
    split
    · rename_i hdata
      exact absurd ⟨htype, by rw [hdata]; rfl⟩ h
    · rfl
  · rfl

/-- One round of the walk over the answers, from the fields that it reads. -/
theorem firstA_succ {msg : List UInt8} {n pos next : Nat} {rtype rdlength : UInt16}
    (hskip : skipName msg pos = some next)
    (htype : ∀ i < 2, msg[next + i]? = (u16ToBe rtype)[i]?)
    (hlen : ∀ i < 2, msg[next + 8 + i]? = (u16ToBe rdlength)[i]?) :
    firstA msg (n + 1) pos =
      if rtype = typeA ∧ rdlength.toNat = 4 then ipv4Of msg (next + 10)
      else firstA msg n (next + 10 + rdlength.toNat) := by
  have htype₀ : msg[next]? = some (UInt8.ofNat (rtype.toNat / 256)) := htype 0 (by decide)
  have htype₁ : msg[next + 1]? = some (UInt8.ofNat rtype.toNat) := htype 1 (by decide)
  have hlen₀ : msg[next + 8]? = some (UInt8.ofNat (rdlength.toNat / 256)) := hlen 0 (by decide)
  have hlen₁ : msg[next + 9]? = some (UInt8.ofNat rdlength.toNat) := hlen 1 (by decide)
  rw [firstA, hskip]
  simp only [Option.bind_eq_bind, Option.bind_some, htype₀, htype₁, hlen₀, hlen₁,
    u16FromBe_u16ToBe]

/-- The fields of a record between its name and its data. -/
def fixedFields (r : Record) : List UInt8 :=
  u16ToBe r.rtype ++ (u16ToBe r.rclass ++ (u32ToBe r.ttl ++
    u16ToBe (UInt16.ofNat r.rdata.length)))

theorem encode_eq_fixedFields (r : Record) :
    r.encode = r.owner.encode ++ (fixedFields r ++ r.rdata) := by
  simp only [Record.encode, fixedFields, List.append_assoc]

theorem length_fixedFields (r : Record) : (fixedFields r).length = 10 := rfl

/-- The walk over the answers passes a record, or ends with its address. -/
theorem firstA_cons (r : Record) (n : Nat) (front tail : List UInt8) :
    firstA (front ++ (r.encode ++ tail)) (n + 1) front.length =
      if r.rtype = typeA ∧ r.rdata.length = 4 then address r
      else firstA (front ++ (r.encode ++ tail)) n (front.length + r.encode.length) := by
  have hmsg : front ++ (r.encode ++ tail) =
      (front ++ r.owner.encode) ++ (fixedFields r ++ (r.rdata ++ tail)) := by
    simp only [encode_eq_fixedFields, List.append_assoc]
  have hskip : skipName (front ++ (r.encode ++ tail)) front.length =
      some (front ++ r.owner.encode).length := by
    rw [Record.encode, List.append_assoc, skipName_owner, List.length_append]
  have hget : ∀ i < 10, (front ++ (r.encode ++ tail))[(front ++ r.owner.encode).length + i]? =
      (fixedFields r)[i]? := by
    intro i hi
    rw [hmsg, getElem?_behind]
    exact List.getElem?_append_left hi
  have htype : ∀ i < 2, (front ++ (r.encode ++ tail))[(front ++ r.owner.encode).length + i]? =
      (u16ToBe r.rtype)[i]? := by
    intro i hi
    rw [hget i (by omega)]
    exact List.getElem?_append_left hi
  have hlen : ∀ i < 2,
      (front ++ (r.encode ++ tail))[(front ++ r.owner.encode).length + 8 + i]? =
        (u16ToBe (UInt16.ofNat r.rdata.length))[i]? := by
    intro i hi
    rw [Nat.add_assoc, hget (8 + i) (by omega), Nat.add_comm]
    rfl
  have hrdata : (UInt16.ofNat r.rdata.length).toNat = r.rdata.length := by
    rw [UInt16.toNat_ofNat', Nat.mod_eq_of_lt r.rdata_lt]
  have hstart : (front ++ r.owner.encode).length + 10 =
      (front ++ r.owner.encode ++ fixedFields r).length := by
    simp only [List.length_append, length_fixedFields]
  have hstop : (front ++ r.owner.encode).length + 10 + r.rdata.length =
      front.length + r.encode.length := by
    simp only [encode_eq_fixedFields, List.length_append, length_fixedFields]
    omega
  rw [firstA_succ hskip htype hlen, hrdata, hstop]
  by_cases h : r.rtype = typeA ∧ r.rdata.length = 4
  · obtain ⟨a, b, c, d, hdata, haddr⟩ := address_of_length h.1 h.2
    rw [if_pos h, if_pos h, haddr, hstart, hmsg, ← List.append_assoc, hdata]
    exact ipv4Of_behind _ tail a b c d
  · rw [if_neg h, if_neg h]

theorem firstA_encode (answers : List Record) (front tail : List UInt8) :
    firstA (front ++ (answers.flatMap Record.encode ++ tail)) answers.length front.length =
      answers.findSome? address := by
  induction answers generalizing front with
  | nil => rfl
  | cons r answers ih =>
      have hrest := ih (front ++ r.encode)
      rw [List.flatMap_cons, List.append_assoc, List.length_cons, firstA_cons]
      split
      · rename_i h
        obtain ⟨a, b, c, d, -, haddr⟩ := address_of_length h.1 h.2
        rw [List.findSome?_cons, haddr]
      · rename_i h
        rw [List.findSome?_cons, address_eq_none h, ← hrest, List.append_assoc,
          List.length_append]

/-- The decoder walks with the two counts of the header. -/
theorem parseFirstAIpv4_of (header : Header) (body : List UInt8) :
    parseFirstAIpv4 (header.encode ++ body) =
      (skipQuestions (header.encode ++ body) header.qdcount.toNat headerLen).bind
        fun pos => firstA (header.encode ++ body) header.ancount.toNat pos := by
  have hlen : ¬ (header.encode ++ body).length < headerLen := by
    simp [headerLen, Header.length_encode]
  have hqd := qdcount_of header body
  have han : u16FromBe ((Request.of header body).byte 6) ((Request.of header body).byte 7) =
      header.ancount :=
    u16FromBe_u16ToBe header.ancount
  rw [parseFirstAIpv4, dif_neg hlen, ← hqd, ← han]
  rfl

/-- The decoder finds the first address among the answers. -/
theorem parseFirstAIpv4_encode (r : Response) :
    parseFirstAIpv4 r.encode = r.answers.val.findSome? address := by
  have hquestions : skipQuestions r.encode r.questions.val.length headerLen =
      some (r.header.encode ++ r.questions.val.flatMap Asked.encode).length := by
    rw [List.length_append]
    exact skipQuestions_encode r.questions.val r.header.encode _
  have hanswers : firstA r.encode r.answers.val.length
      (r.header.encode ++ r.questions.val.flatMap Asked.encode).length =
        r.answers.val.findSome? address := by
    rw [Response.encode, ← List.append_assoc]
    exact firstA_encode r.answers.val _ r.rest
  have hqd : r.header.qdcount.toNat = r.questions.val.length := toNat_count r.questions
  have han : r.header.ancount.toNat = r.answers.val.length := toNat_count r.answers
  rw [← hqd, Response.encode] at hquestions
  rw [← han, Response.encode] at hanswers
  rw [Response.encode, parseFirstAIpv4_of, hquestions, Option.bind_some, hanswers]

/-! ## Termination -/

/-- One round of the loop of `skip_name`. -/
def skipRound (msg : List UInt8) (pos : Nat) : Nat ⊕ Option Nat :=
  match msg[pos]? with
  | none => .inr none
  | some len =>
      if len = 0 then .inr (some (pos + 1))
      else if len &&& 0xC0 = 0xC0 then .inr (some (pos + 2))
      else .inl (pos + 1 + len.toNat)

/-- Every round moves on in the message. -/
theorem computes_skipRound (msg : List UInt8) :
    Loop.Computes (skipRound msg) (fun pos => msg.length - pos) (skipName msg) := by
  intro pos
  rw [skipRound, skipName]
  cases hget : msg[pos]? with
  | none => exact Or.inl rfl
  | some len =>
      have hlt := (List.getElem?_eq_some_iff.mp hget).1
      dsimp only
      split
      · exact Or.inl rfl
      split
      · exact Or.inl rfl
      refine Or.inr ⟨_, rfl, ?_, rfl⟩
      omega

/-! ## Reads -/

/-- `skip_name`, read by read, in a message of `n` bytes. -/
def skipNameScan (n pos : Nat) : Scan UInt8 (Option Nat) :=
  if _hlt : pos < n then
    .ask pos fun len =>
      if len = 0 then .ret (some (pos + 1))
      else if len &&& 0xC0 = 0xC0 then .ret (some (pos + 2))
      else skipNameScan n (pos + 1 + len.toNat)
  else .ret none
termination_by n - pos

/-- The walk over the questions, read by read. -/
def skipQuestionsScan (n : Nat) : Nat → Nat → Scan UInt8 (Option Nat)
  | 0, pos => .ret (some pos)
  | k + 1, pos => (skipNameScan n pos).thenSome fun pos => skipQuestionsScan n k (pos + 4)

/-- Two checked reads that make a word. -/
def fetchWord (n pos : Nat) : Scan UInt8 (Option UInt16) :=
  (Scan.fetch n pos).thenSome fun hi =>
    (Scan.fetch n (pos + 1)).thenSome fun lo => .ret (some (u16FromBe hi lo))

/-- The four bytes of a slice, read one by one after its bound is checked. -/
def ipv4Scan (n start : Nat) : Scan UInt8 (Option Ipv4Addr) :=
  if start + 4 ≤ n then
    .ask start fun a => .ask (start + 1) fun b => .ask (start + 2) fun c =>
      .ask (start + 3) fun d => .ret (some ⟨a, b, c, d⟩)
  else .ret none

/-- The walk over the answers, read by read. -/
def firstAScan (n : Nat) : Nat → Nat → Scan UInt8 (Option Ipv4Addr)
  | 0, _ => .ret none
  | k + 1, pos =>
      (skipNameScan n pos).thenSome fun pos =>
        (fetchWord n pos).thenSome fun rtype =>
          (fetchWord n (pos + 8)).thenSome fun rdlength =>
            if rtype = typeA ∧ rdlength.toNat = 4 then ipv4Scan n (pos + 10)
            else firstAScan n k (pos + 10 + rdlength.toNat)

/-- `parse_first_a_ipv4`, read by read: only the length of the message stands
between the four counts and an access out of bounds. -/
def parseFirstAIpv4Scan (n : Nat) : Scan UInt8 (Option Ipv4Addr) :=
  if n < headerLen then .ret none
  else
    .ask 4 fun qdHi => .ask 5 fun qdLo => .ask 6 fun anHi => .ask 7 fun anLo =>
      (skipQuestionsScan n (u16FromBe qdHi qdLo).toNat headerLen).thenSome fun pos =>
        firstAScan n (u16FromBe anHi anLo).toNat pos

section Scans

variable (msg : List UInt8)

theorem scans_skipName (pos : Nat) :
    Scans msg (skipNameScan msg.length pos) (skipName msg pos) := by
  induction hn : msg.length - pos using Nat.strongRecOn generalizing pos with
  | ind n ih =>
      rw [skipNameScan, skipName]
      split
      · rename_i hlt
        have hget : msg[pos]? = some msg[pos] := List.getElem?_eq_getElem hlt
        rw [hget]
        refine scans_ask (g := fun len => if len = 0 then some (pos + 1)
          else if len &&& 0xC0 = 0xC0 then some (pos + 2)
          else skipName msg (pos + 1 + len.toNat)) hget fun len => ?_
        split
        · exact scans_ret _
        split
        · exact scans_ret _
        exact ih _ (by omega) _ rfl
      · rename_i hlt
        rw [List.getElem?_eq_none (Nat.le_of_not_lt hlt)]
        exact scans_ret none

theorem scans_skipQuestions (k pos : Nat) :
    Scans msg (skipQuestionsScan msg.length k pos) (skipQuestions msg k pos) := by
  induction k generalizing pos with
  | zero => exact scans_ret _
  | succ k ih => exact scans_thenSome (scans_skipName msg pos) fun pos => ih (pos + 4)

theorem scans_fetchWord (pos : Nat) :
    Scans msg (fetchWord msg.length pos)
      (msg[pos]?.bind fun hi => msg[pos + 1]?.bind fun lo => some (u16FromBe hi lo)) :=
  scans_thenSome (scans_fetch pos) fun _ =>
    scans_thenSome (scans_fetch (pos + 1)) fun _ => scans_ret _

theorem ipv4Of_eq_some {start : Nat} (h : start + 4 ≤ msg.length) :
    ipv4Of msg start = some ⟨msg[start]?.getD default, msg[start + 1]?.getD default,
      msg[start + 2]?.getD default, msg[start + 3]?.getD default⟩ := by
  obtain ⟨front, a, b, c, d, tail, rfl, rfl⟩ : ∃ front a b c d tail,
      msg = front ++ ([a, b, c, d] ++ tail) ∧ start = front.length := by
    have hdrop : 4 ≤ (msg.drop start).length := by
      rw [List.length_drop]
      omega
    have hsplit := List.take_append_drop start msg
    match hrest : msg.drop start, hdrop with
    | a :: b :: c :: d :: tail, _ =>
        rw [hrest] at hsplit
        exact ⟨msg.take start, a, b, c, d, tail, hsplit.symm, by rw [List.length_take]; omega⟩
  have hget := getElem?_behind front ([a, b, c, d] ++ tail)
  rw [ipv4Of_behind, hget 1, hget 2, hget 3, ← Nat.add_zero front.length, hget 0]
  rfl

theorem ipv4Of_eq_none {start : Nat} (h : ¬ start + 4 ≤ msg.length) : ipv4Of msg start = none := by
  rw [ipv4Of, getRange, if_neg fun hrange => h hrange.2]

theorem scans_ipv4 (start : Nat) : Scans msg (ipv4Scan msg.length start) (ipv4Of msg start) := by
  rw [ipv4Scan]
  split
  · rename_i hfit
    rw [ipv4Of_eq_some msg hfit]
    refine ⟨⟨?_, fun _ => ⟨?_, fun _ => ⟨?_, fun _ => ⟨?_, fun _ => trivial⟩⟩⟩⟩, rfl⟩
    all_goals omega
  · rename_i hfit
    rw [ipv4Of_eq_none msg hfit]
    exact scans_ret none

theorem scans_firstA (k pos : Nat) :
    Scans msg (firstAScan msg.length k pos) (firstA msg k pos) := by
  induction k generalizing pos with
  | zero => exact scans_ret none
  | succ k ih =>
      rw [firstAScan, firstA]
      refine scans_thenSome (scans_skipName msg pos) fun next => ?_
      have hround := scans_thenSome (scans_fetchWord msg next) fun rtype =>
        scans_thenSome (scans_fetchWord msg (next + 8)) fun rdlength =>
          show Scans msg
            (if rtype = typeA ∧ rdlength.toNat = 4 then ipv4Scan msg.length (next + 10)
              else firstAScan msg.length k (next + 10 + rdlength.toNat))
            (if rtype = typeA ∧ rdlength.toNat = 4 then ipv4Of msg (next + 10)
              else firstA msg k (next + 10 + rdlength.toNat)) by
            split
            · exact scans_ipv4 msg _
            · exact ih _
      simp only [Option.bind_assoc, Option.bind_some] at hround
      exact hround

theorem scans_parseFirstAIpv4 :
    Scans msg (parseFirstAIpv4Scan msg.length) (parseFirstAIpv4 msg) := by
  rw [parseFirstAIpv4Scan, parseFirstAIpv4]
  split
  · exact scans_ret none
  · rename_i hlen
    have hwalks : ∀ qdcount ancount : UInt16, Scans msg
        ((skipQuestionsScan msg.length qdcount.toNat headerLen).thenSome fun pos =>
          firstAScan msg.length ancount.toNat pos)
        ((skipQuestions msg qdcount.toNat headerLen).bind fun pos =>
          firstA msg ancount.toNat pos) :=
      fun qdcount ancount => scans_thenSome (scans_skipQuestions msg qdcount.toNat headerLen)
        fun pos => scans_firstA msg ancount.toNat pos
    have hbyte : ∀ i : Fin 12, msg[i.val]?.getD default =
        (⟨msg, Nat.le_of_not_lt hlen⟩ : Request).byte i := by
      intro i
      rw [List.getElem?_eq_getElem (Nat.lt_of_lt_of_le i.isLt (Nat.le_of_not_lt hlen))]
      rfl
    rw [headerLen] at hlen
    refine ⟨⟨?_, fun _ => ⟨?_, fun _ => ⟨?_, fun _ => ⟨?_, fun _ => (hwalks _ _).inside⟩⟩⟩⟩, ?_⟩
    · omega
    · omega
    · omega
    · omega
    dsimp only
    rw [Request.qdcount, Request.ancount, ← hbyte 4, ← hbyte 5, ← hbyte 6, ← hbyte 7]
    exact (hwalks _ _).result

end Scans

/-- On every well-formed response the decoder returns the first address among the
answers; on any bytes its loops end and it reads nothing outside the message. -/
theorem parseFirstAIpv4_correct :
    (∀ r : Response, parseFirstAIpv4 r.encode = r.answers.val.findSome? address) ∧
    ∀ msg : List UInt8,
      (∀ pos, Loop.run (skipRound msg) (msg.length - pos + 1) pos = some (skipName msg pos) ∧
        Scans msg (skipNameScan msg.length pos) (skipName msg pos)) ∧
      (∀ k pos, Scans msg (skipQuestionsScan msg.length k pos) (skipQuestions msg k pos)) ∧
      (∀ k pos, Scans msg (firstAScan msg.length k pos) (firstA msg k pos)) ∧
      Scans msg (parseFirstAIpv4Scan msg.length) (parseFirstAIpv4 msg) :=
  ⟨parseFirstAIpv4_encode, fun msg =>
    ⟨fun pos => ⟨(computes_skipRound msg).run_eq (Nat.lt_succ_self _), scans_skipName msg pos⟩,
      scans_skipQuestions msg, scans_firstA msg, scans_parseFirstAIpv4 msg⟩⟩

end DigDns.Dns
