import DigDns.Dns.Parse

/-!
# What the responder answers

Every request of at least twelve bytes is a header and a body.  When the body
starts with a question, the response is the message `replyTo`.  Otherwise it
is the message `formErr` without its last two bytes: `build_formerr` writes six
zero bytes where four counts take eight.
-/

namespace DigDns.Dns

open Rust Rfc1035

/-! ## The flag word -/

/-- The word that `response_flags` composes. -/
def flagWord (op : UInt16) (authoritative cut desired : Bool) (code : UInt16) : UInt16 :=
  let flags : UInt16 := 0x8000
  let flags := flags ||| ((op &&& 0xF) <<< 11)
  let flags := if authoritative then flags ||| 0x0400 else flags
  let flags := if cut then flags ||| 0x0200 else flags
  let flags := if desired then flags ||| 0x0100 else flags
  flags ||| (code &&& 0xF)

theorem responseFlags_eq (op : UInt16) (authoritative cut desired : Bool) (code : UInt16) :
    responseFlags op authoritative cut desired code =
      u16ToBe (flagWord op authoritative cut desired code) := rfl

/-- Each part of the flag word reads back. -/
theorem flagWord_parts {op code : UInt16} (hop : op.toNat < 16) (hcode : code.toNat < 16)
    (authoritative cut desired : Bool) :
    qr (flagWord op authoritative cut desired code) = true ∧
    opcode (flagWord op authoritative cut desired code) = op.toNat ∧
    aa (flagWord op authoritative cut desired code) = authoritative ∧
    tc (flagWord op authoritative cut desired code) = cut ∧
    rd (flagWord op authoritative cut desired code) = desired ∧
    ra (flagWord op authoritative cut desired code) = false ∧
    rcode (flagWord op authoritative cut desired code) = code.toNat := by
  have hall : ∀ (o c : Fin 16) (a t r : Bool),
      let w := flagWord (UInt16.ofNat o.val) a t r (UInt16.ofNat c.val)
      qr w = true ∧ opcode w = o.val ∧ aa w = a ∧ tc w = t ∧ rd w = r ∧ ra w = false ∧
        rcode w = c.val := by
    decide +kernel
  have := hall ⟨op.toNat, hop⟩ ⟨code.toNat, hcode⟩ authoritative cut desired
  simpa only [UInt16.ofNat_toNat] using this

/-! ## The messages -/

/-- The question's last label is the TLD up to ASCII case. -/
def isUnderTld (q : Question) (tld : Str) : Bool :=
  q.qname.getLast?.any fun label => bytesEqIgnoreAsciiCase label.bytes (utf8 tld)

/-- The `A` record for the question at offset 12. -/
def aRecord (ip : Ipv4Addr) (ttl : UInt32) : Record where
  owner := ⟨[], some 12⟩
  rtype := typeA
  rclass := 1
  ttl := ttl
  rdata := ip.octets
  rdata_lt := by simp [Ipv4Addr.octets]

/-- The `OPT` record the responder sends. -/
def optRecord : Record where
  owner := ⟨[], none⟩
  rtype := typeOpt
  rclass := 4096
  ttl := 0
  rdata := []
  rdata_lt := by decide

def noEntries {α : Type} : Section α := ⟨[], Nat.two_pow_pos 16⟩

def entry {α : Type} (x : α) : Section α := ⟨[x], Nat.one_lt_two_pow (by decide)⟩

/-- The response to a question, its answer left out when it is cut short. -/
def replyTo (header : Header) (q : Question) (opt : Option UInt16) (ip : Ipv4Addr) (tld : Str)
    (ttl : UInt32) (cut : Bool) : Message where
  id := header.id
  flags := flagWord ((header.flags >>> 11) &&& 0xF) (isUnderTld q tld) cut (rd header.flags)
    (if isUnderTld q tld then rcodeNoError else rcodeRefused)
  questions := entry q
  answers :=
    if isUnderTld q tld ∧ q.qtype = typeA ∧ cut = false then entry (aRecord ip ttl)
    else noEntries
  authority := noEntries
  additional := if opt.isSome then entry optRecord else noEntries

/-- The error message for a request without a question. -/
def formErr (header : Header) : Message where
  id := header.id
  flags := flagWord ((header.flags >>> 11) &&& 0xF) false false (rd header.flags) rcodeFormErr
  questions := noEntries
  answers := noEntries
  authority := noEntries
  additional := noEntries

/-- The length of the response before anything is cut. -/
def fullLength (q : Question) (opt : Option UInt16) (tld : Str) : Nat :=
  12 + q.encode.length + (if isUnderTld q tld ∧ q.qtype = typeA then 16 else 0) +
    (if opt.isSome then 11 else 0)

/-- The UDP payload size the two sides agreed on. -/
def payloadSize (opt : Option UInt16) : Nat :=
  (opt.map UInt16.toNat).getD 512

/-- Whether the response to a question is cut short. -/
def isCut (tld : Str) (transport : Transport) (q : Question) (opt : Option UInt16) : Bool :=
  transport = .udp ∧ fullLength q opt tld > payloadSize opt

/-! ## The responder builds these messages -/

theorem writeAAnswer_eq (ttl : UInt32) (ip : Ipv4Addr) :
    writeAAnswer [] ttl ip = (aRecord ip ttl).encode := rfl

theorem writeOpt_eq : writeOpt [] = optRecord.encode := by
  decide

theorem decideAnswer_eq (q : Question) (tld : Str) :
    decideAnswer (q.qname.map Label.bytes) q.qtype tld =
      if isUnderTld q tld = false then .refused
      else if q.qtype = typeA then .a
      else .noData := by
  have hunder : (((q.qname.map Label.bytes).getLast?).map
      fun l => bytesEqIgnoreAsciiCase l (utf8 tld)).getD false = isUnderTld q tld := by
    rw [isUnderTld, List.getLast?_map]
    cases q.qname.getLast? <;> rfl
  rw [decideAnswer, hunder]
  cases isUnderTld q tld <;> rfl

theorem decideAnswer_eq_a_iff (q : Question) (tld : Str) :
    decideAnswer (q.qname.map Label.bytes) q.qtype tld = .a ↔
      isUnderTld q tld = true ∧ q.qtype = typeA := by
  rw [decideAnswer_eq]
  cases isUnderTld q tld <;> by_cases h : q.qtype = typeA <;> simp [h]

theorem decideAnswer_eq_refused_iff (q : Question) (tld : Str) :
    decideAnswer (q.qname.map Label.bytes) q.qtype tld = .refused ↔
      isUnderTld q tld = false := by
  rw [decideAnswer_eq]
  cases isUnderTld q tld <;> by_cases h : q.qtype = typeA <;> simp [h]

/-- The size that `build` checks. -/
theorem fullLength_eq (q : Question) (opt : Option UInt16) (ip : Ipv4Addr) (tld : Str)
    (ttl : UInt32) :
    headerLen + q.encode.length +
        (if isUnderTld q tld = true ∧ q.qtype = typeA then writeAAnswer [] ttl ip else []).length +
        (if opt.isSome = true then writeOpt [] else []).length =
      fullLength q opt tld := by
  have hanswer : (writeAAnswer [] ttl ip).length = 16 := rfl
  have hopt : (writeOpt []).length = 11 := rfl
  rw [fullLength, headerLen]
  split_ifs <;> simp only [hanswer, hopt, List.length_nil]

theorem build_queryOf (header : Header) (q : Question) (tail : List UInt8) (ip : Ipv4Addr)
    (tld : Str) (ttl : UInt32) (transport : Transport) :
    build (queryOf header q tail) ip tld ttl transport =
      (replyTo header q (foundOpt header tail) ip tld ttl
        (isCut tld transport q (foundOpt header tail))).encode := by
  have hunder : decide (decideAnswer (q.qname.map Label.bytes) q.qtype tld ≠ .refused) =
      isUnderTld q tld := by
    rw [Bool.eq_iff_iff, decide_eq_true_iff, ne_eq, decideAnswer_eq_refused_iff]
    simp
  simp only [build, queryOf, hunder, decideAnswer_eq_a_iff, decideAnswer_eq_refused_iff,
    fullLength_eq, rd_eq, responseFlags_eq]
  simp only [writeAAnswer_eq, writeOpt_eq, isCut]
  generalize foundOpt header tail = opt
  rw [show (opt.map UInt16.toNat).getD defaultUdpMax = payloadSize opt from rfl]
  by_cases hcut : transport = .udp ∧ fullLength q opt tld > payloadSize opt
  · cases hu : isUnderTld q tld <;> cases opt <;>
      simp [hcut, hu, replyTo, Message.encode, Message.header, Header.encode, count, entry,
        noEntries, u16ToBe]
  · cases hu : isUnderTld q tld <;> by_cases ha : q.qtype = typeA <;> cases opt <;>
      simp [hcut, hu, ha, replyTo, Message.encode, Message.header, Header.encode, count, entry,
        noEntries, u16ToBe]

/-- `build_formerr` stops two bytes short of a header. -/
theorem buildFormErr_of (header : Header) (body : List UInt8) :
    buildFormErr (Request.of header body) = (formErr header).encode.take 10 := by
  have hid : [(Request.of header body).byte 0, (Request.of header body).byte 1] =
      u16ToBe header.id := rfl
  simp only [buildFormErr, flags_of, rd_eq, responseFlags_eq, hid]
  simp [formErr, Message.encode, Message.header, Header.encode, count, noEntries, u16ToBe]

theorem length_buildFormErr (request : Request) : (buildFormErr request).length = 10 := rfl

section Respond

variable (header : Header) (body : List UInt8) (ip : Ipv4Addr) (tld : Str) (ttl : UInt32)
  (transport : Transport)

theorem respond_of :
    respond (header.encode ++ body) ip tld ttl transport =
      match parse (Request.of header body) with
      | some query => some (build query ip tld ttl transport)
      | none => some (buildFormErr (Request.of header body)) := by
  have hlen : ¬ (header.encode ++ body).length < headerLen := by
    simp [headerLen, Header.length_encode]
  rw [respond, dif_neg hlen]
  rfl

theorem respond_question (q : Question) (tail : List UInt8) (hqd : header.qdcount ≠ 0) :
    respond (header.encode ++ (q.encode ++ tail)) ip tld ttl transport =
      some (replyTo header q (foundOpt header tail) ip tld ttl
        (isCut tld transport q (foundOpt header tail))).encode := by
  rw [respond_of, parse_question header q tail hqd]
  exact congrArg some (build_queryOf header q tail ip tld ttl transport)

theorem respond_malformed
    (hbad : header.qdcount = 0 ∨ ¬ ∃ (q : Question) (tail : List UInt8), body = q.encode ++ tail) :
    respond (header.encode ++ body) ip tld ttl transport =
      some ((formErr header).encode.take 10) := by
  rw [respond_of, (parse_eq_none_iff header body).mpr hbad]
  exact congrArg some (buildFormErr_of header body)

end Respond

theorem respond_eq_none_iff (request : List UInt8) (ip : Ipv4Addr) (tld : Str) (ttl : UInt32)
    (transport : Transport) :
    respond request ip tld ttl transport = none ↔ request.length < 12 := by
  rw [respond]
  split_ifs with h
  · simpa [headerLen] using h
  · constructor
    · intro hnone
      dsimp only at hnone
      split at hnone <;> cases hnone
    · intro hlt
      exact absurd hlt h

/-! ## Reading the messages -/

theorem opcode_lt (flags : UInt16) : ((flags >>> 11) &&& 0xF).toNat < 16 := by
  rw [toNat_opcode, opcode]
  exact Nat.mod_lt _ (by decide)

/-- What every response says about itself. -/
structure Echoes (header : Header) (reply : Message) : Prop where
  id : reply.id = header.id
  qr : qr reply.flags = true
  opcode : opcode reply.flags = opcode header.flags
  rd : rd reply.flags = rd header.flags
  ra : ra reply.flags = false

theorem replyTo_echoes (header : Header) (q : Question) (opt : Option UInt16) (ip : Ipv4Addr)
    (tld : Str) (ttl : UInt32) (cut : Bool) :
    Echoes header (replyTo header q opt ip tld ttl cut) := by
  obtain ⟨hqr, hop, -, -, hrd, hra, -⟩ := flagWord_parts (opcode_lt header.flags)
    (by split <;> decide : (if isUnderTld q tld then rcodeNoError else rcodeRefused).toNat < 16)
    (isUnderTld q tld) cut (Rfc1035.rd header.flags)
  exact ⟨rfl, hqr, hop.trans (toNat_opcode _), hrd, hra⟩

/-- Authority and response code of a response to a question. -/
theorem replyTo_verdict (header : Header) (q : Question) (opt : Option UInt16) (ip : Ipv4Addr)
    (tld : Str) (ttl : UInt32) (cut : Bool) :
    aa (replyTo header q opt ip tld ttl cut).flags = isUnderTld q tld ∧
    tc (replyTo header q opt ip tld ttl cut).flags = cut ∧
    rcode (replyTo header q opt ip tld ttl cut).flags = if isUnderTld q tld then 0 else 5 := by
  obtain ⟨-, -, haa, htc, -, -, hcode⟩ := flagWord_parts (opcode_lt header.flags)
    (by split <;> decide : (if isUnderTld q tld then rcodeNoError else rcodeRefused).toNat < 16)
    (isUnderTld q tld) cut (rd header.flags)
  refine ⟨haa, htc, hcode.trans ?_⟩
  cases isUnderTld q tld <;> rfl

/-- The section counts of a message, as numbers. -/
def counts (m : Message) : List Nat :=
  [m.header.qdcount.toNat, m.header.ancount.toNat, m.header.nscount.toNat,
    m.header.arcount.toNat]

theorem toNat_count {α : Type} (entries : Section α) :
    (count entries).toNat = entries.val.length := by
  rw [count, UInt16.toNat_ofNat', Nat.mod_eq_of_lt entries.2]

theorem counts_eq (m : Message) :
    counts m = [m.questions.val.length, m.answers.val.length, m.authority.val.length,
      m.additional.val.length] := by
  simp only [counts, Message.header, toNat_count]

theorem length_encode_ge (m : Message) : 12 ≤ m.encode.length := by
  rw [Message.encode, List.length_append, Header.length_encode]
  omega

/-! ## The policy -/

section Policy

variable (ip : Ipv4Addr) (tld : Str) (ttl : UInt32)

/-- The reply that the policy asks for over TCP: a bare error when the body
starts with no question, and otherwise the question with its verdict. -/
structure IsPolicyReply (header : Header) (body : List UInt8) (reply : Message) : Prop where
  formErr :
    (rcode reply.flags = 1 ∧ reply.encode.length = 12 ∧ counts reply = [0, 0, 0, 0]) ↔
      header.qdcount = 0 ∨ ¬ ∃ (q : Question) (tail : List UInt8), body = q.encode ++ tail
  answers : ∀ (q : Question) (tail : List UInt8), header.qdcount ≠ 0 → body = q.encode ++ tail →
    Echoes header reply ∧
    reply.questions.val = [q] ∧
    ((rcode reply.flags = 0 ∧ aa reply.flags = true ∧ reply.answers.val = [aRecord ip ttl]) ↔
      isUnderTld q tld = true ∧ q.qtype = 1) ∧
    ((rcode reply.flags = 0 ∧ aa reply.flags = true ∧ reply.answers.val = []) ↔
      isUnderTld q tld = true ∧ q.qtype ≠ 1) ∧
    ((rcode reply.flags = 5 ∧ aa reply.flags = false ∧ reply.answers.val = []) ↔
      isUnderTld q tld = false)
  counts : counts reply = [reply.questions.val.length, reply.answers.val.length,
    reply.authority.val.length, reply.additional.val.length]

/-- The policy at one request: silence below twelve bytes, and otherwise the
bytes of the reply. -/
structure MeetsTcpPolicy (request : List UInt8) : Prop where
  silent : respond request ip tld ttl .tcp = none ↔ request.length < 12
  replies : ∀ (header : Header) (body : List UInt8), request = header.encode ++ body →
    ∃ reply : Message, respond request ip tld ttl .tcp = some reply.encode ∧
      IsPolicyReply ip tld ttl header body reply

theorem isPolicyReply_replyTo (header : Header) (q : Question) (tail : List UInt8)
    (hqd : header.qdcount ≠ 0) :
    IsPolicyReply ip tld ttl header (q.encode ++ tail)
      (replyTo header q (foundOpt header tail) ip tld ttl false) := by
  obtain ⟨haa, -, hcode⟩ := replyTo_verdict header q (foundOpt header tail) ip tld ttl false
  refine ⟨iff_of_false ?_ ?_, ?_, counts_eq _⟩
  · rintro ⟨hone, -, -⟩
    rw [hcode] at hone
    split at hone <;> cases hone
  · rintro (hzero | hno)
    · exact hqd hzero
    · exact hno ⟨q, tail, rfl⟩
  · intro q' tail' _ hbody
    obtain ⟨rfl, rfl⟩ := Question.selfDelimiting hbody
    rw [haa, hcode, show (1 : UInt16) = typeA from rfl]
    refine ⟨replyTo_echoes header q _ ip tld ttl false, rfl, ?_, ?_, ?_⟩
    · cases hu : isUnderTld q tld <;> by_cases ha : q.qtype = typeA <;>
        simp [hu, ha, replyTo, entry, noEntries]
    · cases hu : isUnderTld q tld <;> by_cases ha : q.qtype = typeA <;>
        simp [hu, ha, replyTo, entry, noEntries]
    · cases hu : isUnderTld q tld <;> simp [hu, replyTo, entry, noEntries]

/-- The policy holds exactly at the requests that are too short to answer and
at those that carry a question. -/
theorem respond_meetsTcpPolicy_iff (request : List UInt8) :
    MeetsTcpPolicy ip tld ttl request ↔
      request.length < 12 ∨
        ∃ (header : Header) (q : Question) (tail : List UInt8),
          request = header.encode ++ (q.encode ++ tail) ∧ header.qdcount ≠ 0 := by
  by_cases hshort : request.length < 12
  · refine iff_of_true ⟨respond_eq_none_iff request ip tld ttl .tcp, ?_⟩ (Or.inl hshort)
    intro header body hrequest
    rw [hrequest, List.length_append, Header.length_encode] at hshort
    omega
  obtain ⟨header, body, rfl⟩ := exists_header (Nat.le_of_not_lt hshort)
  by_cases hbad : header.qdcount = 0 ∨
      ¬ ∃ (q : Question) (tail : List UInt8), body = q.encode ++ tail
  · refine iff_of_false ?_ ?_
    · intro hmeets
      obtain ⟨reply, hreply, -⟩ := hmeets.replies header body rfl
      rw [respond_malformed header body ip tld ttl .tcp hbad] at hreply
      have hlen := congrArg List.length (Option.some.inj hreply)
      have hge := length_encode_ge reply
      rw [← buildFormErr_of header body, length_buildFormErr] at hlen
      omega
    · rintro (hlt | ⟨header', q, tail, hrequest, hqd⟩)
      · exact hshort hlt
      · obtain ⟨rfl, rfl⟩ := Header.selfDelimiting hrequest
        rcases hbad with hzero | hno
        · exact hqd hzero
        · exact hno ⟨q, tail, rfl⟩
  · have hgood := hbad
    push Not at hgood
    obtain ⟨hqd, q, tail, rfl⟩ := hgood
    refine iff_of_true ⟨respond_eq_none_iff _ ip tld ttl .tcp, ?_⟩
      (Or.inr ⟨header, q, tail, rfl, hqd⟩)
    intro header' body' hrequest
    obtain ⟨rfl, rfl⟩ := Header.selfDelimiting hrequest
    have hcut : isCut tld .tcp q (foundOpt header tail) = false := by
      simp [isCut]
    refine ⟨_, respond_question header ip tld ttl .tcp q tail hqd, ?_⟩
    rw [hcut]
    exact isPolicyReply_replyTo ip tld ttl header q tail hqd

end Policy

/-- A header that announces no question is answered with ten bytes, which are
no DNS message. -/
theorem respond_formErr_truncated :
    let request : List UInt8 := [0x12, 0x34, 0x01, 0x00, 0, 0, 0, 0, 0, 0, 0, 0]
    respond request ⟨127, 0, 0, 2⟩ "dig".toList 5 .tcp =
        some [0x12, 0x34, 0x81, 0x01, 0, 0, 0, 0, 0, 0] ∧
      ¬ MeetsTcpPolicy ⟨127, 0, 0, 2⟩ "dig".toList 5 request := by
  refine ⟨by decide +kernel, fun hmeets => ?_⟩
  obtain ⟨reply, hreply, -⟩ :=
    hmeets.replies ⟨0x1234, 0x0100, 0, 0, 0, 0⟩ [] (by decide)
  rw [show respond _ _ _ _ _ = some [0x12, 0x34, 0x81, 0x01, 0, 0, 0, 0, 0, 0] by
    decide +kernel] at hreply
  have hlen := congrArg List.length (Option.some.inj hreply)
  have hge := length_encode_ge reply
  rw [← hlen] at hge
  exact absurd hge (by decide)

end DigDns.Dns
