import DigDns.Dns.Policy

/-!
# How long a response is

The question is echoed whole, however long it is, and so is the `OPT` record
when the answer is dropped.  Two bounds of the socket layer rest on the length
of the response: the sixteen bits of the TCP length prefix (`handle_dns_tcp` of
`server.rs`) and the negotiated UDP payload.  Each holds for exactly the
requests whose question leaves room for it.
-/

namespace DigDns.Dns

open Rust Rfc1035

/-! ## Lengths -/

theorem length_encode_aRecord (ip : Ipv4Addr) (ttl : UInt32) :
    (aRecord ip ttl).encode.length = 16 := rfl

theorem length_encode_optRecord : optRecord.encode.length = 11 := rfl

theorem length_replyTo (header : Header) (q : Question) (opt : Option UInt16) (ip : Ipv4Addr)
    (tld : Str) (ttl : UInt32) (cut : Bool) :
    (replyTo header q opt ip tld ttl cut).encode.length =
      12 + q.encode.length +
        (if isUnderTld q tld ∧ q.qtype = typeA ∧ cut = false then 16 else 0) +
        (if opt.isSome then 11 else 0) := by
  simp only [Message.encode, List.length_append, Header.length_encode]
  have hq : ((replyTo header q opt ip tld ttl cut).questions.val.flatMap Question.encode).length =
      q.encode.length := by
    simp [replyTo, entry]
  have han : ((replyTo header q opt ip tld ttl cut).answers.val.flatMap Record.encode).length =
      if isUnderTld q tld ∧ q.qtype = typeA ∧ cut = false then 16 else 0 := by
    simp only [replyTo]
    split_ifs
    · simp [entry, length_encode_aRecord]
    · rfl
  have hns : ((replyTo header q opt ip tld ttl cut).authority.val.flatMap Record.encode).length =
      0 := rfl
  have har : ((replyTo header q opt ip tld ttl cut).additional.val.flatMap Record.encode).length =
      if opt.isSome then 11 else 0 := by
    simp only [replyTo]
    split_ifs
    · simp [entry, length_encode_optRecord]
    · rfl
  rw [hq, han, hns, har]
  omega

/-- Every request carries a question or is malformed. -/
theorem Request.cases (request : Request) :
    (∃ (header : Header) (q : Question) (tail : List UInt8),
      request.bytes = header.encode ++ (q.encode ++ tail) ∧ header.qdcount ≠ 0) ∨
    ∃ (header : Header) (body : List UInt8), request.bytes = header.encode ++ body ∧
      (header.qdcount = 0 ∨
        ¬ ∃ (q : Question) (tail : List UInt8), body = q.encode ++ tail) := by
  obtain ⟨header, body, hrequest⟩ := exists_header request.length_ge
  by_cases hbad : header.qdcount = 0 ∨
      ¬ ∃ (q : Question) (tail : List UInt8), body = q.encode ++ tail
  · exact Or.inr ⟨header, body, hrequest, hbad⟩
  · push Not at hbad
    obtain ⟨hqd, q, tail, rfl⟩ := hbad
    exact Or.inl ⟨header, q, tail, hrequest, hqd⟩

/-- The header, question and tail of a request are its own. -/
theorem question_unique {header header' : Header} {q q' : Question} {tail tail' : List UInt8}
    (h : header.encode ++ (q.encode ++ tail) = header'.encode ++ (q'.encode ++ tail')) :
    header = header' ∧ q = q' ∧ tail = tail' := by
  obtain ⟨rfl, hbody⟩ := Header.selfDelimiting h
  obtain ⟨rfl, rfl⟩ := Question.selfDelimiting hbody
  exact ⟨rfl, rfl, rfl⟩

/-- What holds of every question that a request starts with holds of its one. -/
theorem forall_question_iff {P : Header → Question → List UInt8 → Prop} (header : Header)
    (q : Question) (tail : List UInt8) (hqd : header.qdcount ≠ 0) :
    (∀ (header' : Header) (q' : Question) (tail' : List UInt8), header'.qdcount ≠ 0 →
      header.encode ++ (q.encode ++ tail) = header'.encode ++ (q'.encode ++ tail') →
        P header' q' tail') ↔ P header q tail := by
  constructor
  · intro hall
    exact hall header q tail hqd rfl
  · intro hP header' q' tail' _ hsame
    obtain ⟨rfl, rfl, rfl⟩ := question_unique hsame
    exact hP

/-- A malformed request starts with no question. -/
theorem forall_question_of_malformed {P : Header → Question → List UInt8 → Prop}
    {header : Header} {body : List UInt8}
    (hbad : header.qdcount = 0 ∨ ¬ ∃ (q : Question) (tail : List UInt8), body = q.encode ++ tail)
    (header' : Header) (q : Question) (tail : List UInt8) (hqd : header'.qdcount ≠ 0)
    (hsame : header.encode ++ body = header'.encode ++ (q.encode ++ tail)) :
    P header' q tail := by
  obtain ⟨rfl, rfl⟩ := Header.selfDelimiting hsame
  rcases hbad with hzero | hno
  · exact absurd hzero hqd
  · exact absurd ⟨q, tail, rfl⟩ hno

/-! ## The length prefix over TCP -/

/-- `handle_dns_tcp`: what is written back for the bytes a client sends, and
`none` when `read_exact` meets the end of the stream. -/
def handleDnsTcp (stream : List UInt8) (ip : Ipv4Addr) (tld : Str) (ttl : UInt32) :
    Option (List UInt8) :=
  match stream with
  | hi :: lo :: stream =>
      let len := (u16FromBe hi lo).toNat
      if stream.length < len then none
      else
        let msg := stream.take len
        match respond msg ip tld ttl .tcp with
        | some resp =>
            let rlen := u16ToBe (UInt16.ofNat resp.length)
            some (rlen ++ resp)
        | none => some []
  | _ => none

/-- The client's side of the framing. -/
def frame (msg : List UInt8) : List UInt8 :=
  u16ToBe (UInt16.ofNat msg.length) ++ msg

theorem handleDnsTcp_frame {msg : List UInt8} (hmsg : msg.length ≤ 65535) (ip : Ipv4Addr)
    (tld : Str) (ttl : UInt32) :
    handleDnsTcp (frame msg) ip tld ttl =
      match respond msg ip tld ttl .tcp with
      | some resp => some (frame resp)
      | none => some [] := by
  have hlen : (UInt16.ofNat msg.length).toNat = msg.length := by
    rw [UInt16.toNat_ofNat', Nat.mod_eq_of_lt (by omega)]
  simp only [handleDnsTcp, frame, u16ToBe, List.cons_append, List.nil_append]
  rw [show u16FromBe _ _ = UInt16.ofNat msg.length from u16FromBe_u16ToBe _, hlen,
    if_neg (Nat.lt_irrefl _), List.take_length]

/-- What is written is a length and as many bytes as it says. -/
def IsFramed (written : Option (List UInt8)) : Prop :=
  ∃ hi lo resp, written = some (hi :: lo :: resp) ∧ (u16FromBe hi lo).toNat = resp.length

theorem isFramed_frame_iff (resp : List UInt8) :
    IsFramed (some (frame resp)) ↔ resp.length ≤ 65535 := by
  have hmod : (UInt16.ofNat resp.length).toNat = resp.length % 65536 := UInt16.toNat_ofNat'
  constructor
  · rintro ⟨hi, lo, resp', hframe, hlen⟩
    simp only [frame, u16ToBe, List.cons_append, List.nil_append, Option.some.injEq,
      List.cons.injEq] at hframe
    obtain ⟨rfl, rfl, rfl⟩ := hframe
    rw [u16FromBe_u16ToBe, hmod] at hlen
    omega
  · intro hle
    refine ⟨_, _, resp, rfl, ?_⟩
    rw [u16FromBe_u16ToBe, hmod, Nat.mod_eq_of_lt (by omega)]

theorem isFramed_question_iff (header : Header) (q : Question) (tail : List UInt8)
    (hqd : header.qdcount ≠ 0) (hlen : (header.encode ++ (q.encode ++ tail)).length ≤ 65535)
    (ip : Ipv4Addr) (tld : Str) (ttl : UInt32) :
    IsFramed (handleDnsTcp (frame (header.encode ++ (q.encode ++ tail))) ip tld ttl) ↔
      12 + q.encode.length + (if isUnderTld q tld ∧ q.qtype = 1 then 16 else 0) +
        (if (foundOpt header tail).isSome then 11 else 0) ≤ 65535 := by
  have hcut : isCut tld .tcp q (foundOpt header tail) = false := by
    simp [isCut]
  rw [handleDnsTcp_frame hlen, respond_question header ip tld ttl .tcp q tail hqd, hcut,
    isFramed_frame_iff, length_replyTo]
  simp [typeA]

/-- The length prefix is right exactly for the requests without a question and
for those whose response stays below 65536 bytes. -/
theorem handleDnsTcp_isFramed_iff (request : Request) (hlen : request.bytes.length ≤ 65535)
    (ip : Ipv4Addr) (tld : Str) (ttl : UInt32) :
    IsFramed (handleDnsTcp (frame request.bytes) ip tld ttl) ↔
      ∀ (header : Header) (q : Question) (tail : List UInt8), header.qdcount ≠ 0 →
        request.bytes = header.encode ++ (q.encode ++ tail) →
          12 + q.encode.length + (if isUnderTld q tld ∧ q.qtype = 1 then 16 else 0) +
            (if (foundOpt header tail).isSome then 11 else 0) ≤ 65535 := by
  rcases request.cases with ⟨header, q, tail, hrequest, hqd⟩ | ⟨header, body, hrequest, hbad⟩
  · rw [hrequest] at hlen ⊢
    rw [isFramed_question_iff header q tail hqd hlen]
    exact (forall_question_iff (P := fun header q tail =>
      12 + q.encode.length + (if isUnderTld q tld ∧ q.qtype = 1 then 16 else 0) +
        (if (foundOpt header tail).isSome then 11 else 0) ≤ 65535) header q tail hqd).symm
  · rw [hrequest] at hlen ⊢
    refine iff_of_true ?_ (forall_question_of_malformed hbad)
    rw [handleDnsTcp_frame hlen, respond_malformed header body ip tld ttl .tcp hbad,
      isFramed_frame_iff, List.length_take]
    omega

/-- The prefix of the response to a query for `x.dig`. -/
theorem handleDnsTcp_isFramed_query :
    IsFramed (handleDnsTcp
      (frame ([0, 0, 1, 0, 0, 1, 0, 0, 0, 0, 0, 0] ++
        [1, 120, 3, 100, 105, 103, 0, 0, 1, 0, 1])) ⟨127, 0, 0, 2⟩ "dig".toList 5) := by
  refine (handleDnsTcp_isFramed_iff ⟨_, by decide⟩ (by decide) ⟨127, 0, 0, 2⟩ "dig".toList 5).mpr ?_
  intro header q tail _ hsame
  have hlen := congrArg List.length hsame
  simp only [List.length_append, Header.length_encode, List.length_cons, List.length_nil] at hlen
  split_ifs <;> omega

/-- A label of `n` letters `a`. -/
def letters (n : Nat) (hpos : 0 < n) (hlt : n < 64) : Label :=
  ⟨List.replicate n 97, by simpa using hpos, by simpa using hlt⟩

/-- A question for `A` under `.dig` that fills the largest TCP message. -/
def longQuestion : Question where
  qname := List.replicate 1023 (letters 63 (by decide) (by decide)) ++
    [letters 41 (by decide) (by decide)] ++ [⟨[100, 105, 103], by decide, by decide⟩]
  qtype := 1
  qclass := 1

theorem length_longQuestion : longQuestion.encode.length = 65523 := by
  rw [Question.length_encode]
  simp [longQuestion, encodeName, List.length_flatMap, Label.encode, letters,
    -List.reduceReplicate]

/-- The response to the largest such query has 65551 bytes, and its prefix says
fifteen. -/
theorem handleDnsTcp_wraps :
    let request := (Header.mk 0 0x0100 1 0 0 0).encode ++ longQuestion.encode
    request.length = 65535 ∧
      ¬ IsFramed (handleDnsTcp (frame request) ⟨127, 0, 0, 2⟩ "dig".toList 5) := by
  have hunder : isUnderTld longQuestion "dig".toList = true := by
    rw [isUnderTld, show longQuestion.qname.getLast? =
      some ⟨[100, 105, 103], by decide, by decide⟩ from List.getLast?_concat.trans rfl]
    decide
  have hlen : ((Header.mk 0 0x0100 1 0 0 0).encode ++ longQuestion.encode).length = 65535 := by
    rw [List.length_append, Header.length_encode, length_longQuestion]
  refine ⟨hlen, ?_⟩
  have hiff := isFramed_question_iff ⟨0, 0x0100, 1, 0, 0, 0⟩ longQuestion [] (by decide)
    (by rw [List.append_nil]; exact le_of_eq hlen) ⟨127, 0, 0, 2⟩ "dig".toList 5
  rw [List.append_nil] at hiff
  rw [hiff, length_longQuestion, if_pos ⟨hunder, rfl⟩]
  omega

/-! ## The payload size over UDP -/

/-- The payload size that `build` compares with: what the `OPT` record that
`parse` found advertises, or 512. -/
def negotiatedSize (request : Request) : Nat :=
  match parse request with
  | some query => (query.ednsUdpSize.map UInt16.toNat).getD defaultUdpMax
  | none => defaultUdpMax

/-- The response over UDP stays within the negotiated size. -/
def FitsUdp (request : Request) (ip : Ipv4Addr) (tld : Str) (ttl : UInt32) : Prop :=
  ∃ resp, respond request.bytes ip tld ttl .udp = some resp ∧
    resp.length ≤ negotiatedSize request

theorem negotiatedSize_question (header : Header) (q : Question) (tail : List UInt8)
    (hqd : header.qdcount ≠ 0) :
    negotiatedSize (Request.of header (q.encode ++ tail)) =
      payloadSize (foundOpt header tail) := by
  rw [negotiatedSize, parse_question header q tail hqd]
  rfl

/-- Dropping the answer brings the response down to the question and the `OPT`
record, and nothing brings it further down. -/
theorem length_replyTo_udp_le_iff (header : Header) (q : Question) (opt : Option UInt16)
    (ip : Ipv4Addr) (tld : Str) (ttl : UInt32) :
    (replyTo header q opt ip tld ttl (isCut tld .udp q opt)).encode.length ≤ payloadSize opt ↔
      12 + q.encode.length + (if opt.isSome then 11 else 0) ≤ payloadSize opt := by
  rw [length_replyTo]
  by_cases hcut : fullLength q opt tld > payloadSize opt
  · simp [isCut, hcut]
  · simp only [isCut, hcut, and_false, decide_false, and_true]
    rw [fullLength] at hcut
    split_ifs at hcut ⊢ <;> omega

theorem fitsUdp_question_iff (header : Header) (q : Question) (tail : List UInt8)
    (hqd : header.qdcount ≠ 0) (ip : Ipv4Addr) (tld : Str) (ttl : UInt32) :
    FitsUdp (Request.of header (q.encode ++ tail)) ip tld ttl ↔
      12 + q.encode.length + (if (foundOpt header tail).isSome then 11 else 0) ≤
        payloadSize (foundOpt header tail) := by
  rw [← length_replyTo_udp_le_iff header q (foundOpt header tail) ip tld ttl, FitsUdp,
    negotiatedSize_question header q tail hqd]
  change (∃ resp, respond (header.encode ++ (q.encode ++ tail)) ip tld ttl .udp = some resp ∧ _) ↔ _
  rw [respond_question header ip tld ttl .udp q tail hqd]
  simp

/-- The bound holds exactly for the requests without a question and for those
whose question, with the echoed `OPT` record, fits by itself. -/
theorem respond_fitsUdp_iff (request : Request) (ip : Ipv4Addr) (tld : Str) (ttl : UInt32) :
    FitsUdp request ip tld ttl ↔
      ∀ (header : Header) (q : Question) (tail : List UInt8), header.qdcount ≠ 0 →
        request.bytes = header.encode ++ (q.encode ++ tail) →
          12 + q.encode.length + (if (foundOpt header tail).isSome then 11 else 0) ≤
            payloadSize (foundOpt header tail) := by
  rcases request with ⟨bytes, hge⟩
  rcases Request.cases ⟨bytes, hge⟩ with
    ⟨header, q, tail, hrequest, hqd⟩ | ⟨header, body, hrequest, hbad⟩
  · obtain rfl : bytes = header.encode ++ (q.encode ++ tail) := hrequest
    exact (fitsUdp_question_iff header q tail hqd ip tld ttl).trans
      (forall_question_iff (P := fun header q tail =>
        12 + q.encode.length + (if (foundOpt header tail).isSome then 11 else 0) ≤
          payloadSize (foundOpt header tail)) header q tail hqd).symm
  · obtain rfl : bytes = header.encode ++ body := hrequest
    refine iff_of_true ⟨_, respond_malformed header body ip tld ttl .udp hbad, ?_⟩
      (forall_question_of_malformed hbad)
    have hnone : parse ⟨header.encode ++ body, hge⟩ = none :=
      (parse_eq_none_iff header body).mpr hbad
    rw [negotiatedSize, hnone, List.length_take]
    exact Nat.le_trans (Nat.min_le_left _ _) (by decide)

/-- A question for a name of eight long labels. -/
def eightLabels : Question where
  qname := List.replicate 8 (letters 63 (by decide) (by decide))
  qtype := 1
  qclass := 1

/-- A question for `x.dig`. -/
def xDig : Question where
  qname := [⟨[120], by decide, by decide⟩, ⟨[100, 105, 103], by decide, by decide⟩]
  qtype := 1
  qclass := 1

/-- Without `OPT` a long question alone breaks the bound, and with `OPT` a short
question does when the advertised size is small. -/
theorem respond_udp_too_long :
    ¬ FitsUdp (Request.of ⟨0, 0x0100, 1, 0, 0, 0⟩ (eightLabels.encode ++ []))
        ⟨127, 0, 0, 2⟩ "dig".toList 5 ∧
      ¬ FitsUdp (Request.of ⟨0, 0x0100, 1, 0, 0, 1⟩
          (xDig.encode ++ [0, 0, 41, 0, 20, 0, 0, 0, 0, 0, 0]))
        ⟨127, 0, 0, 2⟩ "dig".toList 5 := by
  constructor
  · rw [fitsUdp_question_iff _ _ _ (by decide)]
    decide +kernel
  · rw [fitsUdp_question_iff _ _ _ (by decide)]
    decide +kernel

end DigDns.Dns
