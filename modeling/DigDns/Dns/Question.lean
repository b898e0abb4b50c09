import DigDns.Dns.Parse
import DigDns.Support.Loop

/-!
# The question, both ways

`parse` and the wire encoding are inverse to each other: a header and an encoded
question are read as what was encoded, and whatever is read encodes to the bytes
that the responder echoes.
-/

namespace DigDns.Dns

open Rust Rfc1035

/-! ## The name loop -/

/-- One round of the loop over the question name. -/
def labelRound (msg : List UInt8) (s : Nat × List (List UInt8)) :
    (Nat × List (List UInt8)) ⊕ Option (Nat × List (List UInt8)) :=
  match msg[s.1]? with
  | none => .inr none
  | some len =>
      if len = 0 then .inr (some (s.1 + 1, s.2))
      else if len &&& 0xC0 ≠ 0 then .inr none
      else
        match getRange msg (s.1 + 1) (s.1 + 1 + len.toNat) with
        | none => .inr none
        | some label => .inl (s.1 + 1 + len.toNat, s.2 ++ [label])

/-- Every round of the loop moves on in the message. -/
theorem computes_labelRound (msg : List UInt8) :
    Loop.Computes (labelRound msg) (fun s => msg.length - s.1)
      fun s => readLabels msg s.1 s.2 := by
  rintro ⟨pos, labels⟩
  dsimp only
  rw [labelRound, readLabels]
  dsimp only
  cases hget : msg[pos]? with
  | none => exact Or.inl rfl
  | some len =>
      dsimp only
      split
      · exact Or.inl rfl
      split
      · exact Or.inl rfl
      cases hrange : getRange msg (pos + 1) (pos + 1 + len.toNat) with
      | none => exact Or.inl rfl
      | some label =>
          obtain ⟨-, hstop, -⟩ := getRange_eq_some_iff.mp hrange
          refine Or.inr ⟨_, rfl, ?_, rfl⟩
          dsimp only
          omega

/-! ## Encoding what was read -/

/-- The wire form of labels, each behind its length. -/
def encodeLabels (labels : List (List UInt8)) : List UInt8 :=
  labels.flatMap fun label => UInt8.ofNat label.length :: label

theorem encodeName_eq (name : List Label) :
    encodeName name = encodeLabels (name.map Label.bytes) ++ [0] := by
  rw [encodeName, encodeLabels, List.flatMap_map]
  rfl

/-- The query holds the labels, type, opcode, RD bit and bytes of a question. -/
structure Reads (query : Query) (header : Header) (q : Question) : Prop where
  labels : query.labels = q.qname.map Label.bytes
  qtype : query.qtype = q.qtype
  opcode : query.opcode.toNat = opcode header.flags
  rd : query.rd = rd header.flags
  rawQuestion : query.rawQuestion = q.encode

/-- The labels, type and two more bytes of a query encode to the bytes it keeps, which
stand behind the header of the message. -/
def EchoesBytes (msg : Request) (query : Query) : Prop :=
  (∃ c₁ c₀, encodeLabels query.labels ++ 0 :: (u16ToBe query.qtype ++ [c₁, c₀]) =
    query.rawQuestion) ∧
  query.rawQuestion = (msg.bytes.drop headerLen).take query.rawQuestion.length

theorem reads_queryOf (header : Header) (q : Question) (tail : List UInt8) :
    Reads (queryOf header q tail) header q where
  labels := rfl
  qtype := rfl
  opcode := toNat_opcode header.flags
  rd := rd_eq header.flags
  rawQuestion := rfl

theorem echoesBytes_queryOf (header : Header) (q : Question) (tail : List UInt8) :
    EchoesBytes (Request.of header (q.encode ++ tail)) (queryOf header q tail) := by
  constructor
  · refine ⟨UInt8.ofNat (q.qclass.toNat / 256), UInt8.ofNat q.qclass.toNat, ?_⟩
    change encodeLabels (q.qname.map Label.bytes) ++ 0 :: (u16ToBe q.qtype ++ u16ToBe q.qclass) =
      q.encode
    rw [Question.encode, encodeName_eq, List.append_assoc, List.singleton_append]
  · have hdrop : (Request.of header (q.encode ++ tail)).bytes.drop headerLen =
        q.encode ++ tail := by
      rw [show headerLen = header.encode.length from rfl]
      exact List.drop_left
    rw [hdrop]
    exact List.take_left.symm

/-- Every request is a header with the bytes behind it. -/
theorem Request.exists_of (msg : Request) : ∃ header body, msg = Request.of header body := by
  obtain ⟨bytes, hlen⟩ := msg
  obtain ⟨header, body, rfl⟩ := exists_header hlen
  exact ⟨header, body, rfl⟩

/-- An encoded question is read as it is, whatever is read echoes the message, and the
loop over the name ends within as many rounds as the message has bytes left. -/
theorem parse_inverse :
    (∀ (header : Header) (q : Question) (tail : List UInt8), 1 ≤ header.qdcount →
      ∃ query, parse (Request.of header (q.encode ++ tail)) = some query ∧
        Reads query header q) ∧
    (∀ (msg : Request) (query : Query), parse msg = some query → EchoesBytes msg query) ∧
    ∀ (msg : List UInt8) (pos : Nat) (labels : List (List UInt8)),
      Loop.run (labelRound msg) (msg.length - pos + 1) (pos, labels) =
        some (readLabels msg pos labels) := by
  refine ⟨fun header q tail hcount => ?_, fun msg query h => ?_, fun msg pos labels => ?_⟩
  · have hqd : header.qdcount ≠ 0 := by
      rintro hzero
      rw [hzero] at hcount
      exact absurd hcount (by decide)
    exact ⟨_, parse_question header q tail hqd, reads_queryOf header q tail⟩
  · obtain ⟨header, body, rfl⟩ := msg.exists_of
    obtain ⟨hqd, q, tail, rfl⟩ := exists_question_of_parse h
    rw [parse_question header q tail hqd] at h
    cases h
    exact echoesBytes_queryOf header q tail
  · exact (computes_labelRound msg).run_eq (Nat.lt_succ_self _)

theorem dig_pos : 0 < ([100, 105, 103] : List UInt8).length := by decide

theorem dig_lt : ([100, 105, 103] : List UInt8).length < 64 := by decide

/-- A query for the address of `dig`. -/
def digQuestion : Question := ⟨[⟨[100, 105, 103], dig_pos, dig_lt⟩], typeA, 1⟩

theorem parse_inverse_dig :
    ∃ query, parse (Request.of ⟨7, 0x0100, 1, 0, 0, 0⟩ (digQuestion.encode ++ [1])) = some query ∧
      Reads query ⟨7, 0x0100, 1, 0, 0, 0⟩ digQuestion ∧
      EchoesBytes (Request.of ⟨7, 0x0100, 1, 0, 0, 0⟩ (digQuestion.encode ++ [1])) query := by
  obtain ⟨query, hparse, hreads⟩ :=
    parse_inverse.1 ⟨7, 0x0100, 1, 0, 0, 0⟩ digQuestion [1] (by decide)
  exact ⟨query, hparse, hreads, parse_inverse.2.1 _ query hparse⟩

end DigDns.Dns
