import DigDns.Support.DnsWire
import DigDns.Support.Ipv4

/-!
# The DNS responder

`dns.rs`: a request is parsed as far as the policy needs it, the policy
decides, and the response is assembled from the raw question, an optional `A`
record and an optional `OPT` record.
-/

namespace DigDns.Dns

open Rust

/-- `TYPE_A`. -/
def typeA : UInt16 := 1

/-- `TYPE_OPT`. -/
def typeOpt : UInt16 := 41

/-- `RCODE_NOERROR`. -/
def rcodeNoError : UInt16 := 0

/-- `RCODE_FORMERR`. -/
def rcodeFormErr : UInt16 := 1

/-- `RCODE_REFUSED`. -/
def rcodeRefused : UInt16 := 5

/-- `DEFAULT_UDP_MAX`. -/
def defaultUdpMax : Nat := 512

/-- `HEADER_LEN`. -/
def headerLen : Nat := 12

inductive Transport
  | udp
  | tcp
deriving DecidableEq, Repr

/-- A parsed query: the fields the policy needs. -/
structure Query where
  id : UInt8 × UInt8
  opcode : UInt16
  rd : Bool
  labels : List (List UInt8)
  qtype : UInt16
  rawQuestion : List UInt8
  ednsUdpSize : Option UInt16
deriving DecidableEq

inductive Answer
  | a
  | noData
  | refused
deriving DecidableEq, Repr

/-- A message of at least `HEADER_LEN` bytes, as `respond` passes it on. -/
structure Request where
  bytes : List UInt8
  length_ge : headerLen ≤ bytes.length

/-- Indexing into the header. -/
def Request.byte (msg : Request) (i : Fin 12) : UInt8 :=
  msg.bytes.get ⟨i, Nat.lt_of_lt_of_le i.isLt msg.length_ge⟩

/-- The number of questions in the header. -/
def Request.qdcount (msg : Request) : UInt16 := u16FromBe (msg.byte 4) (msg.byte 5)

/-- The number of answers. -/
def Request.ancount (msg : Request) : UInt16 := u16FromBe (msg.byte 6) (msg.byte 7)

/-- `msg.get(start..end)`. -/
def getRange (msg : List UInt8) (start stop : Nat) : Option (List UInt8) :=
  if start ≤ stop ∧ stop ≤ msg.length then some ((msg.take stop).drop start) else none

theorem getRange_eq_some_iff {msg : List UInt8} {start stop : Nat} {bytes : List UInt8} :
    getRange msg start stop = some bytes ↔
      start ≤ stop ∧ stop ≤ msg.length ∧ (msg.take stop).drop start = bytes := by
  rw [getRange]
  split_ifs with h
  · simp [h]
  · simp only [false_iff]
    rintro ⟨hle, hlen, -⟩
    exact h ⟨hle, hlen⟩

/-- The loop over the question name: the position after the closing zero byte,
and the labels read. -/
def readLabels (msg : List UInt8) (pos : Nat) (labels : List (List UInt8)) :
    Option (Nat × List (List UInt8)) :=
  match msg[pos]? with
  | none => none
  | some len =>
      if len = 0 then some (pos + 1, labels)
      -- A compression pointer has no place in a question name.
      else if len &&& 0xC0 ≠ 0 then none
      else
        let start := pos + 1
        let stop := start + len.toNat
        match _hlabel : getRange msg start stop with
        | none => none
        | some label => readLabels msg stop (labels ++ [label])
termination_by msg.length - pos
decreasing_by
  obtain ⟨-, hstop, -⟩ := getRange_eq_some_iff.mp _hlabel
  omega

/-- `parse_opt_udp_size` -/
def parseOptUdpSize (msg : List UInt8) (pos : Nat) : Option UInt16 := do
  if (← msg[pos]?) ≠ 0 then none
  else
    let rtype := u16FromBe (← msg[pos + 1]?) (← msg[pos + 2]?)
    if rtype ≠ typeOpt then none
    else some (u16FromBe (← msg[pos + 3]?) (← msg[pos + 4]?))

/-- `parse` -/
def parse (msg : Request) : Option Query := do
  let id := (msg.byte 0, msg.byte 1)
  let flags := u16FromBe (msg.byte 2) (msg.byte 3)
  let opcode := (flags >>> 11) &&& 0xF
  let rd := (flags &&& 0x0100) != 0
  let qdcount := u16FromBe (msg.byte 4) (msg.byte 5)
  let arcount := u16FromBe (msg.byte 10) (msg.byte 11)
  if qdcount = 0 then none
  else
    let (pos, labels) ← readLabels msg.bytes headerLen []
    let qtype := u16FromBe (← msg.bytes[pos]?) (← msg.bytes[pos + 1]?)
    let qEnd := pos + 4
    if qEnd > msg.bytes.length then none
    else
      let rawQuestion := (msg.bytes.take qEnd).drop headerLen
      let ednsUdpSize := if arcount ≥ 1 then parseOptUdpSize msg.bytes qEnd else none
      some { id, opcode, rd, labels, qtype, rawQuestion, ednsUdpSize }

/-- `decide`: whether the last label is the TLD, and whether an `A` record is
asked for. -/
def decideAnswer (labels : List (List UInt8)) (qtype : UInt16) (tld : Str) : Answer :=
  let underTld := (labels.getLast?.map fun l => bytesEqIgnoreAsciiCase l (utf8 tld)).getD false
  if !underTld then .refused
  else if qtype = typeA then .a
  else .noData

/-- `response_flags` -/
def responseFlags (opcode : UInt16) (aa tc rd : Bool) (rcode : UInt16) : List UInt8 :=
  let flags : UInt16 := 0x8000
  let flags := flags ||| ((opcode &&& 0xF) <<< 11)
  let flags := if aa then flags ||| 0x0400 else flags
  let flags := if tc then flags ||| 0x0200 else flags
  let flags := if rd then flags ||| 0x0100 else flags
  let flags := flags ||| (rcode &&& 0xF)
  u16ToBe flags

/-- `write_a_answer` -/
def writeAAnswer (out : List UInt8) (ttl : UInt32) (ip : Ipv4Addr) : List UInt8 :=
  out ++ [0xC0, 0x0C] ++ u16ToBe typeA ++ u16ToBe 1 ++ u32ToBe ttl ++ u16ToBe 4 ++ ip.octets

/-- `write_opt` -/
def writeOpt (out : List UInt8) : List UInt8 :=
  out ++ [0x00] ++ u16ToBe typeOpt ++ u16ToBe 4096 ++ [0, 0, 0, 0] ++ u16ToBe 0

/-- `build` -/
def build (query : Query) (loopbackIp : Ipv4Addr) (tld : Str) (ttl : UInt32)
    (transport : Transport) : List UInt8 :=
  let answer := decideAnswer query.labels query.qtype tld
  let underTld := answer ≠ .refused
  let rcode := if answer = .refused then rcodeRefused else rcodeNoError
  let hasOpt := query.ednsUdpSize.isSome
  let ancount : UInt16 := if answer = .a then 1 else 0
  -- The sections are assembled first, so that their size can be checked.
  let answers := if answer = .a then writeAAnswer [] ttl loopbackIp else []
  let additional := if hasOpt then writeOpt [] else []
  let fullLen := headerLen + query.rawQuestion.length + answers.length + additional.length
  let truncate := transport = .udp ∧
    fullLen > (query.ednsUdpSize.map UInt16.toNat).getD defaultUdpMax
  let (finalAn, tc) := if truncate then ((0 : UInt16), true) else (ancount, false)
  [query.id.1, query.id.2] ++
    responseFlags query.opcode underTld tc query.rd rcode ++
    u16ToBe 1 ++ u16ToBe finalAn ++ u16ToBe 0 ++ u16ToBe (if hasOpt then 1 else 0) ++
    query.rawQuestion ++
    (if ¬ truncate then answers else []) ++
    additional

/-- `build_formerr` -/
def buildFormErr (request : Request) : List UInt8 :=
  let flags := u16FromBe (request.byte 2) (request.byte 3)
  let opcode := (flags >>> 11) &&& 0xF
  let rd := (flags &&& 0x0100) != 0
  [request.byte 0, request.byte 1] ++
    responseFlags opcode false false rd rcodeFormErr ++
    [0, 0, 0, 0, 0, 0]

/-- `respond` -/
def respond (request : List UInt8) (loopbackIp : Ipv4Addr) (tld : Str) (ttl : UInt32)
    (transport : Transport) : Option (List UInt8) :=
  if h : request.length < headerLen then none
  else
    let request : Request := ⟨request, Nat.le_of_not_lt h⟩
    match parse request with
    | some query => some (build query loopbackIp tld ttl transport)
    | none => some (buildFormErr request)

end DigDns.Dns
