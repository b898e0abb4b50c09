import DigDns.Dns.Edns
import DigDns.Dns.Transports

/-!
# Responders that answer each other

`serve_dns` passes every datagram that it receives to `respond` and sends the
response back.  Two responders that get each other's responses go on for as long as
each message gets one.  `respond` does not look at `QR`: a message that starts with
a question gets a response that starts with the same question.
-/

namespace DigDns.Dns

open Rust Rfc1035

/-- The settings of a responder. -/
structure Responder where
  ip : Ipv4Addr
  tld : Str
  ttl : UInt32

/-- The receive buffer of `serve_dns`. -/
def udpBufferLen : Nat := 4096

/-- What of a datagram arrives. -/
def received (datagram : List UInt8) : List UInt8 := datagram.take udpBufferLen

/-- One turn of `serve_dns`: the response that a datagram is answered with. -/
def Responder.serveUdp (r : Responder) (datagram : List UInt8) : Option (List UInt8) :=
  respond (received datagram) r.ip r.tld r.ttl .udp

/-- The messages between two responders, from a datagram to the first on. -/
def exchange : Responder → Responder → List UInt8 → Nat → Option (List UInt8)
  | _, _, datagram, 0 => some datagram
  | a, b, datagram, n + 1 => (a.serveUdp datagram).bind fun resp => exchange b a resp n

/-- A message that starts with a question, as far as `parse` reads it. -/
def StartsWithQuestion (msg : List UInt8) : Prop :=
  ∃ (header : Header) (q : Question) (tail : List UInt8),
    msg = header.encode ++ (q.encode ++ tail) ∧ header.qdcount ≠ 0

/-- The exchange comes to an end. -/
def Stops (a b : Responder) (datagram : List UInt8) : Prop := ∃ n, exchange a b datagram n = none

/-- The response to a question starts with that question, also as far as the next
responder receives it. -/
theorem serveUdp_question (r : Responder) {datagram : List UInt8}
    (h : StartsWithQuestion (received datagram)) :
    ∃ resp, r.serveUdp datagram = some resp ∧ StartsWithQuestion (received resp) := by
  obtain ⟨header, q, tail, hreceived, hqd⟩ := h
  have hroom : 12 + q.encode.length ≤ udpBufferLen := by
    have hlen := congrArg List.length hreceived
    rw [received, List.length_take, List.length_append, List.length_append,
      Header.length_encode] at hlen
    omega
  let reply := replyTo header q (foundOpt header tail) r.ip r.tld r.ttl
    (isCut r.tld .udp q (foundOpt header tail))
  have hserve : r.serveUdp datagram = some reply.encode := by
    rw [Responder.serveUdp, hreceived]
    exact respond_question header r.ip r.tld r.ttl .udp q tail hqd
  obtain ⟨hbytes, hqd'⟩ := encode_of_question (m := reply) (q := q) rfl
  have hfront : (reply.header.encode ++ q.encode).length ≤ udpBufferLen := by
    rwa [List.length_append, Header.length_encode]
  refine ⟨reply.encode, hserve, reply.header, q,
    ((records reply).flatMap Record.encode).take
      (udpBufferLen - (reply.header.encode ++ q.encode).length), ?_, hqd'⟩
  rw [received, hbytes, ← List.append_assoc, List.take_append, List.take_of_length_le hfront,
    List.append_assoc]

/-- The response to anything else is too short to be answered. -/
theorem serveUdp_malformed (r : Responder) {datagram resp : List UInt8}
    (h : ¬ StartsWithQuestion (received datagram)) (hresp : r.serveUdp datagram = some resp) :
    resp.length < 12 := by
  have hlen : 12 ≤ (received datagram).length := by
    by_contra hlt
    rw [Responder.serveUdp, (respond_eq_none_iff _ r.ip r.tld r.ttl .udp).mpr
      (Nat.lt_of_not_le hlt)] at hresp
    cases hresp
  rcases Request.cases ⟨received datagram, hlen⟩ with
    ⟨header, q, tail, hreceived, hqd⟩ | ⟨header, body, hreceived, hbad⟩
  · exact absurd ⟨header, q, tail, hreceived, hqd⟩ h
  · change received datagram = header.encode ++ body at hreceived
    rw [Responder.serveUdp, hreceived, respond_malformed header body r.ip r.tld r.ttl .udp hbad]
      at hresp
    rw [← Option.some.inj hresp, List.length_take]
    omega

/-- From a question on the exchange has a message at every turn. -/
theorem exchange_question {a b : Responder} {datagram : List UInt8}
    (h : StartsWithQuestion (received datagram)) (n : Nat) :
    ∃ msg, exchange a b datagram n = some msg := by
  induction n generalizing a b datagram with
  | zero => exact ⟨datagram, rfl⟩
  | succ n ih =>
      obtain ⟨resp, hserve, hresp⟩ := serveUdp_question a h
      obtain ⟨msg, hmsg⟩ := ih (a := b) (b := a) hresp
      refine ⟨msg, ?_⟩
      rw [exchange, hserve]
      exact hmsg

/-- From anything else on, there is one response at most. -/
theorem exchange_malformed {a b : Responder} {datagram : List UInt8}
    (h : ¬ StartsWithQuestion (received datagram)) : exchange a b datagram 2 = none := by
  rw [exchange]
  cases hserve : a.serveUdp datagram with
  | none => rfl
  | some resp =>
      have hshort : (received resp).length < 12 := by
        have hlen := serveUdp_malformed a h hserve
        rw [received, List.length_take]
        omega
      rw [Option.bind_some, exchange, Responder.serveUdp,
        (respond_eq_none_iff _ b.ip b.tld b.ttl .udp).mpr hshort]
      rfl

/-- When an exchange stops, and which responses are answered. -/
structure ExchangeLaw (a b : Responder) (datagram : List UInt8) : Prop where
  stops_iff : Stops a b datagram ↔ ¬ StartsWithQuestion (received datagram)
  atMostOne : Stops a b datagram → exchange a b datagram 2 = none
  answered_iff : ∀ msg, qr (flagsOf msg) = true →
    (respond msg a.ip a.tld a.ttl .udp ≠ none ↔ 12 ≤ msg.length)

theorem exchange_law (a b : Responder) (datagram : List UInt8) : ExchangeLaw a b datagram := by
  have hstops : Stops a b datagram ↔ ¬ StartsWithQuestion (received datagram) := by
    constructor
    · rintro ⟨n, hn⟩ hquestion
      obtain ⟨msg, hmsg⟩ := exchange_question hquestion n
      rw [hn] at hmsg
      cases hmsg
    · exact fun h => ⟨2, exchange_malformed h⟩
  refine ⟨hstops, fun h => exchange_malformed (hstops.mp h), fun msg _ => ?_⟩
  rw [ne_eq, respond_eq_none_iff, Nat.not_lt]

/-- Two responders for `.dig` answer each other for ever after a query for `x.dig`, and
a response is answered as a query is. -/
theorem exchange_endless :
    let a : Responder := ⟨⟨127, 0, 0, 5⟩, "dig".toList, 2⟩
    let b : Responder := ⟨⟨127, 0, 0, 6⟩, "dig".toList, 2⟩
    ¬ Stops a b (queryHeader.encode ++ (xDig.encode ++ [])) ∧
      ∃ msg, qr (flagsOf msg) = true ∧ respond msg a.ip a.tld a.ttl .udp ≠ none := by
  intro a b
  constructor
  · rintro ⟨n, hn⟩
    have hquestion : StartsWithQuestion (received (queryHeader.encode ++ (xDig.encode ++ []))) :=
      ⟨queryHeader, xDig, [], by decide +kernel, by decide⟩
    obtain ⟨msg, hmsg⟩ := exchange_question (a := a) (b := b) hquestion n
    rw [hn] at hmsg
    cases hmsg
  · refine ⟨(Header.mk 0 0x8400 1 0 0 0).encode ++ (xDig.encode ++ []), by decide, ?_⟩
    rw [ne_eq, respond_eq_none_iff]
    decide

end DigDns.Dns
