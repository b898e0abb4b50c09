import DigDns.Dns.Records

/-!
# UDP against TCP

A client that sees `TC` asks again over TCP.  The two responses to one request are
the same bytes, or the UDP response is the TCP response with `TC` set and its
answers left out; which of the two is decided by the length of the TCP response.
-/

namespace DigDns.Dns

open Rust Rfc1035

/-- A message with `TC` set and without its answers. -/
def cutShort (m : Message) : Message :=
  { m with flags := m.flags ||| 0x0200, answers := noEntries }

/-- The flag word of a message in bytes. -/
def flagsOf : List UInt8 → UInt16
  | _ :: _ :: hi :: lo :: _ => u16FromBe hi lo
  | _ => 0

theorem flagsOf_encode (m : Message) : flagsOf m.encode = m.flags :=
  u16FromBe_u16ToBe m.flags

theorem flagsOf_take_encode (m : Message) : flagsOf (m.encode.take 10) = m.flags :=
  u16FromBe_u16ToBe m.flags

/-- Setting `TC` in a flag word composed without it. -/
theorem flagWord_true (op : UInt16) (authoritative desired : Bool) (code : UInt16) :
    flagWord op authoritative true desired code =
      flagWord op authoritative false desired code ||| 0x0200 := by
  cases authoritative <;> cases desired <;>
    simp only [flagWord, Bool.false_eq_true, if_true, if_false] <;> ac_rfl

variable {header : Header} {q : Question} {opt : Option UInt16} {ip : Ipv4Addr} {tld : Str}
  {ttl : UInt32}

theorem replyTo_true :
    replyTo header q opt ip tld ttl true = cutShort (replyTo header q opt ip tld ttl false) := by
  have hanswers : (replyTo header q opt ip tld ttl true).answers = noEntries :=
    if_neg fun h => Bool.noConfusion h.2.2
  have hflags : (replyTo header q opt ip tld ttl true).flags =
      (replyTo header q opt ip tld ttl false).flags ||| 0x0200 := flagWord_true _ _ _ _
  rw [cutShort, ← hflags, ← hanswers]
  rfl

/-- The response over TCP has the length that `build` computes. -/
theorem length_replyTo_false :
    (replyTo header q opt ip tld ttl false).encode.length = fullLength q opt tld := by
  rw [length_replyTo, fullLength]
  simp only [and_true]

theorem isCut_udp_eq_false_iff :
    isCut tld .udp q opt = false ↔ fullLength q opt tld ≤ payloadSize opt := by
  simp [isCut]

/-- The two responses to a request. -/
structure TransportsAgree (request : List UInt8) (ip : Ipv4Addr) (tld : Str) (ttl : UInt32) :
    Prop where
  cut : respond request ip tld ttl .udp = respond request ip tld ttl .tcp ∨
    ∃ m : Message, respond request ip tld ttl .tcp = some m.encode ∧
      respond request ip tld ttl .udp = some (cutShort m).encode ∧ tc (cutShort m).flags = true
  same_iff : respond request ip tld ttl .udp = respond request ip tld ttl .tcp ↔
    request.length < 12 ∨ ∃ (msg : Request) (resp : List UInt8), msg.bytes = request ∧
      respond request ip tld ttl .tcp = some resp ∧
      (rcode (flagsOf resp) = 1 ∨ resp.length ≤ negotiatedSize msg)
  tcp : ∀ resp, respond request ip tld ttl .tcp = some resp → tc (flagsOf resp) = false

theorem transportsAgree_question (header : Header) (q : Question) (tail : List UInt8)
    (hqd : header.qdcount ≠ 0) (ip : Ipv4Addr) (tld : Str) (ttl : UInt32) :
    TransportsAgree (header.encode ++ (q.encode ++ tail)) ip tld ttl := by
  let opt := foundOpt header tail
  let whole := replyTo header q opt ip tld ttl false
  have htcp : respond (header.encode ++ (q.encode ++ tail)) ip tld ttl .tcp = some whole.encode :=
    respond_question header ip tld ttl .tcp q tail hqd
  have hudp : respond (header.encode ++ (q.encode ++ tail)) ip tld ttl .udp =
      some (replyTo header q opt ip tld ttl (isCut tld .udp q opt)).encode :=
    respond_question header ip tld ttl .udp q tail hqd
  have hverdict := replyTo_verdict header q opt ip tld ttl
  have hsame : respond (header.encode ++ (q.encode ++ tail)) ip tld ttl .udp =
      respond (header.encode ++ (q.encode ++ tail)) ip tld ttl .tcp ↔
        whole.encode.length ≤ negotiatedSize (Request.of header (q.encode ++ tail)) := by
    rw [hudp, htcp, negotiatedSize_question header q tail hqd, length_replyTo_false,
      ← isCut_udp_eq_false_iff]
    constructor
    · intro heq
      have hmessage := Message.encode_injective (Option.some.inj heq)
      rw [← (hverdict (isCut tld .udp q opt)).2.1, hmessage]
      exact (hverdict false).2.1
    · intro hfalse
      rw [hfalse]
  refine ⟨?_, ?_, ?_⟩
  · cases hcut : isCut tld .udp q opt with
    | false => exact Or.inl (by rw [hudp, htcp, hcut])
    | true =>
        rw [hcut, replyTo_true] at hudp
        refine Or.inr ⟨whole, htcp, hudp, ?_⟩
        rw [← replyTo_true]
        exact (hverdict true).2.1
  · rw [hsame]
    constructor
    · exact fun hfits => Or.inr ⟨_, whole.encode, rfl, htcp, Or.inr hfits⟩
    · rintro (hshort | ⟨⟨bytes, hge⟩, resp, hbytes, hresp, hcase⟩)
      · rw [List.length_append, Header.length_encode] at hshort
        omega
      obtain rfl : bytes = header.encode ++ (q.encode ++ tail) := hbytes
      rw [htcp] at hresp
      obtain rfl := Option.some.inj hresp
      refine hcase.resolve_left fun herror => ?_
      have hcode := (hverdict false).2.2
      rw [flagsOf_encode, hcode] at herror
      split_ifs at herror
      exact absurd herror (by decide)
  · intro resp hresp
    rw [htcp] at hresp
    rw [← Option.some.inj hresp, flagsOf_encode]
    exact (hverdict false).2.1

theorem respond_transportsAgree (request : List UInt8) (ip : Ipv4Addr) (tld : Str)
    (ttl : UInt32) : TransportsAgree request ip tld ttl := by
  by_cases hlen : 12 ≤ request.length
  swap
  · have hnone : ∀ transport, respond request ip tld ttl transport = none := fun transport =>
      (respond_eq_none_iff request ip tld ttl transport).mpr (Nat.lt_of_not_le hlen)
    refine ⟨Or.inl ?_, iff_of_true ?_ (Or.inl (Nat.lt_of_not_le hlen)), ?_⟩
    · rw [hnone, hnone]
    · rw [hnone, hnone]
    · intro resp hresp
      rw [hnone] at hresp
      cases hresp
  rcases Request.cases ⟨request, hlen⟩ with
    ⟨header, q, tail, hrequest, hqd⟩ | ⟨header, body, hrequest, hbad⟩
  · obtain rfl : request = header.encode ++ (q.encode ++ tail) := hrequest
    exact transportsAgree_question header q tail hqd ip tld ttl
  · obtain rfl : request = header.encode ++ body := hrequest
    have hrespond := fun transport => respond_malformed header body ip tld ttl transport hbad
    have hflags : flagsOf ((formErr header).encode.take 10) = (formErr header).flags :=
      flagsOf_take_encode _
    obtain ⟨-, -, -, htc, -, -, hcode⟩ :=
      flagWord_parts (opcode_lt header.flags) (by decide : rcodeFormErr.toNat < 16) false false
        (rd header.flags)
    refine ⟨Or.inl ?_, iff_of_true ?_ (Or.inr ?_), ?_⟩
    · rw [hrespond, hrespond]
    · rw [hrespond, hrespond]
    · refine ⟨⟨_, hlen⟩, _, rfl, hrespond .tcp, Or.inl ?_⟩
      rw [hflags]
      exact hcode
    · intro resp hresp
      rw [hrespond] at hresp
      rw [← Option.some.inj hresp, hflags]
      exact htc

end DigDns.Dns
