import DigDns.Dns.Client
import DigDns.Dns.Records
import DigDns.Support.Names

/-!
# A query of the probe and its answer

What `build_a_query` writes for a name of short labels is the query with that one
question, so the response is the one the policy gives, and the decoder reads its
answer back.
-/

namespace DigDns.Dns

open Rust Rfc1035

/-! ## Every message is a response the decoder reads -/

/-- A question with its name spelled out. -/
def askedOf (q : Question) : Asked := ⟨⟨q.qname, none⟩, q.qtype, q.qclass⟩

def responseOf (m : Message) : Response where
  id := m.id
  flags := m.flags
  nscount := count m.authority
  arcount := count m.additional
  questions := ⟨m.questions.val.map askedOf, by
    rw [List.length_map]
    exact m.questions.2⟩
  answers := m.answers
  rest := m.authority.val.flatMap Record.encode ++ m.additional.val.flatMap Record.encode

theorem encode_responseOf (m : Message) : (responseOf m).encode = m.encode := by
  have hquestions : (m.questions.val.map askedOf).flatMap Asked.encode =
      m.questions.val.flatMap Question.encode := by
    rw [List.flatMap_map]
    rfl
  have hheader : (responseOf m).header = m.header := by
    have hcount : count (responseOf m).questions = count m.questions := by
      rw [count, count, responseOf, List.length_map]
    rw [Response.header, hcount]
    rfl
  rw [Response.encode, hheader, Message.encode, ← hquestions]
  rfl

theorem parseFirstAIpv4_message (m : Message) :
    parseFirstAIpv4 m.encode = m.answers.val.findSome? address := by
  rw [← encode_responseOf, parseFirstAIpv4_encode]
  rfl

theorem address_aRecord (ip : Ipv4Addr) (ttl : UInt32) : address (aRecord ip ttl) = some ip := rfl

/-- Of a reply the decoder reads the address, unless it holds none. -/
theorem parseFirstAIpv4_replyTo (header : Header) (q : Question) (opt : Option UInt16)
    (ip : Ipv4Addr) (tld : Str) (ttl : UInt32) (cut : Bool) :
    parseFirstAIpv4 (replyTo header q opt ip tld ttl cut).encode =
      if isUnderTld q tld = true ∧ q.qtype = typeA ∧ cut = false then some ip else none := by
  rw [parseFirstAIpv4_message, replyTo]
  dsimp only
  split
  · rw [entry, List.findSome?_singleton, address_aRecord]
  · rfl

/-! ## The query -/

/-- A label that fits its length byte, without characters outside ASCII. -/
structure ShortLabel (l : Str) : Prop where
  pos : 1 ≤ l.length
  le : l.length ≤ 63
  ascii : ∀ c ∈ l, c.toNat < 128

theorem ShortLabel.length_utf8 {l : Str} (h : ShortLabel l) : (utf8 l).length = l.length :=
  byteLen_of_ascii h.ascii

def labelOf (l : Str) (h : ShortLabel l) : Label where
  bytes := utf8 l
  pos := h.length_utf8 ▸ h.pos
  lt := h.length_utf8 ▸ Nat.lt_succ_of_le h.le

theorem writeLabel_eq {l : Str} (h : ShortLabel l) : writeLabel l = (labelOf l h).encode := by
  have hle : (utf8 l).length ≤ 63 := h.length_utf8 ▸ h.le
  rw [writeLabel, byteLen, Nat.min_eq_left hle, List.take_length]
  rfl

/-- The question for the address of a name. -/
def questionFor (name : Str) (h : ∀ l ∈ name.splitOn '.', ShortLabel l) : Question :=
  ⟨(name.splitOn '.').pmap labelOf h, typeA, 1⟩

section Query

variable {name : Str} (h : ∀ l ∈ name.splitOn '.', ShortLabel l)

theorem flatMap_writeLabel :
    ((name.splitOn '.').filter (· ≠ [])).flatMap writeLabel =
      ((name.splitOn '.').pmap labelOf h).flatMap Label.encode := by
  have hfilter : (name.splitOn '.').filter (· ≠ []) = name.splitOn '.' := by
    rw [List.filter_eq_self]
    intro l hl
    have hpos := (h l hl).pos
    rw [decide_eq_true_iff]
    rintro rfl
    exact absurd hpos (by decide)
  rw [hfilter]
  generalize name.splitOn '.' = labels at h
  induction labels with
  | nil => rfl
  | cons l labels ih =>
      rw [List.flatMap_cons, List.pmap_cons, List.flatMap_cons, ih,
        writeLabel_eq (h l List.mem_cons_self)]

theorem buildAQuery_eq :
    buildAQuery name = queryHeader.encode ++ ((questionFor name h).encode ++ []) := by
  have hlabels := flatMap_writeLabel h
  rw [buildAQuery, hlabels, questionFor, Question.encode, encodeName]
  simp only [List.append_assoc, List.append_nil]
  rfl

/-- The last label of the question is the one of the name. -/
theorem isUnderTld_questionFor (tld : Str) :
    isUnderTld (questionFor name h) tld = true ↔
      ∃ l, (name.splitOn '.').getLast? = some l ∧ eqIgnoreAsciiCase l tld = true := by
  have hbytes : (questionFor name h).qname.map Label.bytes = (name.splitOn '.').map utf8 := by
    rw [questionFor, List.map_pmap]
    exact List.pmap_eq_map h
  have hlast : isUnderTld (questionFor name h) tld =
      ((questionFor name h).qname.map Label.bytes).getLast?.any
        fun bytes => bytesEqIgnoreAsciiCase bytes (utf8 tld) := by
    rw [isUnderTld, List.getLast?_map]
    cases (questionFor name h).qname.getLast? <;> rfl
  rw [hlast, hbytes, List.getLast?_map, Option.any_map, Option.any_eq_true]
  simp only [bytesEqIgnoreAsciiCase_utf8, eqIgnoreAsciiCase_iff]

theorem isCut_questionFor (hlen : (buildAQuery name).length ≤ 484) (tld : Str)
    (transport : Transport) : isCut tld transport (questionFor name h) none = false := by
  have hfull : fullLength (questionFor name h) none tld ≤ 512 := by
    have hquery := buildAQuery_eq h
    rw [hquery, List.length_append, Header.length_encode, List.append_nil] at hlen
    rw [fullLength]
    split <;> simp <;> omega
  have hnot : ¬ (transport = .udp ∧
      fullLength (questionFor name h) none tld > payloadSize none) :=
    fun hcut => absurd hcut.2 (Nat.not_lt_of_le hfull)
  rw [isCut, decide_eq_false hnot]

end Query

/-- The probe reads the address off the response exactly when the last label of the
name is the TLD up to ASCII case, and nothing otherwise. -/
theorem parseFirstAIpv4_respond (name tld : Str) (ip : Ipv4Addr) (ttl : UInt32)
    (transport : Transport) (h : ∀ l ∈ name.splitOn '.', ShortLabel l)
    (hlen : (buildAQuery name).length ≤ 484) :
    ∃ response, respond (buildAQuery name) ip tld ttl transport = some response ∧
      (parseFirstAIpv4 response = some ip ↔
        ∃ l, (name.splitOn '.').getLast? = some l ∧ eqIgnoreAsciiCase l tld = true) ∧
      (parseFirstAIpv4 response ≠ some ip → parseFirstAIpv4 response = none) := by
  have hrespond := respond_question queryHeader ip tld ttl transport (questionFor name h) []
    (by decide)
  rw [← buildAQuery_eq h, show foundOpt queryHeader [] = none from rfl,
    isCut_questionFor h hlen] at hrespond
  have hparse := parseFirstAIpv4_replyTo queryHeader (questionFor name h) none ip tld ttl false
  refine ⟨_, hrespond, ?_, ?_⟩
  · rw [hparse, ← isUnderTld_questionFor h]
    split
    · rename_i hunder
      exact iff_of_true rfl hunder.1
    · rename_i hunder
      exact iff_of_false (Option.some_ne_none ip).symm fun hu => hunder ⟨hu, rfl, rfl⟩
  · rw [hparse]
    split
    · exact fun hne => absurd rfl hne
    · exact fun _ => rfl

theorem parseFirstAIpv4_respond_dig :
    ∃ response, respond (buildAQuery "www.DIG".toList) ⟨127, 0, 0, 2⟩ "dig".toList 5 .udp =
        some response ∧
      (parseFirstAIpv4 response = some ⟨127, 0, 0, 2⟩ ↔
        ∃ l, ("www.DIG".toList.splitOn '.').getLast? = some l ∧
          eqIgnoreAsciiCase l "dig".toList = true) ∧
      (parseFirstAIpv4 response ≠ some ⟨127, 0, 0, 2⟩ → parseFirstAIpv4 response = none) := by
  have hlabels : ∀ l ∈ "www.DIG".toList.splitOn '.', ShortLabel l := by
    rw [show "www.DIG".toList.splitOn '.' = ["www".toList, "DIG".toList] by decide +kernel]
    intro l hl
    have hdecided : ∀ l ∈ ["www".toList, "DIG".toList],
        1 ≤ l.length ∧ l.length ≤ 63 ∧ ∀ c ∈ l, c.toNat < 128 := by decide
    obtain ⟨hpos, hle, hascii⟩ := hdecided l hl
    exact ⟨hpos, hle, hascii⟩
  exact parseFirstAIpv4_respond "www.DIG".toList "dig".toList ⟨127, 0, 0, 2⟩ 5 .udp hlabels
    (by decide +kernel)

end DigDns.Dns
