import DigDns.Config
import DigDns.Dns.Size

/-!
# The records of a response

Every record that the responder sends is the `A` record for its address or the
`OPT` record, and the first only for a name under the TLD.  The address is the
loopback address of a validated configuration.  Nothing checks the TTL:
`from_env` takes any number that fits in 32 bits.
-/

namespace DigDns.Dns

open Rust Rfc1035

/-- The records of a message. -/
def records (m : Message) : List Record :=
  m.answers.val ++ (m.authority.val ++ m.additional.val)

theorem count_ne_zero_iff {α : Type} (entries : Section α) :
    count entries ≠ 0 ↔ entries.val ≠ [] := by
  rw [ne_eq, ← UInt16.toNat_inj, toNat_count, ne_eq, ← List.length_eq_zero_iff]
  rfl

/-- The bytes of a message with one question. -/
theorem encode_of_question {m : Message} {q : Question} (hq : m.questions.val = [q]) :
    m.encode = m.header.encode ++ (q.encode ++ (records m).flatMap Record.encode) ∧
      m.header.qdcount ≠ 0 := by
  constructor
  · simp only [Message.encode, hq, records, List.flatMap_append, List.flatMap_singleton]
  · exact (count_ne_zero_iff m.questions).mpr (hq ▸ List.cons_ne_nil q [])

theorem mem_records_replyTo {header : Header} {q : Question} {opt : Option UInt16}
    {ip : Ipv4Addr} {tld : Str} {ttl : UInt32} {cut : Bool} {r : Record} :
    r ∈ records (replyTo header q opt ip tld ttl cut) ↔
      (r = aRecord ip ttl ∧ isUnderTld q tld = true ∧ q.qtype = typeA ∧ cut = false) ∨
        (r = optRecord ∧ opt.isSome = true) := by
  have hanswers : r ∈ (replyTo header q opt ip tld ttl cut).answers.val ↔
      r = aRecord ip ttl ∧ isUnderTld q tld = true ∧ q.qtype = typeA ∧ cut = false := by
    change r ∈ Subtype.val (if _ then _ else _) ↔ _
    split_ifs with h
    · exact List.mem_singleton.trans (and_iff_left h).symm
    · exact iff_of_false List.not_mem_nil fun hr => h hr.2
  have hadditional : r ∈ (replyTo header q opt ip tld ttl cut).additional.val ↔
      r = optRecord ∧ opt.isSome = true := by
    change r ∈ Subtype.val (if _ then _ else _) ↔ _
    split_ifs with h
    · exact List.mem_singleton.trans (and_iff_left h).symm
    · exact iff_of_false List.not_mem_nil fun hr => h hr.2
  rw [records, List.mem_append, List.mem_append, hanswers, hadditional]
  exact or_congr_right (or_iff_right List.not_mem_nil)

section Responses

variable {request : List UInt8} {ip : Ipv4Addr} {tld : Str} {ttl : UInt32} {transport : Transport}

/-- The responder sends nothing but these. -/
theorem respond_cases {resp : List UInt8}
    (h : respond request ip tld ttl transport = some resp) :
    (∃ header : Header, resp = (formErr header).encode.take 10) ∨
      ∃ (header : Header) (q : Question) (opt : Option UInt16) (cut : Bool),
        resp = (replyTo header q opt ip tld ttl cut).encode := by
  have hlen : 12 ≤ request.length := by
    by_contra hlt
    rw [(respond_eq_none_iff request ip tld ttl transport).mpr (Nat.lt_of_not_le hlt)] at h
    cases h
  rcases Request.cases ⟨request, hlen⟩ with
    ⟨header, q, tail, hrequest, hqd⟩ | ⟨header, body, hrequest, hbad⟩
  · obtain rfl : request = header.encode ++ (q.encode ++ tail) := hrequest
    rw [respond_question header ip tld ttl transport q tail hqd] at h
    exact Or.inr ⟨header, q, _, _, (Option.some.inj h).symm⟩
  · obtain rfl : request = header.encode ++ body := hrequest
    rw [respond_malformed header body ip tld ttl transport hbad] at h
    exact Or.inl ⟨header, (Option.some.inj h).symm⟩

/-- A response that is a whole message is one to a question. -/
theorem exists_replyTo_of_respond {m : Message}
    (h : respond request ip tld ttl transport = some m.encode) :
    ∃ (header : Header) (q : Question) (opt : Option UInt16) (cut : Bool),
      m = replyTo header q opt ip tld ttl cut := by
  rcases respond_cases h with ⟨header, hm⟩ | ⟨header, q, opt, cut, hm⟩
  · have hshort := congrArg List.length hm
    have hlong := length_encode_ge m
    rw [List.length_take] at hshort
    omega
  · exact ⟨header, q, opt, cut, Message.encode_injective hm⟩

/-- An `A` record of a response is the one for the address, under the TLD. -/
theorem eq_aRecord_of_respond {m : Message} {r : Record}
    (h : respond request ip tld ttl transport = some m.encode) (hr : r ∈ records m)
    (htype : r.rtype = typeA) : r = aRecord ip ttl ∧ ∃ q : Question, isUnderTld q tld = true := by
  obtain ⟨header, q, opt, cut, rfl⟩ := exists_replyTo_of_respond h
  rcases mem_records_replyTo.mp hr with ⟨rfl, hunder, -⟩ | ⟨rfl, -⟩
  · exact ⟨rfl, q, hunder⟩
  · cases htype

end Responses

/-! ## A query that gets an answer -/

/-- The question for the address of the TLD itself. -/
def apexQuestion (tld : Str) (hpos : 0 < (utf8 tld).length) (hlt : (utf8 tld).length < 64) :
    Question :=
  ⟨[⟨utf8 tld, hpos, hlt⟩], typeA, 1⟩

/-- The header of a query with one question. -/
def queryHeader : Header := ⟨0, 0x0100, 1, 0, 0, 0⟩

theorem bytesEqIgnoreAsciiCase_self (bytes : List UInt8) :
    bytesEqIgnoreAsciiCase bytes bytes = true := by
  simp [bytesEqIgnoreAsciiCase]

/-- Over TCP the query gets the `A` record. -/
theorem exists_aRecord_of_apex {tld : Str} (hpos : 0 < (utf8 tld).length)
    (hlt : (utf8 tld).length < 64) (ip : Ipv4Addr) (ttl : UInt32) :
    ∃ m : Message,
      respond (queryHeader.encode ++ ((apexQuestion tld hpos hlt).encode ++ [])) ip tld ttl .tcp =
        some m.encode ∧ aRecord ip ttl ∈ records m := by
  refine ⟨_, respond_question queryHeader ip tld ttl .tcp _ [] (by decide), ?_⟩
  have hunder : isUnderTld (apexQuestion tld hpos hlt) tld = true :=
    bytesEqIgnoreAsciiCase_self (utf8 tld)
  exact mem_records_replyTo.mpr (Or.inl ⟨rfl, hunder, rfl, rfl⟩)

/-! ## The TTL -/

/-- Every `A` record sent under a configuration lives for one to five seconds. -/
def ShortLived (cfg : Config) : Prop :=
  ∀ (request : List UInt8) (transport : Transport) (m : Message) (r : Record),
    respond request cfg.loopbackIp cfg.tld cfg.dnsTtlSecs transport = some m.encode →
      r ∈ records m → r.rtype = typeA → 1 ≤ r.ttl.toNat ∧ r.ttl.toNat ≤ 5

/-- The last label has the length of the TLD, and labels are short. -/
theorem length_tld_of_isUnderTld {q : Question} {tld : Str} (h : isUnderTld q tld = true) :
    (utf8 tld).length < 64 := by
  obtain ⟨label, -, hlabel⟩ := (Option.any_eq_true _ _).mp h
  have hlength := congrArg List.length (eq_of_beq hlabel)
  rw [List.length_map, List.length_map] at hlength
  rw [← hlength]
  exact label.lt

/-- They do exactly when the configured TTL does, or when no name can lie under the
TLD. -/
theorem shortLived_iff_config {cfg : Config} (htld : isSafeTld cfg.tld = true) :
    ShortLived cfg ↔
      (1 ≤ cfg.dnsTtlSecs.toNat ∧ cfg.dnsTtlSecs.toNat ≤ 5) ∨ 63 < cfg.tld.length := by
  have hlength : (utf8 cfg.tld).length = cfg.tld.length :=
    byteLen_of_ascii (forall_mem_of_isSafeTld htld (by decide))
  constructor
  · intro hshort
    by_cases hlong : 63 < cfg.tld.length
    · exact Or.inr hlong
    have hpos : 0 < (utf8 cfg.tld).length :=
      hlength ▸ List.length_pos_of_ne_nil (ne_nil_of_isSafeTld htld)
    obtain ⟨m, hrespond, hr⟩ :=
      exists_aRecord_of_apex hpos (by omega) cfg.loopbackIp cfg.dnsTtlSecs
    exact Or.inl (hshort _ _ m _ hrespond hr rfl)
  · intro hok request transport m r hrespond hr htype
    obtain ⟨rfl, q, hunder⟩ := eq_aRecord_of_respond hrespond hr htype
    rcases hok with httl | hlong
    · exact httl
    -- The last label has the length of the TLD, and a label is shorter than that.
    exfalso
    have hlabel := length_tld_of_isUnderTld hunder
    omega

/-- They do exactly when the variable for the TTL is not set or names one to five
seconds, or when the TLD is too long for a label. -/
theorem shortLived_iff {get : Str → Option Str} {cfg : Config} (h : fromEnv get = .ok cfg) :
    ShortLived cfg ↔
      (∀ v, get envDnsTtl = some v → ∃ n, parseU32 (trim v) = some n ∧ 1 ≤ n.toNat ∧ n.toNat ≤ 5) ∨
        ∃ v, get envTld = some v ∧ 63 < (normalizeTld v).length := by
  obtain ⟨hresolves, hvalid⟩ := (fromEnv_eq_ok_iff get cfg).mp h
  have httl : (1 ≤ cfg.dnsTtlSecs.toNat ∧ cfg.dnsTtlSecs.toNat ≤ 5) ↔
      ∀ v, get envDnsTtl = some v →
        ∃ n, parseU32 (trim v) = some n ∧ 1 ≤ n.toNat ∧ n.toNat ≤ 5 := by
    have hoverlay := hresolves.dnsTtlSecs
    rw [overlay] at hoverlay
    cases hget : get envDnsTtl with
    | none =>
        rw [hget] at hoverlay
        have hdefault : defaultDnsTtlSecs = cfg.dnsTtlSecs := Except.ok.inj hoverlay
        exact iff_of_true (hdefault ▸ by decide) nofun
    | some v =>
        rw [hget] at hoverlay
        have hparse : parseU32 (trim v) = some cfg.dnsTtlSecs := by
          change parseTtl envDnsTtl v = _ at hoverlay
          rw [parseTtl] at hoverlay
          cases hnum : parseU32 (trim v) with
          | none =>
              rw [hnum] at hoverlay
              cases hoverlay
          | some n =>
              rw [hnum] at hoverlay
              exact congrArg some (Except.ok.inj hoverlay)
        constructor
        · rintro hrange _ ⟨⟩
          exact ⟨cfg.dnsTtlSecs, hparse, hrange⟩
        · intro hall
          obtain ⟨n, hn, hrange⟩ := hall v rfl
          rw [hparse] at hn
          rwa [Option.some.inj hn]
  have htld : 63 < cfg.tld.length ↔ ∃ v, get envTld = some v ∧ 63 < (normalizeTld v).length := by
    rw [← hresolves.tld]
    cases get envTld with
    | none => exact iff_of_false (by decide) nofun
    | some v =>
        constructor
        · exact fun hlong => ⟨v, rfl, hlong⟩
        · rintro ⟨_, ⟨⟩, hlong⟩
          exact hlong
  rw [shortLived_iff_config hvalid.tld, httl, htld]

/-- With `DIG_DNS_TTL=5` all records live for five seconds. -/
theorem shortLived_five : ShortLived { Config.default with dnsTtlSecs := 5 } := by
  have hload : fromEnv (fun key => if key = envDnsTtl then some " 5".toList else none) =
      .ok { Config.default with dnsTtlSecs := 5 } := by rfl
  refine (shortLived_iff hload).mpr (Or.inl ?_)
  rintro v ⟨⟩
  exact ⟨5, by decide, by decide, by decide⟩

/-- With `DIG_DNS_TTL=0`, `from_env` succeeds and the query for `dig` gets a record that
lives for no second. -/
theorem shortLived_zero :
    ∃ cfg, fromEnv (fun key => if key = envDnsTtl then some "0".toList else none) = .ok cfg ∧
      ¬ ShortLived cfg := by
  refine ⟨{ Config.default with dnsTtlSecs := 0 }, by rfl, fun hshort => ?_⟩
  have hpos : 0 < (utf8 defaultTld).length := by decide
  have hlt : (utf8 defaultTld).length < 64 := by decide
  obtain ⟨m, hrespond, hr⟩ := exists_aRecord_of_apex hpos hlt defaultLoopbackIp 0
  exact absurd (hshort _ .tcp m _ hrespond hr rfl).1 (by decide)

end DigDns.Dns
