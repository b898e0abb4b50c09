import DigDns.Dns

/-!
# What `parse` accepts

The name loop reads back exactly the encoded names, so `parse` succeeds
exactly on a header with a question count that is not zero, followed by one
encoded question.  Everything in the resulting `Query` is read off these two.
-/

namespace DigDns.Dns

open Rust Rfc1035

/-! ## Bits -/

/-- The two top bits of a length byte are clear exactly below 64. -/
theorem and_c0_eq_zero_iff (b : UInt8) : b &&& 0xC0 = 0 ↔ b.toNat < 64 := by
  have hall : ∀ n : Fin 256, UInt8.ofNat n.val &&& 0xC0 = 0 ↔ n.val < 64 := by
    decide +kernel
  have := hall ⟨b.toNat, b.toNat_lt⟩
  rwa [UInt8.ofNat_toNat] at this

theorem toNat_opcode (flags : UInt16) :
    ((flags >>> 11) &&& 0xF).toNat = opcode flags := by
  rw [UInt16.toNat_and, UInt16.toNat_shiftRight]
  change (flags.toNat >>> 11) &&& (2 ^ 4 - 1) = _
  rw [Nat.and_two_pow_sub_one_eq_mod, Nat.shiftRight_eq_div_pow, opcode]

theorem rd_eq (flags : UInt16) :
    ((flags &&& 0x0100) != 0) = rd flags := by
  have hbit : ∀ i, (flags &&& 0x0100).toNat.testBit i =
      (flags.toNat.testBit i && decide (8 = i)) := by
    intro i
    rw [UInt16.toNat_and, Nat.testBit_and]
    change (flags.toNat.testBit i && (2 ^ 8).testBit i) = _
    rw [Nat.testBit_two_pow]
  rw [rd, Bool.eq_iff_iff, bne_iff_ne]
  constructor
  · intro hne
    by_contra hclear
    apply hne
    apply UInt16.toNat_inj.mp
    apply Nat.eq_of_testBit_eq
    intro i
    rw [hbit]
    by_cases hi : 8 = i
    · subst hi
      simpa using hclear
    · simp [hi]
  · intro hset hzero
    have := hbit 8
    rw [hzero, hset] at this
    exact absurd this (by decide)

/-! ## The name loop -/

section Loop

variable {msg : List UInt8} {pos : Nat} {labels : List (List UInt8)}

theorem readLabels_root (hget : msg[pos]? = some 0) :
    readLabels msg pos labels = some (pos + 1, labels) := by
  rw [readLabels, hget]
  rfl

/-- A length byte below 64 with that many bytes behind it is one more label. -/
theorem readLabels_label {len : UInt8} {label : List UInt8} (hget : msg[pos]? = some len)
    (hzero : len ≠ 0) (hlt : len.toNat < 64)
    (hrange : getRange msg (pos + 1) (pos + 1 + len.toNat) = some label) :
    readLabels msg pos labels =
      readLabels msg (pos + 1 + len.toNat) (labels ++ [label]) := by
  rw [readLabels, hget]
  simp only [hzero, if_false, (and_c0_eq_zero_iff len).mpr hlt, ne_eq, not_true_eq_false]
  split
  · rename_i h
    rw [hrange] at h
    cases h
  · rename_i label' h
    rw [hrange] at h
    cases h
    rfl

/-- One round of a loop that comes to an end. -/
theorem readLabels_cases {out : Nat × List (List UInt8)}
    (h : readLabels msg pos labels = some out) :
    (msg[pos]? = some 0 ∧ out = (pos + 1, labels)) ∨
    ∃ len label, msg[pos]? = some len ∧ len ≠ 0 ∧ len.toNat < 64 ∧
      getRange msg (pos + 1) (pos + 1 + len.toNat) = some label ∧
      readLabels msg (pos + 1 + len.toNat) (labels ++ [label]) = some out := by
  rw [readLabels] at h
  cases hget : msg[pos]? with
  | none =>
      rw [hget] at h
      cases h
  | some len =>
      rw [hget] at h
      by_cases hzero : len = 0
      · subst hzero
        exact Or.inl ⟨rfl, (Option.some.inj h).symm⟩
      · by_cases hlt : len.toNat < 64
        · simp only [hzero, if_false, (and_c0_eq_zero_iff len).mpr hlt, ne_eq,
            not_true_eq_false] at h
          split at h
          · cases h
          · rename_i label hrange
            exact Or.inr ⟨len, label, rfl, hzero, hlt, hrange, h⟩
        · have hptr : len &&& 0xC0 ≠ 0 := fun h => hlt ((and_c0_eq_zero_iff len).mp h)
          simp only [hzero, if_false, hptr, ne_eq, not_false_eq_true, if_true] at h
          cases h

end Loop

/-- The loop reads every encoded name to its end. -/
theorem readLabels_encodeName (name : List Label) (front tail : List UInt8)
    (labels : List (List UInt8)) :
    readLabels (front ++ (encodeName name ++ tail)) front.length labels =
      some (front.length + (encodeName name).length, labels ++ name.map Label.bytes) := by
  induction name generalizing front labels with
  | nil =>
      rw [readLabels_root (by simp [encodeName])]
      simp [encodeName]
  | cons label name ih =>
      have hlt := label.lt
      have hpos := label.pos
      have hlen := label.toNat_length
      have hmsg : front ++ (encodeName (label :: name) ++ tail) =
          (front ++ label.encode) ++ (encodeName name ++ tail) := by
        simp [encodeName]
      have hstop : front.length + 1 + (UInt8.ofNat label.bytes.length).toNat =
          (front ++ label.encode).length := by
        rw [hlen, List.length_append, Label.encode, List.length_cons]
        omega
      have hrange : getRange ((front ++ label.encode) ++ (encodeName name ++ tail))
          (front.length + 1) (front.length + 1 + (UInt8.ofNat label.bytes.length).toNat) =
            some label.bytes := by
        rw [getRange_eq_some_iff, hstop]
        refine ⟨?_, ?_, ?_⟩
        · simp [Label.encode]
        · simp
        · rw [List.take_left, List.drop_append]
          simp [Label.encode]
      have hget : ((front ++ label.encode) ++ (encodeName name ++ tail))[front.length]? =
          some (UInt8.ofNat label.bytes.length) := by
        simp [Label.encode]
      rw [hmsg, readLabels_label hget ?_ (by omega) hrange, hstop, ih]
      · simp only [encodeName, List.flatMap_cons, List.map_cons, List.length_append,
          List.append_assoc, List.singleton_append, Option.some.injEq, Prod.mk.injEq, and_true]
        omega
      · intro hzero
        rw [hzero] at hlen
        exact absurd hlen (Nat.ne_of_lt hpos)

/-- What the loop accepts is an encoded name. -/
theorem exists_name_of_readLabels {msg : List UInt8} {pos : Nat} {labels : List (List UInt8)}
    {out : Nat × List (List UInt8)} (h : readLabels msg pos labels = some out) :
    ∃ (name : List Label) (tail : List UInt8), msg.drop pos = encodeName name ++ tail := by
  -- Every further round starts closer to the end of the message.
  induction hm : msg.length - pos using Nat.strongRecOn generalizing pos labels with
  | ind m ih =>
      rcases readLabels_cases h with ⟨hget, -⟩ | ⟨len, label, hget, hzero, hlt, hrange, hrest⟩
      · obtain ⟨hpos, hbyte⟩ := List.getElem?_eq_some_iff.mp hget
        refine ⟨[], msg.drop (pos + 1), ?_⟩
        rw [List.drop_eq_getElem_cons hpos, hbyte]
        rfl
      · obtain ⟨hpos, hbyte⟩ := List.getElem?_eq_some_iff.mp hget
        obtain ⟨-, hstop, hlabel⟩ := getRange_eq_some_iff.mp hrange
        have hlen : label.length = len.toNat := by
          rw [← hlabel, List.length_drop, List.length_take]
          omega
        have hne : len.toNat ≠ 0 := fun h => hzero (UInt8.toNat_inj.mp h)
        obtain ⟨name, tail, htail⟩ := ih (msg.length - (pos + 1 + len.toNat)) (by omega) hrest rfl
        refine ⟨⟨label, by omega, by omega⟩ :: name, tail, ?_⟩
        have hsplit : msg.drop (pos + 1) = label ++ msg.drop (pos + 1 + len.toNat) := by
          have hcut := List.take_append_drop len.toNat (msg.drop (pos + 1))
          rw [List.drop_drop] at hcut
          rw [← hlabel, List.drop_take, Nat.add_sub_cancel_left, hcut]
        rw [List.drop_eq_getElem_cons hpos, hbyte, hsplit, htail]
        simp [encodeName, Label.encode, hlen]

/-! ## The record behind the question -/

/-- The payload size that a header and the bytes behind the question advertise:
a root-named `OPT` record has to come first. -/
def foundOpt (header : Header) (tail : List UInt8) : Option UInt16 :=
  match tail with
  | root :: hi :: lo :: sizeHi :: sizeLo :: _ =>
      if header.arcount ≠ 0 ∧ root = 0 ∧ u16FromBe hi lo = typeOpt then
        some (u16FromBe sizeHi sizeLo)
      else none
  | _ => none

theorem parseOptUdpSize_append (front tail : List UInt8) :
    parseOptUdpSize (front ++ tail) front.length = parseOptUdpSize tail 0 := by
  have hget : ∀ i, (front ++ tail)[front.length + i]? = tail[i]? := by
    intro i
    rw [List.getElem?_append_right (by omega), Nat.add_sub_cancel_left]
  have hget₀ : (front ++ tail)[front.length]? = tail[0]? := hget 0
  simp only [parseOptUdpSize, hget, hget₀, Nat.zero_add]

theorem foundOpt_eq (header : Header) (tail : List UInt8) :
    (if header.arcount ≥ 1 then parseOptUdpSize tail 0 else none) = foundOpt header tail := by
  have hcount : header.arcount ≥ 1 ↔ header.arcount ≠ 0 := by
    rw [ge_iff_le, UInt16.le_iff_toNat_le, ne_eq, ← UInt16.toNat_inj]
    exact Nat.one_le_iff_ne_zero
  match tail with
  | root :: hi :: lo :: sizeHi :: sizeLo :: rest =>
      have hread : parseOptUdpSize (root :: hi :: lo :: sizeHi :: sizeLo :: rest) 0 =
          if root ≠ 0 then none
          else if u16FromBe hi lo ≠ typeOpt then none
          else some (u16FromBe sizeHi sizeLo) := rfl
      simp only [hread, hcount, foundOpt]
      split_ifs <;> simp_all
  | [] | [_] | [_, _] | [_, _, _] | [_, _, _, _] =>
      simp only [parseOptUdpSize, foundOpt]
      simp

/-! ## The whole parser -/

/-- A request with its header read. -/
def Request.of (header : Header) (body : List UInt8) : Request :=
  ⟨header.encode ++ body, by simp [headerLen, Header.length_encode]⟩

/-- What `parse` reads off a header, a question and the bytes behind it. -/
def queryOf (header : Header) (q : Question) (tail : List UInt8) : Query where
  id := (UInt8.ofNat (header.id.toNat / 256), UInt8.ofNat header.id.toNat)
  opcode := (header.flags >>> 11) &&& 0xF
  rd := (header.flags &&& 0x0100) != 0
  labels := q.qname.map Label.bytes
  qtype := q.qtype
  rawQuestion := q.encode
  ednsUdpSize := foundOpt header tail

section Words

variable (header : Header) (body : List UInt8)

theorem flags_of :
    u16FromBe ((Request.of header body).byte 2) ((Request.of header body).byte 3) =
      header.flags :=
  u16FromBe_u16ToBe header.flags

theorem qdcount_of :
    u16FromBe ((Request.of header body).byte 4) ((Request.of header body).byte 5) =
      header.qdcount :=
  u16FromBe_u16ToBe header.qdcount

theorem arcount_of :
    u16FromBe ((Request.of header body).byte 10) ((Request.of header body).byte 11) =
      header.arcount :=
  u16FromBe_u16ToBe header.arcount

end Words

theorem parse_question (header : Header) (q : Question) (tail : List UInt8)
    (hqd : header.qdcount ≠ 0) :
    parse (Request.of header (q.encode ++ tail)) = some (queryOf header q tail) := by
  have hbytes : (Request.of header (q.encode ++ tail)).bytes =
      header.encode ++ (encodeName q.qname ++ (u16ToBe q.qtype ++ u16ToBe q.qclass ++ tail)) := by
    simp [Request.of, Question.encode]
  have hname : readLabels (Request.of header (q.encode ++ tail)).bytes headerLen [] =
      some (headerLen + (encodeName q.qname).length, q.qname.map Label.bytes) := by
    rw [hbytes]
    exact readLabels_encodeName q.qname header.encode _ []
  have hget : ∀ i, (Request.of header (q.encode ++ tail)).bytes[
      headerLen + (encodeName q.qname).length + i]? =
        (u16ToBe q.qtype ++ u16ToBe q.qclass ++ tail)[i]? := by
    intro i
    rw [hbytes, Nat.add_assoc, show headerLen = header.encode.length from rfl,
      List.getElem?_append_right (by omega), Nat.add_sub_cancel_left,
      List.getElem?_append_right (by omega), Nat.add_sub_cancel_left]
  have hqEnd : headerLen + (encodeName q.qname).length + 4 = (header.encode ++ q.encode).length := by
    rw [List.length_append, q.length_encode]
    rfl
  have hsplit : (Request.of header (q.encode ++ tail)).bytes =
      (header.encode ++ q.encode) ++ tail := by
    simp [Request.of]
  have hopt : (if header.arcount ≥ 1 then
      parseOptUdpSize (Request.of header (q.encode ++ tail)).bytes
        (headerLen + (encodeName q.qname).length + 4) else none) = foundOpt header tail := by
    rw [hqEnd, hsplit, parseOptUdpSize_append, foundOpt_eq]
  have htype₀ : (Request.of header (q.encode ++ tail)).bytes[
      headerLen + (encodeName q.qname).length]? = some (UInt8.ofNat (q.qtype.toNat / 256)) :=
    hget 0
  have htype₁ : (Request.of header (q.encode ++ tail)).bytes[
      headerLen + (encodeName q.qname).length + 1]? = some (UInt8.ofNat q.qtype.toNat) :=
    hget 1
  have hraw : ((Request.of header (q.encode ++ tail)).bytes.take
      (headerLen + (encodeName q.qname).length + 4)).drop headerLen = q.encode := by
    rw [hqEnd, hsplit, List.take_left, show headerLen = header.encode.length from rfl,
      List.drop_left]
  have hfits : ¬ headerLen + (encodeName q.qname).length + 4 >
      (Request.of header (q.encode ++ tail)).bytes.length := by
    rw [hqEnd, hsplit]
    simp
  simp only [parse, qdcount_of, hqd, if_false, hname, flags_of, arcount_of, Option.bind_eq_bind,
    Option.bind_some, htype₀, htype₁, hraw, hfits, hopt, u16FromBe_u16ToBe]
  rfl

/-- An accepted request has a question behind its header. -/
theorem exists_question_of_parse {header : Header} {body : List UInt8} {query : Query}
    (h : parse (Request.of header body) = some query) :
    header.qdcount ≠ 0 ∧ ∃ (q : Question) (tail : List UInt8), body = q.encode ++ tail := by
  have hqd : header.qdcount ≠ 0 := by
    intro hzero
    simp only [parse, qdcount_of, hzero, if_true] at h
    cases h
  simp only [parse, qdcount_of, hqd, if_false, Option.bind_eq_bind,
    Option.bind_eq_some_iff] at h
  obtain ⟨⟨pos, labels⟩, hname, _, _, _, _, hfits⟩ := h
  have hlen : ¬ pos + 4 > (Request.of header body).bytes.length := by
    intro hlen
    rw [if_pos hlen] at hfits
    cases hfits
  obtain ⟨name, rest, hbody⟩ := exists_name_of_readLabels hname
  have hbody : body = encodeName name ++ rest := by
    rw [← hbody, Request.of, show headerLen = header.encode.length from rfl, List.drop_left]
  subst hbody
  have hpos : pos = headerLen + (encodeName name).length := by
    have hread := readLabels_encodeName name header.encode rest []
    have hname : readLabels (header.encode ++ (encodeName name ++ rest)) header.encode.length [] =
        some (pos, labels) := hname
    rw [hread] at hname
    exact (Prod.mk.inj (Option.some.inj hname)).1.symm
  have hrest : 4 ≤ rest.length := by
    simp only [Request.of, List.length_append, Header.length_encode] at hlen
    rw [hpos, headerLen] at hlen
    omega
  match rest, hrest with
  | t₁ :: t₀ :: c₁ :: c₀ :: tail, _ =>
      refine ⟨hqd, ⟨name, u16FromBe t₁ t₀, u16FromBe c₁ c₀⟩, tail, ?_⟩
      simp [Question.encode, u16ToBe_u16FromBe]

theorem parse_eq_none_iff (header : Header) (body : List UInt8) :
    parse (Request.of header body) = none ↔
      header.qdcount = 0 ∨ ¬ ∃ (q : Question) (tail : List UInt8), body = q.encode ++ tail := by
  constructor
  · intro hnone
    by_contra hcon
    push Not at hcon
    obtain ⟨hqd, q, tail, rfl⟩ := hcon
    rw [parse_question header q tail hqd] at hnone
    cases hnone
  · intro hbad
    cases hparse : parse (Request.of header body) with
    | none => rfl
    | some query =>
        obtain ⟨hqd, hquestion⟩ := exists_question_of_parse hparse
        rcases hbad with hzero | hno
        · exact absurd hzero hqd
        · exact absurd hquestion hno

end DigDns.Dns
