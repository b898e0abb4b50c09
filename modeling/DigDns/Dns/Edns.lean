import DigDns.Dns.Records

/-!
# Which queries get an `OPT` record back

`parse` looks for an `OPT` record right behind the question, and at `ARCOUNT`.
In a query with records in other sections, or with other records before it, that
is not where the additional section says it is.
-/

namespace DigDns.Dns

open Rust Rfc1035

/-- An `OPT` record as `parse_opt_udp_size` recognises it: at the root. -/
def IsRootOpt (r : Record) : Prop := r.owner = ⟨[], none⟩ ∧ r.rtype = typeOpt

instance : DecidablePred IsRootOpt := fun _ => inferInstanceAs (Decidable (_ ∧ _))

/-- The first record of a message is an `OPT` record at the root. -/
def LeadsWithOpt (m : Message) : Prop := ∃ r ∈ (records m).head?, IsRootOpt r

/-- The additional section of a message has an `OPT` record. -/
def HasOpt (m : Message) : Prop := ∃ r ∈ m.additional.val, r.rtype = typeOpt

/-- Only the root starts with a zero byte. -/
theorem eq_root_of_encode {owner : Owner} {rest tail : List UInt8}
    (h : owner.encode ++ rest = 0 :: tail) : owner = ⟨[], none⟩ := by
  rcases owner with ⟨labels, pointer⟩
  cases labels with
  | cons label labels =>
      rw [Owner.encode, List.flatMap_cons, List.append_assoc, List.append_assoc] at h
      exact absurd h (label.encode_append_ne (Or.inl rfl) _ _)
  | nil =>
      cases pointer with
      | none => rfl
      | some offset =>
          have hbyte := congrArg UInt8.toNat (List.cons.inj h).1
          have hlt := offset.isLt
          rw [UInt8.toNat_ofNat', Nat.mod_eq_of_lt (by omega)] at hbyte
          have hzero : (0 : UInt8).toNat = 0 := rfl
          omega

theorem foundOpt_root (header : Header) (rtype rclass : UInt16) (rest : List UInt8) :
    foundOpt header (0 :: (u16ToBe rtype ++ (u16ToBe rclass ++ rest))) =
      if header.arcount ≠ 0 ∧ rtype = typeOpt then some rclass else none := by
  change (if header.arcount ≠ 0 ∧ (0 : UInt8) = 0 ∧
    u16FromBe (UInt8.ofNat (rtype.toNat / 256)) (UInt8.ofNat rtype.toNat) = typeOpt then
      some (u16FromBe (UInt8.ofNat (rclass.toNat / 256)) (UInt8.ofNat rclass.toNat)) else none) = _
  simp only [u16FromBe_u16ToBe, true_and]

/-- What the responder finds behind the question. -/
theorem isSome_foundOpt_iff (header : Header) (rs : List Record) :
    (foundOpt header (rs.flatMap Record.encode)).isSome = true ↔
      header.arcount ≠ 0 ∧ ∃ r ∈ rs.head?, IsRootOpt r := by
  cases rs with
  | nil => exact iff_of_false Bool.false_ne_true fun h => by simpa using h.2
  | cons r rs =>
      have hhead : (∃ r' ∈ (r :: rs).head?, IsRootOpt r') ↔ IsRootOpt r := by simp
      rw [hhead, List.flatMap_cons, Record.encode]
      by_cases hroot : r.owner = ⟨[], none⟩
      · simp only [hroot, List.append_assoc]
        change (foundOpt header (0 :: _)).isSome = true ↔ _
        rw [List.append_eq, List.nil_append, foundOpt_root, IsRootOpt, hroot]
        split_ifs with hopt
        · exact iff_of_true rfl ⟨hopt.1, rfl, hopt.2⟩
        · exact iff_of_false Bool.false_ne_true fun h => hopt ⟨h.1, h.2.2⟩
      · have hnone : foundOpt header (r.owner.encode ++ (u16ToBe r.rtype ++ (u16ToBe r.rclass ++
            (u32ToBe r.ttl ++ (u16ToBe (UInt16.ofNat r.rdata.length) ++ r.rdata)))) ++
            rs.flatMap Record.encode) = none := by
          unfold foundOpt
          split
          · next root hi lo sizeHi sizeLo rest heq =>
              refine if_neg fun hfound => hroot ?_
              rw [hfound.2.1, List.append_assoc] at heq
              exact eq_root_of_encode heq
          · rfl
        rw [hnone]
        exact iff_of_false Bool.false_ne_true fun h => hroot h.2.1

theorem exists_opt_replyTo_iff {header : Header} {q : Question} {opt : Option UInt16}
    {ip : Ipv4Addr} {tld : Str} {ttl : UInt32} {cut : Bool} :
    (∃ r ∈ records (replyTo header q opt ip tld ttl cut), r.rtype = typeOpt) ↔
      opt.isSome = true := by
  constructor
  · rintro ⟨r, hr, htype⟩
    rcases mem_records_replyTo.mp hr with ⟨rfl, -⟩ | ⟨-, hopt⟩
    · cases htype
    · exact hopt
  · intro hopt
    exact ⟨optRecord, mem_records_replyTo.mpr (Or.inr ⟨rfl, hopt⟩), rfl⟩

/-- Over TCP a query gets an `OPT` record exactly when it has one. -/
def EchoesOpt (m : Message) (ip : Ipv4Addr) (tld : Str) (ttl : UInt32) : Prop :=
  ∃ reply : Message, respond m.encode ip tld ttl .tcp = some reply.encode ∧
    ((∃ r ∈ records reply, r.rtype = typeOpt) ↔ HasOpt m)

theorem echoesOpt_iff_leads {m : Message} {q : Question} (hq : m.questions.val = [q])
    (ip : Ipv4Addr) (tld : Str) (ttl : UInt32) :
    EchoesOpt m ip tld ttl ↔ ((m.additional.val ≠ [] ∧ LeadsWithOpt m) ↔ HasOpt m) := by
  obtain ⟨hbytes, hqd⟩ := encode_of_question hq
  have hreply := respond_question m.header ip tld ttl .tcp q ((records m).flatMap Record.encode) hqd
  rw [← hbytes] at hreply
  have hfound : (foundOpt m.header ((records m).flatMap Record.encode)).isSome = true ↔
      m.additional.val ≠ [] ∧ LeadsWithOpt m := by
    rw [isSome_foundOpt_iff]
    exact and_congr_left' (count_ne_zero_iff m.additional)
  rw [← hfound]
  constructor
  · rintro ⟨reply, hrespond, hiff⟩
    rw [hreply] at hrespond
    obtain rfl := Message.encode_injective (Option.some.inj hrespond)
    exact exists_opt_replyTo_iff.symm.trans hiff
  · exact fun hiff => ⟨_, hreply, exists_opt_replyTo_iff.trans hiff⟩

/-- It does when an `OPT` record leads all records of the query, and when the query has
none and nothing that looks like one in that place. -/
theorem echoesOpt_iff {m : Message} {q : Question} (hq : m.questions.val = [q]) (ip : Ipv4Addr)
    (tld : Str) (ttl : UInt32) :
    EchoesOpt m ip tld ttl ↔
      (HasOpt m ∧ LeadsWithOpt m) ∨ (¬ HasOpt m ∧ (m.additional.val = [] ∨ ¬ LeadsWithOpt m)) := by
  have hnonempty : HasOpt m → m.additional.val ≠ [] := by
    rintro ⟨r, hr, -⟩
    exact List.ne_nil_of_mem hr
  rw [echoesOpt_iff_leads hq]
  by_cases hhas : HasOpt m
  · simp [hhas, hnonempty hhas]
  · simp only [hhas, iff_false, false_and, not_false_iff, true_and, false_or, not_and_or, not_not]

/-- A query for the address of `x.dig` with these additional records. -/
def queryWith (additional : Section Record) : Message where
  id := 0x1234
  flags := 0x0100
  questions := entry xDig
  answers := noEntries
  authority := noEntries
  additional := additional

/-- With the `OPT` record alone it is one of those. -/
theorem echoesOpt_alone :
    EchoesOpt (queryWith (entry optRecord)) ⟨127, 0, 0, 5⟩ "dig".toList 2 ↔
      (HasOpt (queryWith (entry optRecord)) ∧ LeadsWithOpt (queryWith (entry optRecord))) ∨
        (¬ HasOpt (queryWith (entry optRecord)) ∧
          ((queryWith (entry optRecord)).additional.val = [] ∨
            ¬ LeadsWithOpt (queryWith (entry optRecord)))) :=
  echoesOpt_iff rfl ⟨127, 0, 0, 5⟩ "dig".toList 2

/-- With another record before the `OPT` record it gets none back. -/
theorem echoesOpt_second :
    ¬ EchoesOpt (queryWith ⟨[aRecord ⟨127, 0, 0, 1⟩ 0, optRecord], by decide⟩)
      ⟨127, 0, 0, 5⟩ "dig".toList 2 := by
  rw [echoesOpt_iff_leads rfl]
  intro hiff
  obtain ⟨-, r, hr, hroot⟩ := hiff.mpr ⟨optRecord, by decide, rfl⟩
  obtain rfl := Option.some.inj hr
  exact absurd hroot.2 (by decide)

end DigDns.Dns
