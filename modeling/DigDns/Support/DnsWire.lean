import DigDns.Support.BigEndian
import DigDns.Support.SelfDelimiting

/-!
# DNS messages

The wire format of RFC 1035, section 4.1: a header with four counts, then the
questions and three sections of resource records, with nothing between them.
A question spells out its name; the owner of a record may end in a pointer
into the message.  A `Message` cannot be built with more entries in a section
than its count can say, and its encoding determines it.
-/

namespace Rfc1035

open Rust

/-! ## Names and questions -/

/-- A label: one to 63 bytes. -/
structure Label where
  bytes : List UInt8
  pos : 0 < bytes.length
  lt : bytes.length < 64
deriving DecidableEq

def Label.encode (label : Label) : List UInt8 :=
  UInt8.ofNat label.bytes.length :: label.bytes

/-- An uncompressed name: its labels, closed by the root. -/
def encodeName (name : List Label) : List UInt8 :=
  name.flatMap Label.encode ++ [0]

structure Question where
  qname : List Label
  qtype : UInt16
  qclass : UInt16
deriving DecidableEq

def Question.encode (q : Question) : List UInt8 :=
  encodeName q.qname ++ (u16ToBe q.qtype ++ u16ToBe q.qclass)

theorem Label.toNat_length (label : Label) :
    (UInt8.ofNat label.bytes.length).toNat = label.bytes.length := by
  have := label.lt
  rw [UInt8.toNat_ofNat', Nat.mod_eq_of_lt (by omega)]

theorem Label.selfDelimiting : SelfDelimiting Label.encode := by
  rintro ⟨x, hx, hx'⟩ ⟨y, hy, hy'⟩ s t h
  rw [Label.encode, Label.encode, List.cons_append, List.cons_append, List.cons.injEq] at h
  have hlen : x.length = y.length := by
    have := congrArg UInt8.toNat h.1
    rwa [toNat_length ⟨x, hx, hx'⟩, toNat_length ⟨y, hy, hy'⟩] at this
  obtain ⟨rfl, rfl⟩ := List.append_inj h.2 hlen
  exact ⟨rfl, rfl⟩

/-- The length byte of a label is neither the root nor the start of a pointer. -/
theorem Label.encode_append_ne (label : Label) {b : UInt8} (hb : b.toNat = 0 ∨ 64 ≤ b.toNat)
    (s t : List UInt8) : label.encode ++ s ≠ b :: t := by
  intro h
  have hpos := label.pos
  have hlt := label.lt
  have := congrArg UInt8.toNat (List.cons.inj h).1
  rw [label.toNat_length] at this
  omega

theorem encodeName_selfDelimiting : SelfDelimiting encodeName := by
  intro x y s t h
  have hclosed := Label.selfDelimiting.closedBy (g := fun _ : Unit => [(0 : UInt8)])
    (fun _ _ _ _ h => ⟨rfl, List.append_cancel_left h⟩)
    fun label _ s t => label.encode_append_ne (Or.inl rfl) s t
  obtain ⟨hxy, hst⟩ := hclosed (x := (x, ())) (y := (y, ())) h
  exact ⟨(Prod.mk.inj hxy).1, hst⟩

theorem u16ToBe_selfDelimiting : SelfDelimiting u16ToBe :=
  .of_length length_u16ToBe fun x y h => by
    have hx := u16FromBe_u16ToBe x
    rw [u16ToBe, u16ToBe, List.cons.injEq, List.cons.injEq] at h
    rw [h.1, h.2.1, u16FromBe_u16ToBe] at hx
    exact hx.symm

theorem u32ToBe_selfDelimiting : SelfDelimiting u32ToBe :=
  .of_length length_u32ToBe fun x y h => by
    have hx := u32FromBe_u32ToBe x
    simp only [u32ToBe, List.cons.injEq] at h
    rw [h.1, h.2.1, h.2.2.1, h.2.2.2.1, u32FromBe_u32ToBe] at hx
    exact hx.symm

theorem Question.selfDelimiting : SelfDelimiting Question.encode := by
  rintro ⟨n, ty, cl⟩ ⟨n', ty', cl'⟩ s t h
  simp only [Question.encode, List.append_assoc] at h
  obtain ⟨rfl, h₁⟩ := encodeName_selfDelimiting h
  obtain ⟨rfl, h₂⟩ := u16ToBe_selfDelimiting h₁
  obtain ⟨rfl, rfl⟩ := u16ToBe_selfDelimiting h₂
  exact ⟨rfl, rfl⟩

theorem Question.length_encode (q : Question) :
    q.encode.length = (encodeName q.qname).length + 4 := by
  simp only [Question.encode, List.length_append, length_u16ToBe]

/-! ## Resource records -/

/-- A name inside a record: labels, then the root or a pointer. -/
structure Owner where
  labels : List Label
  pointer : Option (Fin (2 ^ 14))
deriving DecidableEq

/-- The root is a zero byte; a pointer has its two top bits set. -/
def encodeEnding : Option (Fin (2 ^ 14)) → List UInt8
  | none => [0]
  | some offset => [UInt8.ofNat (192 + offset.val / 256), UInt8.ofNat offset.val]

def Owner.encode (owner : Owner) : List UInt8 :=
  owner.labels.flatMap Label.encode ++ encodeEnding owner.pointer

/-- A resource record; the length of its data fits the field that says it. -/
structure Record where
  owner : Owner
  rtype : UInt16
  rclass : UInt16
  ttl : UInt32
  rdata : List UInt8
  rdata_lt : rdata.length < 2 ^ 16
deriving DecidableEq

def Record.encode (r : Record) : List UInt8 :=
  r.owner.encode ++ (u16ToBe r.rtype ++ (u16ToBe r.rclass ++ (u32ToBe r.ttl ++
    (u16ToBe (UInt16.ofNat r.rdata.length) ++ r.rdata))))

theorem encodeEnding_selfDelimiting : SelfDelimiting encodeEnding := by
  have htop : ∀ i : Fin (2 ^ 14),
      (UInt8.ofNat (192 + i.val / 256)).toNat = 192 + i.val / 256 := by
    intro i
    have := i.isLt
    rw [UInt8.toNat_ofNat', Nat.mod_eq_of_lt (by omega)]
  rintro x y s t h
  cases x with
  | none =>
      cases y with
      | none => exact ⟨rfl, (List.cons.inj h).2⟩
      | some j =>
          have := congrArg UInt8.toNat (List.cons.inj h).1
          rw [htop] at this
          have hzero : (0 : UInt8).toNat = 0 := rfl
          omega
  | some i =>
      cases y with
      | none =>
          have := congrArg UInt8.toNat (List.cons.inj h).1
          rw [htop] at this
          have hzero : (0 : UInt8).toNat = 0 := rfl
          omega
      | some j =>
          obtain ⟨hhi, hrest⟩ := List.cons.inj h
          obtain ⟨hlo, hst⟩ := List.cons.inj hrest
          have hhi := congrArg UInt8.toNat hhi
          have hlo := congrArg UInt8.toNat hlo
          rw [htop, htop] at hhi
          rw [UInt8.toNat_ofNat', UInt8.toNat_ofNat'] at hlo
          refine ⟨congrArg some (Fin.ext ?_), hst⟩
          omega

theorem Owner.selfDelimiting : SelfDelimiting Owner.encode := by
  rintro ⟨labels, ending⟩ ⟨labels', ending'⟩ s t h
  have hclosed := Label.selfDelimiting.closedBy encodeEnding_selfDelimiting
    fun label ending s t => by
      cases ending with
      | none => exact label.encode_append_ne (Or.inl rfl) s t
      | some i =>
          refine label.encode_append_ne (Or.inr ?_) s _
          have := i.isLt
          rw [UInt8.toNat_ofNat', Nat.mod_eq_of_lt (by omega)]
          omega
  obtain ⟨howner, rfl⟩ := hclosed (x := (labels, ending)) (y := (labels', ending')) h
  obtain ⟨rfl, rfl⟩ := Prod.mk.inj howner
  exact ⟨rfl, rfl⟩

theorem Record.selfDelimiting : SelfDelimiting Record.encode := by
  rintro ⟨owner, ty, cl, ttl, rdata, hlt⟩ ⟨owner', ty', cl', ttl', rdata', hlt'⟩ s t h
  simp only [Record.encode, List.append_assoc] at h
  obtain ⟨rfl, h₁⟩ := Owner.selfDelimiting h
  obtain ⟨rfl, h₂⟩ := u16ToBe_selfDelimiting h₁
  obtain ⟨rfl, h₃⟩ := u16ToBe_selfDelimiting h₂
  obtain ⟨rfl, h₄⟩ := u32ToBe_selfDelimiting h₃
  obtain ⟨hlen, h₅⟩ := u16ToBe_selfDelimiting h₄
  have hlen := congrArg UInt16.toNat hlen
  rw [UInt16.toNat_ofNat', UInt16.toNat_ofNat', Nat.mod_eq_of_lt hlt,
    Nat.mod_eq_of_lt hlt'] at hlen
  obtain ⟨rfl, rfl⟩ := List.append_inj h₅ hlen
  exact ⟨rfl, rfl⟩

/-! ## Messages -/

/-- The six words of a header. -/
structure Header where
  id : UInt16
  flags : UInt16
  qdcount : UInt16
  ancount : UInt16
  nscount : UInt16
  arcount : UInt16
deriving DecidableEq

def Header.encode (h : Header) : List UInt8 :=
  u16ToBe h.id ++ (u16ToBe h.flags ++ (u16ToBe h.qdcount ++ (u16ToBe h.ancount ++
    (u16ToBe h.nscount ++ u16ToBe h.arcount))))

/-- A list whose length a 16-bit count can say. -/
abbrev Section (α : Type) := { entries : List α // entries.length < 2 ^ 16 }

/-- The count field of a section. -/
def count {α : Type} (entries : Section α) : UInt16 :=
  UInt16.ofNat entries.val.length

structure Message where
  id : UInt16
  flags : UInt16
  questions : Section Question
  answers : Section Record
  authority : Section Record
  additional : Section Record

def Message.header (m : Message) : Header where
  id := m.id
  flags := m.flags
  qdcount := count m.questions
  ancount := count m.answers
  nscount := count m.authority
  arcount := count m.additional

/-- The bytes of a message: every count is the number of entries that follow. -/
def Message.encode (m : Message) : List UInt8 :=
  m.header.encode ++ (m.questions.val.flatMap Question.encode ++
    (m.answers.val.flatMap Record.encode ++ (m.authority.val.flatMap Record.encode ++
      m.additional.val.flatMap Record.encode)))

theorem Header.length_encode (h : Header) : h.encode.length = 12 := rfl

theorem Header.selfDelimiting : SelfDelimiting Header.encode := by
  rintro ⟨i, f, qd, an, ns, ar⟩ ⟨i', f', qd', an', ns', ar'⟩ s t h
  simp only [Header.encode, List.append_assoc] at h
  obtain ⟨rfl, h₁⟩ := u16ToBe_selfDelimiting h
  obtain ⟨rfl, h₂⟩ := u16ToBe_selfDelimiting h₁
  obtain ⟨rfl, h₃⟩ := u16ToBe_selfDelimiting h₂
  obtain ⟨rfl, h₄⟩ := u16ToBe_selfDelimiting h₃
  obtain ⟨rfl, h₅⟩ := u16ToBe_selfDelimiting h₄
  obtain ⟨rfl, rfl⟩ := u16ToBe_selfDelimiting h₅
  exact ⟨rfl, rfl⟩

/-- Every twelve bytes are a header. -/
theorem exists_header {bytes : List UInt8} (h : 12 ≤ bytes.length) :
    ∃ (header : Header) (body : List UInt8), bytes = header.encode ++ body := by
  match bytes, h with
  | b₀ :: b₁ :: b₂ :: b₃ :: b₄ :: b₅ :: b₆ :: b₇ :: b₈ :: b₉ :: b₁₀ :: b₁₁ :: body, _ =>
      refine ⟨⟨u16FromBe b₀ b₁, u16FromBe b₂ b₃, u16FromBe b₄ b₅, u16FromBe b₆ b₇,
        u16FromBe b₈ b₉, u16FromBe b₁₀ b₁₁⟩, body, ?_⟩
      simp only [Header.encode, u16ToBe_u16FromBe]
      rfl

theorem count_inj {α : Type} {xs ys : Section α} (h : count xs = count ys) :
    xs.val.length = ys.val.length := by
  have := congrArg UInt16.toNat h
  rwa [count, count, UInt16.toNat_ofNat', UInt16.toNat_ofNat', Nat.mod_eq_of_lt xs.2,
    Nat.mod_eq_of_lt ys.2] at this

/-- A message is determined by its bytes. -/
theorem Message.encode_injective : Function.Injective Message.encode := by
  rintro ⟨i, f, qd, an, ns, ar⟩ ⟨i', f', qd', an', ns', ar'⟩ h
  obtain ⟨hheader, h₁⟩ := Header.selfDelimiting h
  simp only [Message.header, Header.mk.injEq] at hheader
  obtain ⟨rfl, rfl, hqd, han, hns, har⟩ := hheader
  obtain ⟨hqd, h₂⟩ := Question.selfDelimiting.flatMap (count_inj hqd) h₁
  obtain ⟨han, h₃⟩ := Record.selfDelimiting.flatMap (count_inj han) h₂
  obtain ⟨hns, h₄⟩ := Record.selfDelimiting.flatMap (count_inj hns) h₃
  obtain ⟨har, -⟩ := Record.selfDelimiting.flatMap (s := []) (t := []) (count_inj har)
    (by simpa using h₄)
  obtain rfl := Subtype.ext hqd
  obtain rfl := Subtype.ext han
  obtain rfl := Subtype.ext hns
  obtain rfl := Subtype.ext har
  rfl

/-! ## The flag word -/

/-- `QR`: the message is a response. -/
def qr (flags : UInt16) : Bool := flags.toNat.testBit 15

def opcode (flags : UInt16) : Nat := flags.toNat / 2 ^ 11 % 2 ^ 4

/-- `AA`: the answer is authoritative. -/
def aa (flags : UInt16) : Bool := flags.toNat.testBit 10

/-- `TC`: the message was cut short. -/
def tc (flags : UInt16) : Bool := flags.toNat.testBit 9

/-- `RD`: recursion is desired. -/
def rd (flags : UInt16) : Bool := flags.toNat.testBit 8

/-- `RA`: recursion is available. -/
def ra (flags : UInt16) : Bool := flags.toNat.testBit 7

def rcode (flags : UInt16) : Nat := flags.toNat % 2 ^ 4

end Rfc1035
