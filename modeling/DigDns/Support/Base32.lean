import Mathlib.Data.List.Basic
import Mathlib.Data.Nat.Bitwise
import Mathlib.Tactic.Ring

/-!
# Base32 of RFC 4648, without padding

Section 6 of the RFC reads a byte string as one stream of bits, most
significant bit first, and cuts the stream into groups of five.  `Spells`
says this without an algorithm: the symbols carry the bits of the bytes,
followed by fewer than five zero bits.  A strict decoder accepts exactly the
strings that spell something.  `base32Encode` and `base32Decode` are an
executable codec of this kind.
-/

namespace Rfc4648

/-! ## Numbers as bit groups -/

/-- The `w` low bits of `n`, most significant first. -/
def toBits : Nat → Nat → List Bool
  | 0, _ => []
  | w + 1, n => n.testBit w :: toBits w n

/-- The number whose bits, most significant first, are given. -/
def ofBits (bits : List Bool) : Nat :=
  bits.foldl (fun acc b => 2 * acc + b.toNat) 0

@[simp] theorem length_toBits (w n : Nat) : (toBits w n).length = w := by
  induction w with
  | zero => rfl
  | succ w ih => simp [toBits, ih]

theorem foldl_toBits (w n acc : Nat) :
    (toBits w n).foldl (fun acc b => 2 * acc + b.toNat) acc =
      acc * 2 ^ w + n % 2 ^ w := by
  induction w generalizing acc with
  | zero => simp [toBits, Nat.mod_one]
  | succ w ih =>
      rw [toBits, List.foldl_cons, ih, Nat.mod_pow_succ, Nat.toNat_testBit, Nat.pow_succ]
      ring

theorem ofBits_toBits {w n : Nat} (hn : n < 2 ^ w) :
    ofBits (toBits w n) = n := by
  rw [ofBits, foldl_toBits, Nat.zero_mul, Nat.zero_add, Nat.mod_eq_of_lt hn]

theorem toBits_injOn {w m n : Nat} (hm : m < 2 ^ w) (hn : n < 2 ^ w)
    (h : toBits w m = toBits w n) :
    m = n := by
  rw [← ofBits_toBits hm, h, ofBits_toBits hn]

theorem foldl_bits (bits : List Bool) (acc : Nat) :
    bits.foldl (fun acc b => 2 * acc + b.toNat) acc =
      acc * 2 ^ bits.length + ofBits bits := by
  induction bits generalizing acc with
  | nil => simp [ofBits]
  | cons b bits ih =>
      rw [ofBits, List.foldl_cons, List.foldl_cons, ih, ih (2 * 0 + b.toNat),
        List.length_cons, Nat.pow_succ]
      ring

theorem ofBits_cons (b : Bool) (bits : List Bool) :
    ofBits (b :: bits) = b.toNat * 2 ^ bits.length + ofBits bits := by
  rw [ofBits, List.foldl_cons, foldl_bits]
  simp

theorem ofBits_lt (bits : List Bool) : ofBits bits < 2 ^ bits.length := by
  induction bits with
  | nil => simp [ofBits]
  | cons b bits ih =>
      rw [ofBits_cons, List.length_cons, Nat.pow_succ]
      have hb : b.toNat ≤ 1 := Bool.toNat_le b
      calc
        b.toNat * 2 ^ bits.length + ofBits bits
            < b.toNat * 2 ^ bits.length + 2 ^ bits.length := by omega
        _ = (b.toNat + 1) * 2 ^ bits.length := by ring
        _ ≤ 2 * 2 ^ bits.length := Nat.mul_le_mul_right _ (by omega)
        _ = 2 ^ bits.length * 2 := by ring

/-- A remainder by a power of two keeps the bits below it. -/
theorem testBit_mod_two_pow_of_lt {n i j : Nat} (h : i < j) :
    (n % 2 ^ j).testBit i = n.testBit i := by
  simp [h]

/-- Only the low `w` bits matter to `toBits w`. -/
theorem toBits_add_mul_two_pow (w a n : Nat) :
    ∀ v, w ≤ v → toBits w (a * 2 ^ v + n) = toBits w n := by
  induction w with
  | zero => intro v _; rfl
  | succ w ih =>
      intro v hv
      rw [toBits, toBits, ih v (by omega)]
      congr 1
      rw [← testBit_mod_two_pow_of_lt (by omega : w < v), Nat.mul_comm,
        Nat.mul_add_mod, testBit_mod_two_pow_of_lt (by omega : w < v)]

theorem toBits_ofBits (bits : List Bool) :
    toBits bits.length (ofBits bits) = bits := by
  induction bits with
  | nil => rfl
  | cons b bits ih =>
      rw [List.length_cons, toBits, ofBits_cons,
        toBits_add_mul_two_pow _ _ _ _ le_rfl, ih]
      congr 1
      rw [Nat.mul_comm, Nat.testBit_two_pow_mul_add _ (ofBits_lt bits)]
      cases b <;> simp

/-! ## Cutting a list into groups -/

/-- The complete groups of `k` consecutive elements. -/
def groups (k : Nat) (l : List α) : List (List α) :=
  (List.range (l.length / k)).map fun i => (l.drop (k * i)).take k

theorem flatten_groups {k m : Nat} {l : List α} (hk : 0 < k)
    (hl : l.length = k * m) :
    (groups k l).flatten = l := by
  have hpre : ∀ n,
      ((List.range n).map fun i => (l.drop (k * i)).take k).flatten =
        l.take (k * n) := by
    intro n
    induction n with
    | zero => simp
    | succ n ih =>
        rw [List.range_succ, List.map_append, List.flatten_append, ih,
          Nat.mul_succ, List.take_add]
        simp
  rw [groups, hpre, hl, Nat.mul_div_cancel_left _ hk, ← hl, List.take_length]

theorem length_of_mem_groups {k : Nat} {l g : List α} (hg : g ∈ groups k l) :
    g.length = k := by
  simp only [groups, List.mem_map, List.mem_range] at hg
  obtain ⟨i, hi, rfl⟩ := hg
  have hle : k * (i + 1) ≤ l.length :=
    (Nat.mul_le_mul_left k hi).trans (Nat.mul_div_le _ _)
  rw [Nat.mul_succ] at hle
  simp only [List.length_take, List.length_drop]
  omega

/-- Concatenating codes of one positive length loses nothing. -/
theorem flatMap_inj_of_length {f : α → List β} {k : Nat} (hk : 0 < k)
    (hlen : ∀ a, (f a).length = k) {l₁ l₂ : List α}
    (hinj : ∀ a ∈ l₁, ∀ b ∈ l₂, f a = f b → a = b)
    (h : l₁.flatMap f = l₂.flatMap f) :
    l₁ = l₂ := by
  induction l₁ generalizing l₂ with
  | nil =>
      cases l₂ with
      | nil => rfl
      | cons b l₂ =>
          have := congrArg List.length h
          simp only [List.flatMap_nil, List.length_nil, List.flatMap_cons,
            List.length_append, hlen] at this
          omega
  | cons a l₁ ih =>
      cases l₂ with
      | nil =>
          have := congrArg List.length h
          simp only [List.flatMap_nil, List.length_nil, List.flatMap_cons,
            List.length_append, hlen] at this
          omega
      | cons b l₂ =>
          rw [List.flatMap_cons, List.flatMap_cons] at h
          obtain ⟨hhead, htail⟩ := List.append_inj h (by rw [hlen, hlen])
          rw [hinj a (by simp) b (by simp) hhead,
            ih (fun c hc d hd => hinj c (by simp [hc]) d (by simp [hd])) htail]

/-! ## The specification -/

/-- The symbol of the RFC's table for a five-bit value. -/
def symbol (v : Nat) : UInt8 :=
  if v < 26 then UInt8.ofNat (65 + v) else UInt8.ofNat (24 + v)

/-- The five-bit value of a symbol, `none` for a foreign one. -/
def symbolValue (b : UInt8) : Option Nat :=
  if 65 ≤ b.toNat ∧ b.toNat ≤ 90 then some (b.toNat - 65)
  else if 50 ≤ b.toNat ∧ b.toNat ≤ 55 then some (b.toNat - 24)
  else none

def byteBits (bs : List UInt8) : List Bool :=
  bs.flatMap fun b => toBits 8 b.toNat

/-- The symbols `s` carry the bits of `bs` and fewer than five zero bits
more. -/
def Spells (s bs : List UInt8) : Prop :=
  ∃ (values : List Nat) (pad : Nat), (∀ v ∈ values, v < 32) ∧
    s = values.map symbol ∧ pad < 5 ∧
    values.flatMap (toBits 5) = byteBits bs ++ List.replicate pad false

theorem symbolValue_symbol {v : Nat} (hv : v < 32) :
    symbolValue (symbol v) = some v := by
  unfold symbol symbolValue
  split_ifs <;> simp_all <;> omega

theorem symbol_of_symbolValue {b : UInt8} {v : Nat} (h : symbolValue b = some v) :
    v < 32 ∧ symbol v = b := by
  unfold symbolValue at h
  split_ifs at h with hletter hdigit
  · obtain rfl := Option.some.inj h
    refine ⟨by omega, ?_⟩
    rw [symbol, if_pos (by omega), show 65 + (b.toNat - 65) = b.toNat by omega]
    simp
  · obtain rfl := Option.some.inj h
    refine ⟨by omega, ?_⟩
    rw [symbol, if_neg (by omega), show 24 + (b.toNat - 24) = b.toNat by omega]
    simp

theorem symbol_range {v : Nat} (hv : v < 32) :
    (65 ≤ (symbol v).toNat ∧ (symbol v).toNat ≤ 90) ∨
      (50 ≤ (symbol v).toNat ∧ (symbol v).toNat ≤ 55) := by
  unfold symbol
  split_ifs <;> simp <;> omega

/-- Reading symbols back succeeds exactly on strings of symbols. -/
theorem mapM_symbolValue {s : List UInt8} {values : List Nat} :
    s.mapM symbolValue = some values ↔
      (∀ v ∈ values, v < 32) ∧ s = values.map symbol := by
  induction s generalizing values with
  | nil => cases values <;> simp
  | cons b s ih =>
      rw [List.mapM_cons]
      simp only [Option.bind_eq_bind, Option.pure_def, Option.bind_eq_some_iff,
        Option.some.injEq]
      constructor
      · rintro ⟨v, hv, vs, hvs, rfl⟩
        obtain ⟨hlt, hsym⟩ := symbol_of_symbolValue hv
        obtain ⟨hall, rfl⟩ := ih.mp hvs
        exact ⟨List.forall_mem_cons.mpr ⟨hlt, hall⟩, by rw [List.map_cons, hsym]⟩
      · rintro ⟨hall, hs⟩
        cases values with
        | nil => simp at hs
        | cons v vs =>
            rw [List.map_cons, List.cons.injEq] at hs
            obtain ⟨hlt, hall⟩ := List.forall_mem_cons.mp hall
            exact ⟨v, hs.1 ▸ symbolValue_symbol hlt, vs, ih.mpr ⟨hall, hs.2⟩, rfl⟩

theorem length_byteBits (bs : List UInt8) : (byteBits bs).length = 8 * bs.length := by
  induction bs with
  | nil => rfl
  | cons b bs ih =>
      simp only [byteBits, List.flatMap_cons, List.length_append, length_toBits,
        List.length_cons] at ih ⊢
      omega

theorem byteBits_injective : Function.Injective byteBits := by
  intro bs bs' h
  refine flatMap_inj_of_length (k := 8) (by decide) (fun _ => length_toBits _ _) ?_ h
  intro a _ b _ hab
  exact UInt8.toNat_inj.mp (toBits_injOn a.toNat_lt b.toNat_lt hab)

theorem length_values (values : List Nat) :
    (values.flatMap (toBits 5)).length = 5 * values.length := by
  induction values with
  | nil => rfl
  | cons v values ih =>
      rw [List.flatMap_cons, List.length_append, ih, length_toBits, List.length_cons]
      omega

/-- The numbers of symbols, bytes and padding bits. -/
theorem Spells.length {s bs : List UInt8} (h : Spells s bs) :
    ∃ pad, pad < 5 ∧ 5 * s.length = 8 * bs.length + pad := by
  obtain ⟨values, pad, -, rfl, hpad, hbits⟩ := h
  refine ⟨pad, hpad, ?_⟩
  have := congrArg List.length hbits
  rw [length_values, List.length_append, length_byteBits, List.length_replicate] at this
  rw [List.length_map, this]

/-- A string that spells something is made of the letters `A` to `Z` and the
digits `2` to `7`. -/
theorem Spells.range_of_mem {s bs : List UInt8} (h : Spells s bs) {b : UInt8} (hb : b ∈ s) :
    (65 ≤ b.toNat ∧ b.toNat ≤ 90) ∨ (50 ≤ b.toNat ∧ b.toNat ≤ 55) := by
  obtain ⟨values, -, hlt, rfl, -⟩ := h
  obtain ⟨v, hv, rfl⟩ := List.mem_map.mp hb
  exact symbol_range (hlt v hv)

/-- A string spells at most one byte string. -/
theorem Spells.right_unique {s bs bs' : List UInt8}
    (h : Spells s bs) (h' : Spells s bs') :
    bs = bs' := by
  obtain ⟨p, hp, hlen⟩ := h.length
  obtain ⟨p', hp', hlen'⟩ := h'.length
  obtain ⟨values, pad, hv, rfl, -, hbits⟩ := h
  obtain ⟨values', pad', hv', hs, -, hbits'⟩ := h'
  have hvalues : values = values' := by
    have hread := mapM_symbolValue.mpr ⟨hv, rfl⟩
    rw [hs, mapM_symbolValue.mpr ⟨hv', rfl⟩] at hread
    exact (Option.some.inj hread).symm
  subst hvalues
  rw [hbits] at hbits'
  exact byteBits_injective (List.append_inj hbits' (by
    rw [length_byteBits, length_byteBits]
    omega)).1

/-- A byte string is spelled in at most one way. -/
theorem Spells.left_unique {s s' bs : List UInt8}
    (h : Spells s bs) (h' : Spells s' bs) :
    s = s' := by
  obtain ⟨values, pad, hv, rfl, hpad, hbits⟩ := h
  obtain ⟨values', pad', hv', rfl, hpad', hbits'⟩ := h'
  have hlen := congrArg List.length hbits
  have hlen' := congrArg List.length hbits'
  rw [length_values, List.length_append, List.length_replicate] at hlen hlen'
  have hpads : pad = pad' := by omega
  subst hpads
  congr 1
  refine flatMap_inj_of_length (k := 5) (by decide) (fun _ => length_toBits _ _) ?_
    (hbits.trans hbits'.symm)
  intro a ha b hb hab
  exact toBits_injOn (hv a ha) (hv' b hb) hab

/-! ## An executable codec -/

/-- Encode bytes as alphabet symbols. -/
def base32Encode (bs : List UInt8) : List UInt8 :=
  let bits := byteBits bs
  let padded := bits ++ List.replicate ((5 - bits.length % 5) % 5) false
  (groups 5 padded).map fun g => symbol (ofBits g)

/-- Decode alphabet symbols, rejecting a foreign symbol, a length that no byte
string has and a padding bit that is not zero. -/
def base32Decode (s : List UInt8) : Option (List UInt8) := do
  let values ← s.mapM symbolValue
  let bits := values.flatMap (toBits 5)
  let n := bits.length / 8
  let rest := bits.drop (8 * n)
  if rest.length < 5 ∧ rest.all (!·) then
    some ((groups 8 (bits.take (8 * n))).map fun g => UInt8.ofNat (ofBits g))
  else none

theorem spells_base32Encode (bs : List UInt8) : Spells (base32Encode bs) bs := by
  set pad := (5 - (byteBits bs).length % 5) % 5 with hpad
  set padded := byteBits bs ++ List.replicate pad false with hpadded
  have hlen : padded.length = 5 * (padded.length / 5) := by
    have : padded.length = (byteBits bs).length + pad := by simp [hpadded]
    omega
  refine ⟨(groups 5 padded).map ofBits, pad, ?_, ?_, by omega, ?_⟩
  · intro v hv
    obtain ⟨g, hg, rfl⟩ := List.mem_map.mp hv
    have := ofBits_lt g
    rwa [length_of_mem_groups hg] at this
  · rw [List.map_map]
    rfl
  · rw [List.flatMap_map, ← hpadded]
    have hback : ∀ g ∈ groups 5 padded, toBits 5 (ofBits g) = g := by
      intro g hg
      have := toBits_ofBits g
      rwa [length_of_mem_groups hg] at this
    rw [List.flatMap_def, List.map_congr_left hback, List.map_id',
      flatten_groups (by decide) hlen]

/-- The decoder accepts exactly the strings that spell something. -/
theorem base32Decode_eq_some_iff {s bs : List UInt8} :
    base32Decode s = some bs ↔ Spells s bs := by
  have hsound : ∀ {bs}, base32Decode s = some bs → Spells s bs := by
    intro bs h
    simp only [base32Decode, Option.bind_eq_bind, Option.bind_eq_some_iff] at h
    obtain ⟨values, hvalues, h⟩ := h
    split_ifs at h with hrest
    obtain rfl := Option.some.inj h
    obtain ⟨hlt, hs⟩ := mapM_symbolValue.mp hvalues
    set bits := values.flatMap (toBits 5)
    set n := bits.length / 8
    refine ⟨values, (bits.drop (8 * n)).length, hlt, hs, hrest.1, ?_⟩
    have hzero : bits.drop (8 * n) =
        List.replicate (bits.drop (8 * n)).length false := by
      apply List.eq_replicate_length.mpr
      simpa using hrest.2
    have hbytes : byteBits ((groups 8 (bits.take (8 * n))).map
        fun g => UInt8.ofNat (ofBits g)) = bits.take (8 * n) := by
      rw [byteBits, List.flatMap_map, List.flatMap_def]
      have hback : ∀ g ∈ groups 8 (bits.take (8 * n)),
          toBits 8 (UInt8.ofNat (ofBits g)).toNat = g := by
        intro g hg
        have hlen := length_of_mem_groups hg
        have hlt : ofBits g < 2 ^ 8 := by
          have := ofBits_lt g
          rwa [hlen] at this
        rw [UInt8.toNat_ofNat', Nat.mod_eq_of_lt hlt]
        have := toBits_ofBits g
        rwa [hlen] at this
      rw [List.map_congr_left hback, List.map_id',
        flatten_groups (m := n) (by decide)]
      rw [List.length_take]
      omega
    rw [hbytes, ← hzero, List.take_append_drop]
  refine ⟨hsound, fun h => ?_⟩
  obtain ⟨values, pad, hlt, hs, hpad, hbits⟩ := id h
  have hvalues := mapM_symbolValue.mpr ⟨hlt, hs⟩
  -- Acceptance first: the tail after the last whole byte is the padding.
  have hlen : (values.flatMap (toBits 5)).length = 8 * bs.length + pad := by
    rw [hbits, List.length_append, length_byteBits, List.length_replicate]
  have hdiv : (values.flatMap (toBits 5)).length / 8 = bs.length := by omega
  have hrest : (values.flatMap (toBits 5)).drop (8 * bs.length) =
      List.replicate pad false := by
    rw [hbits, ← length_byteBits, List.drop_left]
  obtain ⟨bs', hbs'⟩ : ∃ bs', base32Decode s = some bs' := by
    simp only [base32Decode, Option.bind_eq_bind, hvalues, Option.bind_some, hdiv, hrest]
    rw [if_pos ⟨by simpa using hpad, by simp⟩]
    exact ⟨_, rfl⟩
  rw [hbs', (hsound hbs').right_unique h]

end Rfc4648
