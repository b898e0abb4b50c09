import DigDns.Codecs

/-!
# The label codec

`label.rs`: a 32-byte store id is written as one DNS label, the 52 base32
symbols of the id in lower case, and as 64 hex digits towards the node.
-/

namespace DigDns

open Rust

/-- `STORE_ID_LEN`. -/
def storeIdLen : Nat := 32

/-- `LABEL_LEN`. -/
def labelLen : Nat := 52

/-- `[u8; STORE_ID_LEN]`, which `digstore_core` calls `Bytes32`. -/
structure Bytes32 where
  bytes : List UInt8
  length_eq : bytes.length = storeIdLen
deriving DecidableEq

/-- Errors from decoding or encoding a label. -/
inductive LabelError
  | wrongLabelLength (len : Nat)
  | notBase32
  | wrongDecodedLength (len : Nat)
  | wrongHexLength (len : Nat)
  | notHex
deriving DecidableEq, Repr

/-- `Display` of a `LabelError`. -/
def LabelError.message : LabelError → Str
  | wrongLabelLength n =>
      "label must be ".toList ++ fmtNat labelLen ++ " base32 characters, got ".toList ++ fmtNat n
  | notBase32 => "label is not valid base32 (RFC 4648, alphabet a-z2-7)".toList
  | wrongDecodedLength n =>
      "label decoded to ".toList ++ fmtNat n ++ " bytes, expected ".toList ++ fmtNat storeIdLen
  | wrongHexLength _ =>
      "store id must be ".toList ++ fmtNat (storeIdLen * 2) ++ " hex characters".toList
  | notHex => "store id is not valid hex".toList

section Codec

variable (codecs : Codecs)

/-- `store_bytes_to_label` -/
def storeBytesToLabel (id : Bytes32) : Str :=
  toAsciiLowercase (codecs.base32Encode id.bytes)

/-- `store_hex_to_label` -/
def storeHexToLabel (storeHex : Str) : Except LabelError Str :=
  if byteLen storeHex ≠ storeIdLen * 2 then
    .error (.wrongHexLength (byteLen storeHex))
  else
    match codecs.hexDecode storeHex with
    | none => .error .notHex
    | some bytes =>
        if h : bytes.length = storeIdLen then .ok (storeBytesToLabel codecs ⟨bytes, h⟩)
        else .error (.wrongHexLength (bytes.length * 2))

/-- `label_to_store_bytes` -/
def labelToStoreBytes (label : Str) : Except LabelError Bytes32 :=
  if byteLen label ≠ labelLen then
    .error (.wrongLabelLength (byteLen label))
  else
    let upper := toAsciiUppercase label
    match codecs.base32Decode (utf8 upper) with
    | none => .error .notBase32
    | some bytes =>
        if h : bytes.length = storeIdLen then .ok ⟨bytes, h⟩
        else .error (.wrongDecodedLength bytes.length)

/-- `label_to_store_hex` -/
def labelToStoreHex (label : Str) : Except LabelError Str :=
  match labelToStoreBytes codecs label with
  | .ok id => .ok (codecs.hexEncode id.bytes)
  | .error e => .error e

/-- `is_valid_label` -/
def isValidLabel (label : Str) : Bool :=
  (labelToStoreBytes codecs label).isOk

end Codec

/-! ## What a label spells -/

section Strict

variable {codecs : Codecs}

/-- The encoder writes capitals and the digits `2` to `7`. -/
theorem range_of_mem_base32Encode (hbase32 : codecs.StrictBase32) {bs : List UInt8} {c : Char}
    (hc : c ∈ codecs.base32Encode bs) :
    (65 ≤ c.toNat ∧ c.toNat ≤ 90) ∨ (50 ≤ c.toNat ∧ c.toNat ≤ 55) := by
  have hspells := hbase32.encode_spells bs
  have hascii : ∀ c ∈ codecs.base32Encode bs, c.toNat < 128 := by
    refine ascii_of_utf8 fun b hb => ?_
    have := hspells.range_of_mem hb
    omega
  rw [utf8_of_ascii hascii] at hspells
  have hrange := hspells.range_of_mem (List.mem_map_of_mem hc)
  have hlt := hascii c hc
  rwa [UInt8.toNat_ofNat', Nat.mod_eq_of_lt (by omega)] at hrange

/-- The upper case of a label spells the id it was made from. -/
theorem spells_storeBytesToLabel (hbase32 : codecs.StrictBase32) (id : Bytes32) :
    Rfc4648.Spells (utf8 (toAsciiUppercase (storeBytesToLabel codecs id))) id.bytes := by
  have hupper : toAsciiUppercase (codecs.base32Encode id.bytes) =
      codecs.base32Encode id.bytes := by
    refine toAsciiUppercase_of_no_lower fun c hc => ?_
    have := range_of_mem_base32Encode hbase32 hc
    omega
  rw [storeBytesToLabel, toAsciiUppercase_toAsciiLowercase, hupper]
  exact hbase32.encode_spells id.bytes

/-- A string of 52 symbols spells 32 bytes. -/
theorem length_of_spells {s bs : List UInt8} (h : Rfc4648.Spells s bs)
    (hs : s.length = labelLen) :
    bs.length = storeIdLen := by
  obtain ⟨pad, hpad, hlen⟩ := h.length
  simp only [labelLen, storeIdLen] at *
  omega

/-- And 32 bytes are spelled by 52 symbols. -/
theorem length_of_spells_storeBytes {s : List UInt8} {id : Bytes32}
    (h : Rfc4648.Spells s id.bytes) :
    s.length = labelLen := by
  obtain ⟨pad, hpad, hlen⟩ := h.length
  have hid := id.length_eq
  simp only [labelLen, storeIdLen] at *
  omega

/-- A label names an id exactly when its upper case spells the id. -/
theorem labelToStoreBytes_eq_ok_iff (hbase32 : codecs.StrictBase32) {label : Str}
    {id : Bytes32} :
    labelToStoreBytes codecs label = .ok id ↔
      Rfc4648.Spells (utf8 (toAsciiUppercase label)) id.bytes := by
  constructor
  · intro h
    simp only [labelToStoreBytes] at h
    split_ifs at h
    split at h
    · cases h
    · rename_i bytes hdecode
      split_ifs at h
      cases h
      exact (hbase32.decode_iff _ _).mp hdecode
  · intro h
    have hlen : byteLen label = labelLen := by
      rw [← byteLen_toAsciiUppercase]
      exact length_of_spells_storeBytes h
    rw [labelToStoreBytes, if_neg (not_not.mpr hlen)]
    simp only [(hbase32.decode_iff _ _).mpr h]
    rw [dif_pos id.length_eq]

/-- The decoder never meets a string of 52 symbols of another length. -/
theorem labelToStoreBytes_ne_wrongDecodedLength (hbase32 : codecs.StrictBase32)
    (label : Str) (n : Nat) :
    labelToStoreBytes codecs label ≠ .error (.wrongDecodedLength n) := by
  intro h
  simp only [labelToStoreBytes] at h
  split_ifs at h with hlen
  · cases h
  · split at h
    · cases h
    · rename_i bytes hdecode
      have hspells := (hbase32.decode_iff _ _).mp hdecode
      have hbytes : bytes.length = storeIdLen := by
        apply length_of_spells hspells
        rw [← not_not.mp hlen]
        exact byteLen_toAsciiUppercase label
      rw [dif_pos hbytes] at h
      cases h

theorem toAsciiUppercase_eq_iff {s t : Str} :
    toAsciiUppercase s = toAsciiUppercase t ↔ eqIgnoreAsciiCase s t = true := by
  rw [eqIgnoreAsciiCase, beq_iff_eq]
  constructor
  · intro h
    rw [← toAsciiLowercase_toAsciiUppercase s, h, toAsciiLowercase_toAsciiUppercase]
  · intro h
    rw [← toAsciiUppercase_toAsciiLowercase s, h, toAsciiUppercase_toAsciiLowercase]

/-- A label names an id exactly when it is the label of that id up to case. -/
theorem labelToStoreBytes_iff_eqIgnoreAsciiCase (hbase32 : codecs.StrictBase32)
    {label : Str} {id : Bytes32} :
    labelToStoreBytes codecs label = .ok id ↔
      eqIgnoreAsciiCase label (storeBytesToLabel codecs id) = true := by
  rw [labelToStoreBytes_eq_ok_iff hbase32, ← toAsciiUppercase_eq_iff]
  have hlabel := spells_storeBytesToLabel hbase32 id
  constructor
  · intro h
    exact utf8_injective (h.left_unique hlabel)
  · intro h
    rwa [h]

/-- Every character of a label is a small letter or one of the digits `2` to `7`. -/
theorem range_of_mem_storeBytesToLabel (hbase32 : codecs.StrictBase32) {id : Bytes32}
    {c : Char} (hc : c ∈ storeBytesToLabel codecs id) :
    (97 ≤ c.toNat ∧ c.toNat ≤ 122) ∨ (50 ≤ c.toNat ∧ c.toNat ≤ 55) := by
  obtain ⟨d, hd, rfl⟩ := List.mem_map.mp hc
  have hrange := range_of_mem_base32Encode hbase32 hd
  have hlower := toNat_toLower d
  split_ifs at hlower <;> omega

theorem length_storeBytesToLabel (hbase32 : codecs.StrictBase32) (id : Bytes32) :
    (storeBytesToLabel codecs id).length = labelLen := by
  have hlen := length_of_spells_storeBytes (spells_storeBytesToLabel hbase32 id)
  have hascii : ∀ c ∈ storeBytesToLabel codecs id, c.toNat < 128 := by
    intro c hc
    have := range_of_mem_storeBytesToLabel hbase32 hc
    omega
  rw [← byteLen_of_ascii hascii, ← byteLen_toAsciiUppercase]
  exact hlen

theorem labelToStoreBytes_storeBytesToLabel (hbase32 : codecs.StrictBase32) (id : Bytes32) :
    labelToStoreBytes codecs (storeBytesToLabel codecs id) = .ok id :=
  (labelToStoreBytes_eq_ok_iff hbase32).mpr (spells_storeBytesToLabel hbase32 id)

/-- Sixty-four hex digits have a label, and it reads back as their lower case. -/
theorem labelToStoreHex_of_storeHexToLabel (hbase32 : codecs.StrictBase32)
    (hhex : codecs.DocumentedHex) {h : Str} (hlen : h.length = storeIdLen * 2)
    (hdigits : ∀ c ∈ h, Hex.isAsciiHexdigit c = true) :
    ∃ label, storeHexToLabel codecs h = .ok label ∧
      labelToStoreHex codecs label = .ok (toAsciiLowercase h) := by
  obtain ⟨bytes, hdecode, hbytes⟩ :=
    Hex.exists_hexDecode (n := storeIdLen) (hlen.trans (Nat.mul_comm _ _)) hdigits
  have hbyteLen : byteLen h = storeIdLen * 2 := by
    rw [byteLen_of_ascii fun c hc => Hex.ascii_of_isAsciiHexdigit (hdigits c hc), hlen]
  refine ⟨storeBytesToLabel codecs ⟨bytes, hbytes⟩, ?_, ?_⟩
  · rw [storeHexToLabel, if_neg (not_not.mpr hbyteLen)]
    simp only [hhex.decode_eq, hdecode]
    rw [dif_pos hbytes]
  · rw [labelToStoreHex, labelToStoreBytes_storeBytesToLabel hbase32]
    simp only [hhex.encode_eq]
    rw [Hex.hexDecode_eq_some_iff.mp hdecode]

end Strict

/-! ## The codec as a whole -/

/-- The label codec is a bijection between the 32-byte ids and the strings
that are a label up to ASCII case, and the hex forms go through it. -/
theorem labelCodec_bijective (codecs : Codecs) (hbase32 : codecs.StrictBase32)
    (hhex : codecs.DocumentedHex) :
    (∀ id : Bytes32,
      (storeBytesToLabel codecs id).length = 52 ∧
      (∀ c ∈ storeBytesToLabel codecs id, ('a' ≤ c ∧ c ≤ 'z') ∨ ('2' ≤ c ∧ c ≤ '7')) ∧
      ∀ s, eqIgnoreAsciiCase s (storeBytesToLabel codecs id) = true →
        labelToStoreBytes codecs s = .ok id) ∧
    (∀ (s : Str) (id : Bytes32), labelToStoreBytes codecs s = .ok id ↔
      eqIgnoreAsciiCase s (storeBytesToLabel codecs id) = true) ∧
    (∀ (s t : Str) (id : Bytes32), labelToStoreBytes codecs s = .ok id →
      labelToStoreBytes codecs t = .ok id → eqIgnoreAsciiCase s t = true) ∧
    (∀ (s : Str) (n : Nat), labelToStoreBytes codecs s ≠ .error (.wrongDecodedLength n)) ∧
    (∀ h : Str, h.length = 64 → (∀ c ∈ h, Hex.isAsciiHexdigit c = true) →
      (storeHexToLabel codecs h >>= labelToStoreHex codecs) = .ok (toAsciiLowercase h)) := by
  refine ⟨fun id => ⟨length_storeBytesToLabel hbase32 id, ?_, ?_⟩, ?_, ?_, ?_, ?_⟩
  · intro c hc
    exact range_of_mem_storeBytesToLabel hbase32 hc
  · intro s hs
    exact (labelToStoreBytes_iff_eqIgnoreAsciiCase hbase32).mpr hs
  · intro s id
    exact labelToStoreBytes_iff_eqIgnoreAsciiCase hbase32
  · intro s t id hs ht
    rw [labelToStoreBytes_iff_eqIgnoreAsciiCase hbase32, eqIgnoreAsciiCase, beq_iff_eq] at hs ht
    rw [eqIgnoreAsciiCase, beq_iff_eq, hs, ht]
  · exact labelToStoreBytes_ne_wrongDecodedLength hbase32
  · intro h hlen hdigits
    obtain ⟨label, hlabel, hback⟩ := labelToStoreHex_of_storeHexToLabel hbase32 hhex hlen hdigits
    rw [hlabel]
    exact hback

/-- The codec at one id, with codecs that behave as documented. -/
theorem labelCodec_bijective_reference :
    let id : Bytes32 := ⟨List.replicate 32 17, rfl⟩
    (storeBytesToLabel Codecs.reference id).length = 52 ∧
      labelToStoreBytes Codecs.reference
        (toAsciiUppercase (storeBytesToLabel Codecs.reference id)) = .ok id := by
  have hcodec := labelCodec_bijective Codecs.reference Codecs.reference_strictBase32
    Codecs.reference_documentedHex
  exact ⟨(hcodec.1 _).1, (hcodec.1 _).2.2 _ (by simp [eqIgnoreAsciiCase])⟩

end DigDns
