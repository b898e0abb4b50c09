import DigDns.Support.Base32
import DigDns.Support.Base64
import DigDns.Support.Hex

/-!
# The encoding crates

`data_encoding`, `hex` and `base64` are third-party packages.  The model takes
the functions it calls as a parameter and states separately what their
documentation promises.  `Codecs.reference` is an implementation that keeps
these promises.
-/

namespace DigDns

open Rust

/-- The functions of the encoding crates that the program calls. -/
structure Codecs where
  /-- `data_encoding::BASE32_NOPAD.encode` -/
  base32Encode : List UInt8 → Str
  /-- `data_encoding::BASE32_NOPAD.decode` -/
  base32Decode : List UInt8 → Option (List UInt8)
  /-- `hex::encode` -/
  hexEncode : List UInt8 → Str
  /-- `hex::decode` -/
  hexDecode : Str → Option (List UInt8)
  /-- `base64::engine::general_purpose::STANDARD.decode` -/
  base64Decode : List UInt8 → Option (List UInt8)

namespace Codecs

/-- `BASE32_NOPAD` is strict RFC 4648: the encoder spells its input, and the
decoder rejects foreign symbols, impossible lengths and trailing bits that are
not zero. -/
structure StrictBase32 (codecs : Codecs) : Prop where
  encode_spells : ∀ bs, Rfc4648.Spells (utf8 (codecs.base32Encode bs)) bs
  decode_iff : ∀ s bs, codecs.base32Decode s = some bs ↔ Rfc4648.Spells s bs

/-- `hex` writes two lower-case digits a byte, and reads digits of either case
and nothing else. -/
structure DocumentedHex (codecs : Codecs) : Prop where
  encode_eq : ∀ bs, codecs.hexEncode bs = Hex.hexEncode bs
  decode_eq : ∀ s, codecs.hexDecode s = Hex.hexDecode s

/-- Codecs that behave as documented. -/
def reference : Codecs where
  base32Encode bs := (Rfc4648.base32Encode bs).map fun b => Char.ofNat b.toNat
  base32Decode := Rfc4648.base32Decode
  hexEncode := Hex.hexEncode
  hexDecode := Hex.hexDecode
  base64Decode := Rfc4648.base64Decode

theorem reference_strictBase32 : reference.StrictBase32 where
  encode_spells bs := by
    have hspells := Rfc4648.spells_base32Encode bs
    have hascii : ∀ b ∈ Rfc4648.base32Encode bs, b.toNat < 128 := fun b hb => by
      have := hspells.range_of_mem hb
      omega
    have hback := utf8_map_ofNat hascii
    simpa only [reference, hback] using hspells
  decode_iff _ _ := Rfc4648.base32Decode_eq_some_iff

theorem reference_documentedHex : reference.DocumentedHex where
  encode_eq _ := rfl
  decode_eq _ := rfl

end Codecs

end DigDns
