import DigDns.Label
import DigDns.Support.Json

/-!
# The crates behind the read path

`digstore_core` decides what a proof and a ciphertext are worth, and
`serde_json` prints the health report.  Both are third-party packages and enter
as parameters; nothing is assumed about them here.
-/

namespace DigDns

open Rust

/-- `digstore_core::Urn`. -/
structure Urn where
  chain : Str
  storeId : Bytes32
  rootHash : Option Bytes32
  resourceKey : Option Str

/-- The parts of `digstore_core` that the program calls. -/
structure DigstoreCore where
  /-- `CHAIN` -/
  chain : Str
  /-- `DEFAULT_RESOURCE_KEY` -/
  defaultResourceKey : Str
  /-- `Bytes32::from_hex` -/
  bytes32FromHex : Str → Option Bytes32
  /-- `Bytes32::to_hex` -/
  bytes32ToHex : Bytes32 → Str
  /-- `Urn::canonical` -/
  canonical : Urn → Str
  /-- `Urn::retrieval_key` -/
  retrievalKey : Urn → Bytes32
  /-- `resource_leaf` -/
  resourceLeaf : List UInt8 → Bytes32
  /-- `MerkleProof` -/
  MerkleProof : Type
  /-- `MerkleProof::from_bytes` -/
  proofFromBytes : List UInt8 → Option MerkleProof
  /-- `MerkleProof::leaf` -/
  leaf : MerkleProof → Bytes32
  /-- `MerkleProof::root` -/
  root : MerkleProof → Bytes32
  /-- `MerkleProof::verify`: the path folds from the leaf to the root. -/
  verify : MerkleProof → Bool
  /-- The key type of `derive_decryption_key`. -/
  Key : Type
  /-- `derive_decryption_key`, with an optional salt. -/
  deriveDecryptionKey : Str → Option (List UInt8) → Key
  /-- `decrypt_chunk` -/
  decryptChunk : Key → List UInt8 → Option (List UInt8)

/-- Everything the gateway takes from third-party packages. -/
structure Crates where
  codecs : Codecs
  core : DigstoreCore
  /-- `serde_json::to_vec` -/
  jsonToVec : Serde.Value → Option (List UInt8)

end DigDns
