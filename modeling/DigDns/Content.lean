import DigDns.Crates
import DigDns.Node

/-!
# The read path

`content.rs`: from a request path to a resource key, from a key to a retrieval
key, and the gate through which every served byte goes.  A ciphertext is
decrypted only after its proof led from its own leaf to the trusted root.
-/

namespace DigDns

open Rust

/-- Errors from the content read path. -/
inductive ContentError
  | invalidPath
  | badStoreId
  | badRoot
  | badProof
  | proofLeafMismatch
  | proofFoldMismatch
  | rootMismatch
  | chunkLenMismatch (got expected : Nat)
  | decrypt
deriving DecidableEq

/-- `Display` of a `ContentError`. -/
def ContentError.message : ContentError → Str
  | invalidPath => "invalid or traversing request path".toList
  | badStoreId => "store id is not valid hex".toList
  | badRoot => "trusted root is not valid hex".toList
  | badProof => "inclusion proof is not valid base64 or encoding".toList
  | proofLeafMismatch => "content does not match its inclusion proof (tampered ciphertext)".toList
  | proofFoldMismatch => "inclusion proof does not resolve to its declared root".toList
  | rootMismatch => "inclusion proof root does not match the trusted anchored root".toList
  | chunkLenMismatch got expected =>
      "ciphertext length ".toList ++ fmtNat got ++ " does not match chunk_lens sum ".toList ++
        fmtNat expected
  | decrypt => "decryption failed (decoy or wrong key)".toList

/-- `content_type_for` -/
def contentTypeFor (resourceKey : Str) : Str :=
  let filename := rsplitNext '/' resourceKey
  match rsplitOnce '.' filename with
  | none => "application/octet-stream".toList
  | some (_, e) =>
      let ext := toAsciiLowercase e
      let known : List (String × String) := [
        ("html", "text/html; charset=utf-8"), ("htm", "text/html; charset=utf-8"),
        ("js", "text/javascript; charset=utf-8"), ("mjs", "text/javascript; charset=utf-8"),
        ("css", "text/css; charset=utf-8"),
        ("json", "application/json"), ("map", "application/json"),
        ("txt", "text/plain; charset=utf-8"),
        ("xml", "application/xml"),
        ("wasm", "application/wasm"),
        ("png", "image/png"),
        ("jpg", "image/jpeg"), ("jpeg", "image/jpeg"),
        ("gif", "image/gif"),
        ("webp", "image/webp"),
        ("svg", "image/svg+xml"),
        ("ico", "image/x-icon"),
        ("woff2", "font/woff2"),
        ("woff", "font/woff")]
      match known.find? fun p => p.1.toList = ext with
      | some p => p.2.toList
      | none => "application/octet-stream".toList

/-- `is_extensionless` -/
def isExtensionless (path : Str) : Bool :=
  let last := rsplitNext '/' path
  !last.contains '.'

section Crates

variable (crates : Crates)

/-- `resource_key_for_path` -/
def resourceKeyForPath (path : Str) : Except ContentError Str :=
  let trimmed := (stripPrefix ['/'] path).getD path
  if trimmed = [] then .ok crates.core.defaultResourceKey
  else if trimmed.contains '\\' || (utf8 trimmed).any (· < 0x20) then .error .invalidPath
  else if (trimmed.splitOn '/').any fun c => c = ['.'] || c = ['.', '.'] then .error .invalidPath
  else .ok trimmed

/-- `canonical_urn` -/
def canonicalUrn (storeId : Bytes32) (resourceKey : Str) : Urn :=
  let key := if resourceKey = [] then crates.core.defaultResourceKey else resourceKey
  { chain := crates.core.chain, storeId, rootHash := none, resourceKey := some key }

/-- `retrieval_key_hex` -/
def retrievalKeyHex (storeHex resourceKey : Str) : Except ContentError Str :=
  match crates.core.bytes32FromHex storeHex with
  | none => .error .badStoreId
  | some storeId =>
      .ok (crates.core.bytes32ToHex
        (crates.core.retrievalKey (canonicalUrn crates storeId resourceKey)))

/-- The key under which the chunks of a resource are sealed. -/
def aesKey (storeId : Bytes32) (resourceKey : Str) : crates.core.Key :=
  crates.core.deriveDecryptionKey (crates.core.canonical (canonicalUrn crates storeId resourceKey))
    none

/-- The lengths of the chunks: no list means one chunk. -/
def chunkPlan (ciphertext : List UInt8) (chunkLens : List UInt64) : List Nat :=
  if chunkLens = [] then [ciphertext.length] else chunkLens.map UInt64.toNat

/-- The sum of a plan in `usize`, with `checked_add`. -/
def checkedTotal (got : Nat) : Nat → List Nat → Except ContentError Nat
  | total, [] => .ok total
  | total, len :: plan =>
      if total + len < 2 ^ 64 then checkedTotal got (total + len) plan
      else .error (.chunkLenMismatch got (2 ^ 64 - 1))

/-- The loop over the chunks of a ciphertext. -/
def decryptChunks (key : crates.core.Key) : List UInt8 → List Nat → List UInt8 →
    Except ContentError (List UInt8)
  | plaintext, [], _ => .ok plaintext
  | plaintext, len :: plan, rest =>
      match crates.core.decryptChunk key (rest.take len) with
      | none => .error .decrypt
      | some pt => decryptChunks key (plaintext ++ pt) plan (rest.drop len)

/-- The proof that a node sent along, if it can be read. -/
def decodeProof (inclusionProofB64 : Str) : Option crates.core.MerkleProof := do
  let proofBytes ← crates.codecs.base64Decode (utf8 (trim inclusionProofB64))
  crates.core.proofFromBytes proofBytes

/-- `verify_and_decrypt` -/
def verifyAndDecrypt (storeHex resourceKey : Str) (ciphertext : List UInt8)
    (inclusionProofB64 trustedRootHex : Str) (chunkLens : List UInt64) :
    Except ContentError (List UInt8) :=
  match crates.core.bytes32FromHex storeHex with
  | none => .error .badStoreId
  | some storeId =>
  match crates.core.bytes32FromHex trustedRootHex with
  | none => .error .badRoot
  | some trustedRoot =>
  match decodeProof crates inclusionProofB64 with
  | none => .error .badProof
  | some proof =>
  if crates.core.resourceLeaf ciphertext ≠ crates.core.leaf proof then .error .proofLeafMismatch
  else if !crates.core.verify proof then .error .proofFoldMismatch
  else if crates.core.root proof ≠ trustedRoot then .error .rootMismatch
  else do
    let plan := chunkPlan ciphertext chunkLens
    let total ← checkedTotal ciphertext.length 0 plan
    if total ≠ ciphertext.length then .error (.chunkLenMismatch ciphertext.length total)
    else decryptChunks crates (aesKey crates storeId resourceKey) [] plan ciphertext

end Crates

/-! ## What the gate lets through -/

section Gate

variable (crates : Crates)

/-- Cut a byte string into pieces of the given lengths. -/
def cutChunks : List Nat → List UInt8 → List (List UInt8)
  | [], _ => []
  | len :: plan, bytes => bytes.take len :: cutChunks plan (bytes.drop len)

/-- The chunks of a fetched ciphertext. -/
def FetchedContent.chunks (f : FetchedContent) : List (List UInt8) :=
  cutChunks (chunkPlan f.ciphertext f.chunkLens) f.ciphertext

/-- The checks before decryption: the ciphertext is the leaf of a proof that
folds to the trusted root, and the chunk lengths add up. -/
def PassesChecks (storeHex rootHex : Str) (f : FetchedContent) : Prop :=
  ∃ storeId trustedRoot proof,
    crates.core.bytes32FromHex storeHex = some storeId ∧
    crates.core.bytes32FromHex rootHex = some trustedRoot ∧
    decodeProof crates f.inclusionProofB64 = some proof ∧
    crates.core.resourceLeaf f.ciphertext = crates.core.leaf proof ∧
    crates.core.verify proof = true ∧
    crates.core.root proof = trustedRoot ∧
    (chunkPlan f.ciphertext f.chunkLens).sum = f.ciphertext.length ∧
    f.ciphertext.length < 2 ^ 64

/-- Every chunk opened under the key of a resource, if all of them open. -/
def openChunks (storeHex resourceKey : Str) (f : FetchedContent) : Option (List (List UInt8)) := do
  let storeId ← crates.core.bytes32FromHex storeHex
  f.chunks.mapM (crates.core.decryptChunk (aesKey crates storeId resourceKey))

/-- `verify_and_decrypt` on what the client fetched. -/
def verifyFetched (storeHex resourceKey rootHex : Str) (f : FetchedContent) :
    Except ContentError (List UInt8) :=
  verifyAndDecrypt crates storeHex resourceKey f.ciphertext f.inclusionProofB64 rootHex f.chunkLens

theorem flatten_cutChunks {plan : List Nat} {bytes : List UInt8} (h : plan.sum = bytes.length) :
    (cutChunks plan bytes).flatten = bytes := by
  induction plan generalizing bytes with
  | nil =>
      have : bytes.length = 0 := by simpa using h.symm
      simp [cutChunks, List.eq_nil_of_length_eq_zero this]
  | cons len plan ih =>
      rw [List.sum_cons] at h
      rw [cutChunks, List.flatten_cons, ih, List.take_append_drop]
      rw [List.length_drop]
      omega

theorem decryptChunks_eq (key : crates.core.Key) (plaintext : List UInt8) (plan : List Nat)
    (rest : List UInt8) :
    decryptChunks crates key plaintext plan rest =
      match (cutChunks plan rest).mapM (crates.core.decryptChunk key) with
      | some pts => .ok (plaintext ++ pts.flatten)
      | none => .error .decrypt := by
  induction plan generalizing plaintext rest with
  | nil => simp [decryptChunks, cutChunks]
  | cons len plan ih =>
      rw [decryptChunks, cutChunks, List.mapM_cons]
      cases crates.core.decryptChunk key (rest.take len) with
      | none => rfl
      | some pt =>
          simp only [ih]
          cases (cutChunks plan (rest.drop len)).mapM (crates.core.decryptChunk key) <;> simp

theorem checkedTotal_eq_ok {got total n : Nat} {plan : List Nat} (htotal : total < 2 ^ 64)
    (h : checkedTotal got total plan = .ok n) :
    n = total + plan.sum ∧ n < 2 ^ 64 := by
  induction plan generalizing total with
  | nil =>
      cases h
      simpa using htotal
  | cons len plan ih =>
      rw [checkedTotal] at h
      split_ifs at h with hlt
      obtain ⟨hn, hbound⟩ := ih hlt h
      rw [List.sum_cons]
      omega

theorem checkedTotal_of_sum_lt {got total : Nat} {plan : List Nat}
    (h : total + plan.sum < 2 ^ 64) :
    checkedTotal got total plan = .ok (total + plan.sum) := by
  induction plan generalizing total with
  | nil => simp [checkedTotal]
  | cons len plan ih =>
      rw [List.sum_cons] at h ⊢
      rw [checkedTotal, if_pos (by omega), ih (by omega)]
      congr 1
      omega

theorem checkedTotal_ne_decrypt (got total : Nat) (plan : List Nat) :
    checkedTotal got total plan ≠ .error .decrypt := by
  induction plan generalizing total with
  | nil => simp [checkedTotal]
  | cons len plan ih =>
      rw [checkedTotal]
      split_ifs
      · exact ih _
      · simp

/-- Past the checks, only decryption can fail. -/
theorem verifyFetched_of_passesChecks {storeHex rootHex : Str} {f : FetchedContent}
    (h : PassesChecks crates storeHex rootHex f) (resourceKey : Str) :
    verifyFetched crates storeHex resourceKey rootHex f =
      match openChunks crates storeHex resourceKey f with
      | some pts => .ok pts.flatten
      | none => .error .decrypt := by
  obtain ⟨storeId, trustedRoot, proof, hstore, hroot, hproof, hleaf, hfold, htrusted, hsum, hlt⟩ := h
  have htotal : checkedTotal f.ciphertext.length 0 (chunkPlan f.ciphertext f.chunkLens) =
      .ok f.ciphertext.length := by
    rw [checkedTotal_of_sum_lt (by omega), Nat.zero_add, hsum]
  simp only [verifyFetched, verifyAndDecrypt, openChunks, hstore, hroot, hproof, hleaf, hfold,
    htrusted, htotal, decryptChunks_eq, FetchedContent.chunks]
  simp [Bind.bind, Except.bind]

/-- What fails a check is refused, and not as a failed decryption. -/
theorem verifyFetched_of_not_passesChecks {storeHex rootHex : Str} {f : FetchedContent}
    (h : ¬ PassesChecks crates storeHex rootHex f) (resourceKey : Str) :
    ∃ e, verifyFetched crates storeHex resourceKey rootHex f = .error e ∧ e ≠ .decrypt := by
  simp only [verifyFetched, verifyAndDecrypt]
  cases hstore : crates.core.bytes32FromHex storeHex with
  | none => exact ⟨_, rfl, by decide⟩
  | some storeId =>
  cases hroot : crates.core.bytes32FromHex rootHex with
  | none => exact ⟨_, rfl, by decide⟩
  | some trustedRoot =>
  cases hproof : decodeProof crates f.inclusionProofB64 with
  | none => exact ⟨_, rfl, by decide⟩
  | some proof =>
  simp only
  by_cases hleaf : crates.core.resourceLeaf f.ciphertext = crates.core.leaf proof
  swap
  · exact ⟨_, if_pos hleaf, by decide⟩
  by_cases hfold : crates.core.verify proof = true
  swap
  · exact ⟨_, by rw [if_neg (not_not.mpr hleaf), if_pos (by simpa using hfold)], by decide⟩
  by_cases htrusted : crates.core.root proof = trustedRoot
  swap
  · exact ⟨_, by rw [if_neg (not_not.mpr hleaf), if_neg (by simpa using hfold),
      if_pos htrusted], by decide⟩
  rw [if_neg (not_not.mpr hleaf), if_neg (by simpa using hfold), if_neg (not_not.mpr htrusted)]
  cases htotal : checkedTotal f.ciphertext.length 0 (chunkPlan f.ciphertext f.chunkLens) with
  | error e =>
      refine ⟨e, rfl, ?_⟩
      rintro rfl
      exact checkedTotal_ne_decrypt _ _ _ htotal
  | ok n =>
      obtain ⟨hn, hlt⟩ := checkedTotal_eq_ok (by decide) htotal
      have hne : n ≠ f.ciphertext.length := by
        rintro rfl
        exact h ⟨storeId, trustedRoot, proof, hstore, hroot, hproof, hleaf, hfold, htrusted,
          by omega, hlt⟩
      exact ⟨_, if_pos hne, by simp⟩

theorem verifyFetched_eq_ok_iff {storeHex resourceKey rootHex : Str} {f : FetchedContent}
    {plaintext : List UInt8} :
    verifyFetched crates storeHex resourceKey rootHex f = .ok plaintext ↔
      PassesChecks crates storeHex rootHex f ∧
        ∃ pts, openChunks crates storeHex resourceKey f = some pts ∧ plaintext = pts.flatten := by
  by_cases h : PassesChecks crates storeHex rootHex f
  · rw [verifyFetched_of_passesChecks crates h]
    cases openChunks crates storeHex resourceKey f <;> simp [h, eq_comm]
  · obtain ⟨e, he, -⟩ := verifyFetched_of_not_passesChecks crates h resourceKey
    simp [he, h]

theorem verifyFetched_eq_decrypt_iff {storeHex resourceKey rootHex : Str} {f : FetchedContent} :
    verifyFetched crates storeHex resourceKey rootHex f = .error .decrypt ↔
      PassesChecks crates storeHex rootHex f ∧
        openChunks crates storeHex resourceKey f = none := by
  by_cases h : PassesChecks crates storeHex rootHex f
  · rw [verifyFetched_of_passesChecks crates h]
    cases openChunks crates storeHex resourceKey f <;> simp [h]
  · obtain ⟨e, he, hne⟩ := verifyFetched_of_not_passesChecks crates h resourceKey
    simp [he, h, hne]

end Gate

end DigDns
