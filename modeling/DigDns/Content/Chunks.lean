import DigDns.Gateway.Integrity

/-!
# The chunks of a ciphertext

The chunk lengths come from the node and nothing vouches for them.  The loop of
`verify_and_decrypt` is written here once more as the source indexes it, with the
running offset and slices that may lie outside the ciphertext; past the sum check
they never do.
-/

namespace DigDns

open Rust

/-- The bytes of a slice `from..to`. -/
def sliceOf (bytes : List UInt8) (span : Nat × Nat) : List UInt8 := (bytes.take span.2).drop span.1

/-- The slices of a plan, from an offset on: each starts where the one before it ends. -/
def spans : Nat → List Nat → List (Nat × Nat)
  | _, [] => []
  | p, len :: plan => (p, p + len) :: spans (p + len) plan

theorem sliceOf_add (bytes : List UInt8) (p len : Nat) :
    sliceOf bytes (p, p + len) = (bytes.drop p).take len := by
  rw [sliceOf, List.drop_take, Nat.add_sub_cancel_left]

theorem map_sliceOf_spans (bytes : List UInt8) (p : Nat) (plan : List Nat) :
    (spans p plan).map (sliceOf bytes) = cutChunks plan (bytes.drop p) := by
  induction plan generalizing p with
  | nil => rfl
  | cons len plan ih => rw [spans, List.map_cons, sliceOf_add, ih, cutChunks, List.drop_drop]

theorem bounds_of_mem_spans {p : Nat} {plan : List Nat} {span : Nat × Nat}
    (h : span ∈ spans p plan) : span.1 ≤ span.2 ∧ span.2 ≤ p + plan.sum := by
  induction plan generalizing p with
  | nil => cases h
  | cons len plan ih =>
      rw [List.sum_cons]
      rcases List.mem_cons.mp h with rfl | hrest
      · omega
      · have := ih hrest
        omega

section Crates

variable (crates : Crates)

/-! ## The loop as the source indexes it -/

/-- The loop over the chunks: the slices it took, and its result unless a slice lies outside
the ciphertext.  An offset that overflows `usize` lies outside too. -/
def decryptSlices (key : crates.core.Key) (ciphertext : List UInt8) :
    Nat → List UInt8 → List Nat →
      List (Nat × Nat) × Option (Except ContentError (List UInt8))
  | _, plaintext, [] => ([], some (.ok plaintext))
  | p, plaintext, len :: plan =>
      if p + len ≤ ciphertext.length then
        match crates.core.decryptChunk key (sliceOf ciphertext (p, p + len)) with
        | none => ([(p, p + len)], some (.error .decrypt))
        | some pt =>
            let rest := decryptSlices key ciphertext (p + len) (plaintext ++ pt) plan
            ((p, p + len) :: rest.1, rest.2)
      else ([], none)

/-- What follows the integrity gate: the plan, its sum and the loop. -/
def openSlices (key : crates.core.Key) (ciphertext : List UInt8) (chunkLens : List UInt64) :
    List (Nat × Nat) × Option (Except ContentError (List UInt8)) :=
  let plan := chunkPlan ciphertext chunkLens
  match checkedTotal ciphertext.length 0 plan with
  | .error e => ([], some (.error e))
  | .ok total =>
      if total ≠ ciphertext.length then
        ([], some (.error (.chunkLenMismatch ciphertext.length total)))
      else decryptSlices crates key ciphertext 0 [] plan

variable {crates} {key : crates.core.Key} {ciphertext : List UInt8} {chunkLens : List UInt64}

/-- In a plan that ends at the end of the ciphertext no slice lies outside. -/
theorem decryptSlices_result {p : Nat} {plan : List Nat} (plaintext : List UInt8)
    (h : p + plan.sum = ciphertext.length) :
    (decryptSlices crates key ciphertext p plaintext plan).2 =
      some (decryptChunks crates key plaintext plan (ciphertext.drop p)) := by
  induction plan generalizing p plaintext with
  | nil => rfl
  | cons len plan ih =>
      rw [List.sum_cons] at h
      rw [decryptSlices, decryptChunks, if_pos (by omega), sliceOf_add]
      cases crates.core.decryptChunk key ((ciphertext.drop p).take len) with
      | none => rfl
      | some pt =>
          simp only
          rw [ih _ (by omega), List.drop_drop]

theorem mapM_eq_none_of_mem {α β : Type} {f : α → Option β} {l : List α} {a : α} (ha : a ∈ l)
    (hnone : f a = none) : l.mapM f = none := by
  induction l with
  | nil => cases ha
  | cons b l ih =>
      rw [List.mapM_cons]
      rcases List.mem_cons.mp ha with rfl | hrest
      · rw [hnone]
        rfl
      · rw [ih hrest]
        cases f b <;> rfl

/-- The loop takes the slices of its plan in order. -/
theorem decryptSlices_prefix_spans (key : crates.core.Key) (ciphertext : List UInt8) (p : Nat)
    (plaintext : List UInt8) (plan : List Nat) :
    (decryptSlices crates key ciphertext p plaintext plan).1 <+: spans p plan := by
  induction plan generalizing p plaintext with
  | nil => exact List.prefix_rfl
  | cons len plan ih =>
      rw [decryptSlices, spans]
      by_cases hbound : p + len ≤ ciphertext.length
      · rw [if_pos hbound]
        cases crates.core.decryptChunk key (sliceOf ciphertext (p, p + len)) with
        | none => exact ⟨_, rfl⟩
        | some pt => exact List.prefix_cons_inj _ |>.mpr (ih _ _)
      · rw [if_neg hbound]
        exact List.nil_prefix

/-- It has taken all of them when it returns a plaintext. -/
theorem decryptSlices_of_ok {p : Nat} {plaintext bytes : List UInt8} {plan : List Nat}
    (h : (decryptSlices crates key ciphertext p plaintext plan).2 = some (.ok bytes)) :
    (decryptSlices crates key ciphertext p plaintext plan).1 = spans p plan := by
  induction plan generalizing p plaintext with
  | nil => rfl
  | cons len plan ih =>
      rw [decryptSlices] at h ⊢
      by_cases hbound : p + len ≤ ciphertext.length
      · rw [if_pos hbound] at h ⊢
        cases hopen : crates.core.decryptChunk key (sliceOf ciphertext (p, p + len)) with
        | none =>
            rw [hopen] at h
            cases h
        | some pt =>
            rw [hopen] at h
            exact congrArg (List.cons _) (ih h)
      · rw [if_neg hbound] at h
        cases h

theorem exists_of_checkedTotal_eq_error {got total : Nat} {plan : List Nat} {e : ContentError}
    (h : checkedTotal got total plan = .error e) :
    ∃ expected, e = .chunkLenMismatch got expected := by
  induction plan generalizing total with
  | nil => cases h
  | cons len plan ih =>
      rw [checkedTotal] at h
      split at h
      · exact ih h
      · cases h
        exact ⟨_, rfl⟩

/-- A plan is run when its lengths add up to the ciphertext. -/
theorem openSlices_of_sum (key : crates.core.Key) (hlen : ciphertext.length < UInt64.size)
    (hsum : (chunkPlan ciphertext chunkLens).sum = ciphertext.length) :
    openSlices crates key ciphertext chunkLens =
      decryptSlices crates key ciphertext 0 [] (chunkPlan ciphertext chunkLens) := by
  have hsize : UInt64.size = 2 ^ 64 := rfl
  have htotal : checkedTotal ciphertext.length 0 (chunkPlan ciphertext chunkLens) =
      .ok (0 + (chunkPlan ciphertext chunkLens).sum) := checkedTotal_of_sum_lt (by omega)
  rw [openSlices, htotal]
  simp only
  rw [if_neg (by omega)]

/-- It is refused when they do not, without a slice. -/
theorem openSlices_of_sum_ne (key : crates.core.Key)
    (hsum : (chunkPlan ciphertext chunkLens).sum ≠ ciphertext.length) :
    ∃ expected, openSlices crates key ciphertext chunkLens =
      ([], some (.error (.chunkLenMismatch ciphertext.length expected))) := by
  rw [openSlices]
  cases htotal : checkedTotal ciphertext.length 0 (chunkPlan ciphertext chunkLens) with
  | ok total =>
      have hne : total ≠ ciphertext.length := by
        have := (checkedTotal_eq_ok (by decide) htotal).1
        omega
      exact ⟨total, if_pos hne⟩
  | error e =>
      obtain ⟨expected, rfl⟩ := exists_of_checkedTotal_eq_error htotal
      exact ⟨expected, rfl⟩

/-! ## Behind the integrity gate -/

/-- The integrity gate lets a ciphertext of the store through. -/
def PassesGate (crates : Crates) (storeHex inclusionProofB64 trustedRootHex : Str)
    (ciphertext : List UInt8) (storeId : Bytes32) : Prop :=
  ∃ trustedRoot proof,
    crates.core.bytes32FromHex storeHex = some storeId ∧
    crates.core.bytes32FromHex trustedRootHex = some trustedRoot ∧
    decodeProof crates inclusionProofB64 = some proof ∧
    crates.core.resourceLeaf ciphertext = crates.core.leaf proof ∧
    crates.core.verify proof = true ∧
    crates.core.root proof = trustedRoot

variable {storeHex resourceKey inclusionProofB64 trustedRootHex : Str} {storeId : Bytes32}

/-- Behind the gate `verify_and_decrypt` is the indexed loop, which never panics. -/
theorem openSlices_result
    (hgate : PassesGate crates storeHex inclusionProofB64 trustedRootHex ciphertext storeId) :
    (openSlices crates (aesKey crates storeId resourceKey) ciphertext chunkLens).2 =
      some (verifyAndDecrypt crates storeHex resourceKey ciphertext inclusionProofB64
        trustedRootHex chunkLens) := by
  obtain ⟨trustedRoot, proof, hstore, hroot, hproof, hleaf, hfold, htrusted⟩ := hgate
  have hbehind : verifyAndDecrypt crates storeHex resourceKey ciphertext inclusionProofB64
      trustedRootHex chunkLens =
        checkedTotal ciphertext.length 0 (chunkPlan ciphertext chunkLens) >>= fun total =>
          if total ≠ ciphertext.length then .error (.chunkLenMismatch ciphertext.length total)
          else decryptChunks crates (aesKey crates storeId resourceKey) []
            (chunkPlan ciphertext chunkLens) ciphertext := by
    simp only [verifyAndDecrypt, hstore, hroot, hproof, hleaf, hfold, htrusted]
    simp
  rw [hbehind, openSlices]
  cases htotal : checkedTotal ciphertext.length 0 (chunkPlan ciphertext chunkLens) with
  | error e => rfl
  | ok total =>
      simp only [bind, Except.bind]
      by_cases hne : total ≠ ciphertext.length
      · rw [if_pos hne, if_pos hne]
      · rw [if_neg hne, if_neg hne]
        have hsum := (checkedTotal_eq_ok (by decide) htotal).1
        exact decryptSlices_result [] (by omega)

/-- With lengths that add up, the plaintext is that of all chunks, and one chunk that does not
open leaves none. -/
theorem verifyAndDecrypt_of_sum
    (hgate : PassesGate crates storeHex inclusionProofB64 trustedRootHex ciphertext storeId)
    (hlen : ciphertext.length < UInt64.size)
    (hsum : (chunkPlan ciphertext chunkLens).sum = ciphertext.length) :
    verifyAndDecrypt crates storeHex resourceKey ciphertext inclusionProofB64 trustedRootHex
        chunkLens =
      match (cutChunks (chunkPlan ciphertext chunkLens) ciphertext).mapM
        (crates.core.decryptChunk (aesKey crates storeId resourceKey)) with
      | some pts => .ok pts.flatten
      | none => .error .decrypt := by
  have hresult : (openSlices crates (aesKey crates storeId resourceKey) ciphertext chunkLens).2 =
      some (verifyAndDecrypt crates storeHex resourceKey ciphertext inclusionProofB64 trustedRootHex
        chunkLens) := openSlices_result hgate
  have hend : 0 + (chunkPlan ciphertext chunkLens).sum = ciphertext.length := by omega
  rw [openSlices_of_sum _ hlen hsum, decryptSlices_result _ hend, decryptChunks_eq] at hresult
  exact (Option.some.inj hresult).symm

/-! ## Encrypted chunks -/

theorem cutChunks_flatten (chunks : List (List UInt8)) :
    cutChunks (chunks.map List.length) chunks.flatten = chunks := by
  induction chunks with
  | nil => rfl
  | cons chunk chunks ih =>
      rw [List.map_cons, List.flatten_cons, cutChunks, List.take_left', List.drop_left', ih]
      · rfl
      · rfl

theorem length_le_of_mem {chunks : List (List UInt8)} {chunk : List UInt8} (h : chunk ∈ chunks) :
    chunk.length ≤ chunks.flatten.length := by
  obtain ⟨front, back, rfl⟩ := List.append_of_mem h
  rw [List.flatten_append, List.flatten_cons, List.length_append, List.length_append]
  omega

/-- The lengths of the chunks, as the node sends them, are their plan. -/
theorem chunkPlan_lengths {chunks : List (List UInt8)} (hne : chunks ≠ [])
    (hlen : chunks.flatten.length < UInt64.size) :
    chunkPlan chunks.flatten (chunks.map fun chunk => UInt64.ofNat chunk.length) =
      chunks.map List.length := by
  rw [chunkPlan, if_neg (by simpa using hne), List.map_map]
  apply List.map_congr_left
  intro chunk hchunk
  have hle := length_le_of_mem hchunk
  exact UInt64.toNat_ofNat_of_lt' (by omega)

theorem mapM_decrypt_encrypt {encryptChunk : crates.core.Key → List UInt8 → List UInt8}
    (hcrypt : ∀ key pt, crates.core.decryptChunk key (encryptChunk key pt) = some pt)
    (key : crates.core.Key) (plains : List (List UInt8)) :
    (plains.map (encryptChunk key)).mapM (crates.core.decryptChunk key) = some plains := by
  induction plains with
  | nil => rfl
  | cons plain plains ih =>
      rw [List.map_cons, List.mapM_cons, hcrypt, ih]
      rfl

/-- Chunked decryption inverts chunked encryption, and reads every ciphertext within bounds:
the slices tile it in order when the lengths add up, else none is taken. -/
theorem verifyAndDecrypt_chunks {encryptChunk : crates.core.Key → List UInt8 → List UInt8}
    (hcrypt : ∀ key pt, crates.core.decryptChunk key (encryptChunk key pt) = some pt)
    (storeHex resourceKey inclusionProofB64 trustedRootHex : Str) (storeId : Bytes32) :
    (∀ plains chunks : List (List UInt8), plains ≠ [] →
      chunks = plains.map (encryptChunk (aesKey crates storeId resourceKey)) →
      chunks.flatten.length < UInt64.size →
      PassesGate crates storeHex inclusionProofB64 trustedRootHex chunks.flatten storeId →
      verifyAndDecrypt crates storeHex resourceKey chunks.flatten inclusionProofB64 trustedRootHex
          (chunks.map fun chunk => UInt64.ofNat chunk.length) = .ok plains.flatten ∧
        (plains.length = 1 →
          verifyAndDecrypt crates storeHex resourceKey chunks.flatten inclusionProofB64
            trustedRootHex [] = .ok plains.flatten)) ∧
    ∀ (ciphertext : List UInt8) (chunkLens : List UInt64) (plan : List Nat) (result),
      ciphertext.length < UInt64.size →
      PassesGate crates storeHex inclusionProofB64 trustedRootHex ciphertext storeId →
      plan = chunkPlan ciphertext chunkLens →
      result = openSlices crates (aesKey crates storeId resourceKey) ciphertext chunkLens →
      result.2 = some (verifyAndDecrypt crates storeHex resourceKey ciphertext inclusionProofB64
        trustedRootHex chunkLens) ∧
      (plan.sum ≠ ciphertext.length → result.1 = [] ∧
        ∃ expected, result.2 = some (.error (.chunkLenMismatch ciphertext.length expected))) ∧
      (plan.sum = ciphertext.length →
        result.1 <+: spans 0 plan ∧
        (∀ span ∈ spans 0 plan, span.1 ≤ span.2 ∧ span.2 ≤ ciphertext.length) ∧
        ((spans 0 plan).map (sliceOf ciphertext)).flatten = ciphertext ∧
        (∀ bytes, result.2 = some (.ok bytes) → result.1 = spans 0 plan) ∧
        ((∃ span ∈ spans 0 plan, crates.core.decryptChunk (aesKey crates storeId resourceKey)
          (sliceOf ciphertext span) = none) → result.2 = some (.error .decrypt))) := by
  refine ⟨?_, ?_⟩
  · rintro plains chunks hne rfl hlen hgate
    have hchunks : plains.map (encryptChunk (aesKey crates storeId resourceKey)) ≠ [] := by
      simpa using hne
    have hopen := mapM_decrypt_encrypt hcrypt (aesKey crates storeId resourceKey) plains
    have hcount : (plains.map (encryptChunk (aesKey crates storeId resourceKey))).length =
        plains.length := List.length_map _
    generalize plains.map (encryptChunk (aesKey crates storeId resourceKey)) = chunks at *
    have hback : ∀ lens, chunkPlan chunks.flatten lens = chunks.map List.length →
        verifyAndDecrypt crates storeHex resourceKey chunks.flatten inclusionProofB64
          trustedRootHex lens = .ok plains.flatten := by
      intro lens hplan
      rw [verifyAndDecrypt_of_sum hgate hlen (by rw [hplan, List.length_flatten]), hplan,
        cutChunks_flatten, hopen]
    refine ⟨hback _ (chunkPlan_lengths hchunks hlen), fun hone => hback _ ?_⟩
    rw [← hcount, List.length_eq_one_iff] at hone
    obtain ⟨chunk, rfl⟩ := hone
    simp [chunkPlan]
  · rintro ciphertext chunkLens plan result hlen hgate rfl rfl
    refine ⟨openSlices_result hgate, fun hsum => ?_, fun hsum => ?_⟩
    · obtain ⟨expected, hrefused⟩ := openSlices_of_sum_ne
        (aesKey crates storeId resourceKey) hsum
      rw [hrefused]
      exact ⟨rfl, expected, rfl⟩
    · have hslices := map_sliceOf_spans ciphertext 0 (chunkPlan ciphertext chunkLens)
      rw [List.drop_zero] at hslices
      rw [openSlices_of_sum _ hlen hsum]
      refine ⟨decryptSlices_prefix_spans _ _ _ _ _, fun span hspan => ?_, ?_,
        fun bytes hok => decryptSlices_of_ok hok, ?_⟩
      · have hbounds := bounds_of_mem_spans hspan
        omega
      · rw [hslices, flatten_cutChunks hsum]
      · rintro ⟨span, hspan, hnone⟩
        rw [decryptSlices_result _ (by omega), List.drop_zero, decryptChunks_eq, ← hslices,
          mapM_eq_none_of_mem (List.mem_map_of_mem hspan) hnone]

end Crates

/-! ## A small store with tagged chunks -/

/-- A `digstore_core` whose sealed chunks end with a tag, and whose trees have one leaf. -/
def taggedCrates : Crates where
  codecs := Codecs.reference
  core := { sampleCore with
    resourceLeaf := fun c => fill (UInt8.ofNat c.length)
    verify := fun p => p.1 = p.2
    decryptChunk := fun _ ct => if ct.getLast? = some 0 then some ct.dropLast else none }
  jsonToVec _ := none

/-- Two chunks come back, and a length more is refused. -/
theorem verifyAndDecrypt_chunks_tagged :
    verifyAndDecrypt taggedCrates (fillHex 17) "a".toList [104, 105, 0, 33, 0] "BQU=".toList
        (fillHex 5) [3, 2] = .ok [104, 105, 33] ∧
      ∃ expected, (openSlices taggedCrates (aesKey taggedCrates (fill 17) "a".toList)
        [104, 105, 0, 33, 0] [3, 2, 1]).2 = some (.error (.chunkLenMismatch 5 expected)) := by
  have hcrypt : ∀ key pt, taggedCrates.core.decryptChunk key (pt ++ [0]) = some pt := by
    intro key pt
    simp [taggedCrates]
  have hgate : PassesGate taggedCrates (fillHex 17) "BQU=".toList (fillHex 5) [104, 105, 0, 33, 0]
      (fill 17) :=
    ⟨fill 5, (5, 5), by decide +kernel, by decide +kernel, by rfl, by decide +kernel, rfl, rfl⟩
  obtain ⟨hround, hany⟩ := verifyAndDecrypt_chunks hcrypt (fillHex 17) "a".toList "BQU=".toList
    (fillHex 5) (fill 17)
  obtain ⟨-, hrefused, -⟩ := hany [104, 105, 0, 33, 0] [3, 2, 1] _ _ (by decide) hgate rfl rfl
  exact ⟨(hround [[104, 105], [33]] _ (by simp) rfl (by decide) hgate).1,
    (hrefused (by decide)).2⟩

end DigDns
