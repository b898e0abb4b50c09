import DigDns.Gateway.Runs

/-!
# Fail-closed serving

Whatever a node does, a `200` or `206` response to a store request carries
bytes that went through the gate in this request: they are decrypted from a
ciphertext that the trusted root commits to, under the key of the requested
resource or, after a miss, of the index page.
-/

namespace DigDns

open Rust Interaction

/-! ## Bodies -/

/-- The response carries a body whole, or the range that it announces. -/
def CarriesBody (r : GatewayResponse) (bytes : List UInt8) : Prop :=
  (r.status = 200 ∧ r.body = bytes) ∨
    (r.status = 206 ∧ ∃ start stop, start ≤ stop ∧ stop < bytes.length ∧
      ("content-range".toList, "bytes ".toList ++ fmtNat start ++
        '-' :: (fmtNat stop ++ '/' :: fmtNat bytes.length)) ∈ r.headers ∧
      r.body = (bytes.take (stop + 1)).drop start)

/-- A body response is whole, a range of the body, or an empty refusal. -/
theorem okBodyResponse_cases (resourceKey : Str) (bytes : List UInt8) (range : Option Str)
    (pinned : Bool) :
    CarriesBody (okBodyResponse resourceKey bytes range pinned) bytes ∨
      (okBodyResponse resourceKey bytes range pinned).status = 416 := by
  rw [okBodyResponse]
  cases range with
  | none => exact Or.inl (Or.inl ⟨rfl, rfl⟩)
  | some header =>
      simp only [Option.map_some]
      cases hrange : parseRange header bytes.length with
      | whole => exact Or.inl (Or.inl ⟨rfl, rfl⟩)
      | unsatisfiable => exact Or.inr rfl
      | satisfiable start stop =>
          obtain ⟨hle, hlt⟩ := bounds_of_parseRange hrange
          exact Or.inl (Or.inr ⟨rfl, start, stop, hle, hlt,
            List.mem_append_right _ (List.mem_singleton.mpr rfl), rfl⟩)

/-! ## Where a served body comes from -/

section Crates

variable (crates : Crates)

/-- The plaintext is what a committed ciphertext decrypts to: the ciphertext is
the leaf of a proof that folds to the root, and the plaintext is its chunks,
opened in order under the key of the resource. -/
def IsAuthentic (storeHex resourceKey rootHex : Str) (f : FetchedContent)
    (plaintext : List UInt8) : Prop :=
  ∃ storeId trustedRoot proof pts,
    crates.core.bytes32FromHex storeHex = some storeId ∧
    crates.core.bytes32FromHex rootHex = some trustedRoot ∧
    decodeProof crates f.inclusionProofB64 = some proof ∧
    crates.core.resourceLeaf f.ciphertext = crates.core.leaf proof ∧
    crates.core.verify proof = true ∧
    crates.core.root proof = trustedRoot ∧
    f.chunks.flatten = f.ciphertext ∧
    f.chunks.mapM (crates.core.decryptChunk (aesKey crates storeId resourceKey)) = some pts ∧
    plaintext = pts.flatten

theorem isAuthentic_of_verifyFetched {storeHex resourceKey rootHex : Str} {f : FetchedContent}
    {plaintext : List UInt8}
    (h : verifyFetched crates storeHex resourceKey rootHex f = .ok plaintext) :
    IsAuthentic crates storeHex resourceKey rootHex f plaintext := by
  obtain ⟨⟨storeId, trustedRoot, proof, hstore, hroot, hproof, hleaf, hfold, htrusted, hsum, -⟩,
    pts, hopen, rfl⟩ := (verifyFetched_eq_ok_iff crates).mp h
  simp only [openChunks, hstore, Option.bind_eq_bind, Option.bind_some] at hopen
  exact ⟨storeId, trustedRoot, proof, pts, hstore, hroot, hproof, hleaf, hfold, htrusted,
    flatten_cutChunks hsum, hopen, rfl⟩

/-- The body of a response was opened, in this request, from an answer of the
node to a fetch of `servedKey` at the trusted root. -/
def ServedFrom (storeHex rootHex servedKey : Str) (t : List NodeEvent) (r : GatewayResponse) :
    Prop :=
  ∃ rk f plaintext,
    retrievalKeyHex crates storeHex servedKey = .ok rk ∧
    contentEvent storeHex rk rootHex (.ok f) ∈ t ∧
    verifyFetched crates storeHex servedKey rootHex f = .ok plaintext ∧
    IsAuthentic crates storeHex servedKey rootHex f plaintext ∧
    CarriesBody r plaintext

/-- The fetch of a resource ended as a definite miss. -/
def Missed (storeHex rootHex resourceKey : Str) (t : List NodeEvent) : Prop :=
  ∃ rk answer, retrievalKeyHex crates storeHex resourceKey = .ok rk ∧
    contentEvent storeHex rk rootHex answer ∈ t ∧
    IsMiss crates storeHex resourceKey rootHex answer

variable {storeHex trustedRoot resourceKey path : Str} {pinned : Bool} {range : Option Str}
  {t : List NodeEvent} {r : GatewayResponse}

/-- A served body comes from the resource or, after a miss, the index page. -/
theorem ServeRun.servedFrom
    (h : ServeRun crates storeHex trustedRoot pinned resourceKey path range t r)
    (hok : r.status = 200 ∨ r.status = 206) :
    ServedFrom crates storeHex trustedRoot resourceKey t r ∨
      (ServedFrom crates storeHex trustedRoot "index.html".toList t r ∧
        isExtensionless path = true ∧ Missed crates storeHex trustedRoot resourceKey t) := by
  have hstatus : ∀ {n : UInt16}, r.status = n → n ≠ 200 → n ≠ 206 → False := by
    rintro n hn h₁ h₂
    rcases hok with h | h
    · exact h₁ (hn ▸ h)
    · exact h₂ (hn ▸ h)
  have hbody : ∀ {key : Str} {bytes : List UInt8} {range' : Option Str} {pinned' : Bool},
      r = okBodyResponse key bytes range' pinned' → CarriesBody r bytes := by
    rintro key bytes range' pinned' rfl
    rcases okBodyResponse_cases key bytes range' pinned' with hcarries | h416
    · exact hcarries
    · exact (hstatus h416 (by decide) (by decide)).elim
  cases h with
  | noKey _ hr => exact (hstatus hr (by decide) (by decide)).elim
  | failed _ _ hr => exact (hstatus hr (by decide) (by decide)).elim
  | miss _ _ _ hr => exact (hstatus hr (by decide) (by decide)).elim
  | hit hkey hfirst =>
      obtain ⟨f, rfl, hverify⟩ := (judge_eq_ok_iff crates).mp hfirst
      exact Or.inl ⟨_, f, _, hkey, List.mem_singleton.mpr rfl, hverify,
        isAuthentic_of_verifyFetched crates hverify, hbody rfl⟩
  | @index rk rk' answer answer' _ hkey hfirst hpath hindex hr =>
      have hmissed : Missed crates storeHex trustedRoot resourceKey
          [contentEvent storeHex rk trustedRoot answer,
            contentEvent storeHex rk' trustedRoot answer'] :=
        ⟨rk, answer, hkey, List.mem_cons_self, (judge_eq_notFound_iff crates).mp hfirst⟩
      cases hjudge : judge crates storeHex "index.html".toList trustedRoot answer' with
      | notFound =>
          rw [hjudge] at hr
          exact (hstatus hr (by decide) (by decide)).elim
      | nodeUnreachable =>
          rw [hjudge] at hr
          exact (hstatus hr (by decide) (by decide)).elim
      | integrityFail =>
          rw [hjudge] at hr
          exact (hstatus hr (by decide) (by decide)).elim
      | ok bytes =>
          rw [hjudge] at hr
          obtain ⟨f, rfl, hverify⟩ := (judge_eq_ok_iff crates).mp hjudge
          exact Or.inr ⟨⟨rk', f, bytes, hindex, by simp, hverify,
            isAuthentic_of_verifyFetched crates hverify, hbody hr⟩, hpath, hmissed⟩

/-- Every fetch names the store, the trusted root and one of the two keys. -/
theorem ServeRun.fetches
    (h : ServeRun crates storeHex trustedRoot pinned resourceKey path range t r)
    {event : NodeEvent} (hevent : event ∈ t) :
    ∃ rk answer, event = contentEvent storeHex rk trustedRoot answer ∧
      (retrievalKeyHex crates storeHex resourceKey = .ok rk ∨
        retrievalKeyHex crates storeHex "index.html".toList = .ok rk) := by
  cases h with
  | noKey => cases hevent
  | hit hkey => exact ⟨_, _, List.mem_singleton.mp hevent, Or.inl hkey⟩
  | failed hkey => exact ⟨_, _, List.mem_singleton.mp hevent, Or.inl hkey⟩
  | miss hkey => exact ⟨_, _, List.mem_singleton.mp hevent, Or.inl hkey⟩
  | index hkey _ _ hindex =>
      rcases List.mem_pair.mp hevent with rfl | rfl
      · exact ⟨_, _, rfl, Or.inl hkey⟩
      · exact ⟨_, _, rfl, Or.inr hindex⟩

/-- Fail-closed serving, against every behaviour of the node. -/
theorem handle_failClosed (node : NodeBehaviour) (ctx : Ctx) (method : Str) (uri : Uri)
    (hostHeader range : Option Str) (target : HostTarget) (path : Str)
    (hclass : classify crates.codecs uri hostHeader ctx.config.tld = .store target path)
    (hok : ((handle crates ctx method uri hostHeader range).run node).2.status = 200 ∨
      ((handle crates ctx method uri hostHeader range).run node).2.status = 206) :
    ∃ root key servedKey,
      IsTrustedRoot ((handle crates ctx method uri hostHeader range).run node).1 root target ∧
      resourceKeyForPath crates path = .ok key ∧
      ServedFrom crates target.storeHex root servedKey
        ((handle crates ctx method uri hostHeader range).run node).1
        ((handle crates ctx method uri hostHeader range).run node).2 ∧
      (servedKey = key ∨
        (servedKey = "index.html".toList ∧ isExtensionless path = true ∧
          Missed crates target.storeHex root key
            ((handle crates ctx method uri hostHeader range).run node).1)) ∧
      ∀ event ∈ contentEvents ((handle crates ctx method uri hostHeader range).run node).1,
        ∃ rk answer, event = contentEvent target.storeHex rk root answer ∧
          (retrievalKeyHex crates target.storeHex key = .ok rk ∨
            retrievalKeyHex crates target.storeHex "index.html".toList = .ok rk) := by
  have hrun := Prog.runs_run node (handle crates ctx method uri hostHeader range)
  generalize (handle crates ctx method uri hostHeader range).run node = out at hok hrun ⊢
  obtain ⟨t, r⟩ := out
  simp only at hok hrun ⊢
  cases hread : isRead method with
  | false =>
      obtain ⟨r', hhandle, hr'⟩ := handle_eq_refusal crates hread hclass
      rw [hhandle] at hrun
      obtain ⟨-, rfl⟩ := runs_ret_iff.mp hrun
      rw [hr'] at hok
      exact absurd hok (by decide)
  | true =>
      rw [handle_eq_serveStore crates hread hclass] at hrun
      rcases (storeRun_of_runs crates hrun).cases_serve with
        ⟨-, h400⟩ | ⟨e, -, hroot⟩ | ⟨root, key, pinned, htrusted, hkey, -, hserve⟩
      · rw [h400] at hok
        exact absurd hok (by decide)
      · rw [hroot] at hok
        split at hok <;> exact absurd hok (by decide)
      · have hmono : ∀ {event : NodeEvent}, event ∈ contentEvents t → event ∈ t :=
          fun h => List.mem_of_mem_filter h
        have hserved : ∀ {k : Str}, ServedFrom crates target.storeHex root k (contentEvents t) r →
            ServedFrom crates target.storeHex root k t r := by
          rintro k ⟨rk, f, plaintext, hrk, hmem, hrest⟩
          exact ⟨rk, f, plaintext, hrk, hmono hmem, hrest⟩
        have hfetches : ∀ event ∈ contentEvents t,
            ∃ rk answer, event = contentEvent target.storeHex rk root answer ∧
              (retrievalKeyHex crates target.storeHex key = .ok rk ∨
                retrievalKeyHex crates target.storeHex "index.html".toList = .ok rk) :=
          fun event hevent => hserve.fetches crates hevent
        rcases hserve.servedFrom crates hok with
          hfirst | ⟨hindex, hpath, rk, answer, hrk, hmem, hmiss⟩
        · exact ⟨root, key, key, htrusted, hkey, hserved hfirst, Or.inl rfl, hfetches⟩
        · exact ⟨root, key, _, htrusted, hkey, hserved hindex,
            Or.inr ⟨rfl, hpath, rk, answer, hrk, hmono hmem, hmiss⟩, hfetches⟩

end Crates

/-! ## A small store -/

/-- Thirty-two equal bytes. -/
def fill (b : UInt8) : Bytes32 := ⟨List.replicate 32 b, rfl⟩

/-- A `digstore_core` in which every root commits to two ciphertexts of one
byte: `1` opens as the resource `a`, and `2` as the index page. -/
def sampleCore : DigstoreCore where
  chain := "chia".toList
  defaultResourceKey := "index.html".toList
  bytes32FromHex s := do
    let bytes ← Hex.hexDecode s
    if h : bytes.length = storeIdLen then some ⟨bytes, h⟩ else none
  bytes32ToHex b := Hex.hexEncode b.bytes
  canonical urn := urn.resourceKey.getD []
  retrievalKey urn := fill (UInt8.ofNat (urn.resourceKey.getD []).length)
  resourceLeaf c := if c = [1] then fill 1 else if c = [2] then fill 2 else fill 0
  MerkleProof := UInt8 × UInt8
  proofFromBytes
    | [leaf, root] => some (leaf, root)
    | _ => none
  leaf p := fill p.1
  root p := fill p.2
  verify p := p.1 = 1 || p.1 = 2
  Key := Str
  deriveDecryptionKey urn _ := urn
  decryptChunk key ct :=
    if key = "a".toList ∧ ct = [1] then some [65]
    else if key = "index.html".toList ∧ ct = [2] then some [73]
    else none

def sampleCrates : Crates where
  codecs := Codecs.reference
  core := sampleCore
  jsonToVec _ := none

def sampleCtx : Ctx where
  config := Config.default
  boundPort := 80
  dnsActive := true
  uptimeSecs := 0

/-- The hex id of thirty-two equal bytes. -/
def fillHex (b : UInt8) : Str := Hex.hexEncode (fill b).bytes

/-- The content of the resource `a` and of the index page, at root `7`. -/
def contentA : FetchedContent := ⟨[1], fillHex 7, "AQc=".toList, []⟩

def contentIndex : FetchedContent := ⟨[2], fillHex 7, "Agc=".toList, []⟩

/-- A node that anchors the store at root `7` and has the resource `a`. -/
def sampleNode : NodeBehaviour
  | _, .baseUrl => []
  | _, .healthy => true
  | _, .getAnchoredRoot _ => .ok (fillHex 7)
  | _, .getContent _ _ _ => .ok contentA

/-- `GET /a` on the one-label host of store `17`. -/
theorem handle_failClosed_sample :
    ∃ root key servedKey, IsTrustedRoot
        ((handle sampleCrates sampleCtx "GET".toList ⟨none, none, "/a".toList⟩
          (some (storeBytesToLabel Codecs.reference (fill 17) ++ ".dig".toList)) none).run
            sampleNode).1 root (.latest (fillHex 17)) ∧
      resourceKeyForPath sampleCrates "/a".toList = .ok key ∧
      ServedFrom sampleCrates (fillHex 17) root servedKey
        ((handle sampleCrates sampleCtx "GET".toList ⟨none, none, "/a".toList⟩
          (some (storeBytesToLabel Codecs.reference (fill 17) ++ ".dig".toList)) none).run
            sampleNode).1
        ((handle sampleCrates sampleCtx "GET".toList ⟨none, none, "/a".toList⟩
          (some (storeBytesToLabel Codecs.reference (fill 17) ++ ".dig".toList)) none).run
            sampleNode).2 := by
  obtain ⟨root, key, servedKey, htrusted, hkey, hserved, -⟩ :=
    handle_failClosed sampleCrates sampleNode sampleCtx "GET".toList ⟨none, none, "/a".toList⟩
      (some (storeBytesToLabel Codecs.reference (fill 17) ++ ".dig".toList)) none
      (.latest (fillHex 17)) "/a".toList (by decide +kernel) (by decide +kernel)
  exact ⟨root, key, servedKey, htrusted, hkey, hserved⟩

end DigDns
