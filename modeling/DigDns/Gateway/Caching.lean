import DigDns.Gateway.Integrity

/-!
# Immutable responses

A pinned response is marked immutable, so two of them at the same host and path
should carry the same body.  A hit is determined by the root; the index page
served in its place rests on the word of the node that there was no hit.
-/

namespace DigDns

open Rust Interaction

section Crates

variable (crates : Crates)

/-- A root that determines what each key opens: at most one ciphertext is
committed and opens under it, and it opens only when cut as it was sealed. -/
structure IdealStore (storeHex rootHex : Str) : Prop where
  ciphertext_eq {key : Str} {f f' : FetchedContent} {bytes bytes' : List UInt8}
    (h : verifyFetched crates storeHex key rootHex f = .ok bytes)
    (h' : verifyFetched crates storeHex key rootHex f' = .ok bytes') :
    f.ciphertext = f'.ciphertext
  chunks_eq {key : Str} {f f' : FetchedContent} {bytes bytes' : List UInt8}
    (h : verifyFetched crates storeHex key rootHex f = .ok bytes)
    (h' : verifyFetched crates storeHex key rootHex f' = .ok bytes')
    (hciphertext : f.ciphertext = f'.ciphertext) : f.chunks = f'.chunks

variable {storeHex rootHex : Str}

/-- In an ideal store a key opens to one plaintext. -/
theorem IdealStore.plaintext_eq (hideal : IdealStore crates storeHex rootHex) {key : Str}
    {f f' : FetchedContent} {bytes bytes' : List UInt8}
    (h : verifyFetched crates storeHex key rootHex f = .ok bytes)
    (h' : verifyFetched crates storeHex key rootHex f' = .ok bytes') : bytes = bytes' := by
  have hchunks := hideal.chunks_eq h h' (hideal.ciphertext_eq h h')
  obtain ⟨-, pts, hopen, rfl⟩ := (verifyFetched_eq_ok_iff crates).mp h
  obtain ⟨-, pts', hopen', rfl⟩ := (verifyFetched_eq_ok_iff crates).mp h'
  rw [openChunks, hchunks] at hopen
  rw [openChunks, hopen, Option.some.injEq] at hopen'
  rw [hopen']

/-- A success that a client may keep for good. -/
def IsImmutable (r : GatewayResponse) : Prop :=
  r.status = 200 ∧ ("cache-control".toList, immutable) ∈ r.headers

/-- Any two immutable responses to a request, from any two nodes, agree. -/
def ImmutableAgree (ctx : Ctx) (method : Str) (uri : Uri) (hostHeader : Option Str) : Prop :=
  ∀ node node' : NodeBehaviour,
    IsImmutable ((handle crates ctx method uri hostHeader none).run node).2 →
      IsImmutable ((handle crates ctx method uri hostHeader none).run node').2 →
        ((handle crates ctx method uri hostHeader none).run node).2.body =
          ((handle crates ctx method uri hostHeader none).run node').2.body

/-- Where a path may fall back, its resource and the index page do not open to
different plaintexts. -/
def FallbackAgrees (storeHex rootHex path : Str) : Prop :=
  ∀ key f f' bytes bytes', resourceKeyForPath crates path = .ok key →
    isExtensionless path = true →
      verifyFetched crates storeHex key rootHex f = .ok bytes →
        verifyFetched crates storeHex "index.html".toList rootHex f' = .ok bytes' →
          bytes = bytes'

/-! ## What a successful run serves -/

/-- The plaintexts that a path can be answered with. -/
def Servable (storeHex rootHex path : Str) (bytes : List UInt8) : Prop :=
  ∃ key servedKey f, resourceKeyForPath crates path = .ok key ∧
    (servedKey = key ∨ servedKey = "index.html".toList ∧ isExtensionless path = true) ∧
    verifyFetched crates storeHex servedKey rootHex f = .ok bytes

theorem servable_of_runs {path : Str} {range : Option Str} {t : List NodeEvent}
    {r : GatewayResponse}
    (h : Runs (serveStore crates (.pinned storeHex rootHex) path range) t r)
    (hok : r.status = 200) : Servable crates storeHex rootHex path r.body := by
  have hbody : ∀ {bytes : List UInt8}, CarriesBody r bytes → r.body = bytes := by
    rintro bytes (⟨-, hbody⟩ | ⟨h206, -⟩)
    · exact hbody
    · rw [hok] at h206
      exact absurd h206 (by decide)
  cases storeRun_of_runs crates h with
  | badPath _ h400 =>
      rw [hok] at h400
      exact absurd h400 (by decide)
  | pinned hkey hserve =>
      rcases hserve.servedFrom crates (Or.inl hok) with
        ⟨-, f, bytes, -, -, hverify, -, hcarries⟩ |
        ⟨⟨-, f, bytes, -, -, hverify, -, hcarries⟩, hpath, -⟩
      · exact ⟨_, _, f, hkey, Or.inl rfl, hbody hcarries ▸ hverify⟩
      · exact ⟨_, _, f, hkey, Or.inr ⟨rfl, hpath⟩, hbody hcarries ▸ hverify⟩

/-- Servable plaintexts are equal where the fallback agrees. -/
theorem IdealStore.servable_eq (hideal : IdealStore crates storeHex rootHex) {path : Str}
    (hfallback : FallbackAgrees crates storeHex rootHex path) {bytes bytes' : List UInt8}
    (h : Servable crates storeHex rootHex path bytes)
    (h' : Servable crates storeHex rootHex path bytes') : bytes = bytes' := by
  obtain ⟨key, servedKey, f, hkey, hserved, hverify⟩ := h
  obtain ⟨key', servedKey', f', hkey', hserved', hverify'⟩ := h'
  obtain rfl : key = key' := Except.ok.inj (hkey.symm.trans hkey')
  rcases hserved with rfl | ⟨rfl, hpath⟩
  · rcases hserved' with rfl | ⟨rfl, hpath'⟩
    · exact hideal.plaintext_eq crates hverify hverify'
    · exact hfallback _ f f' _ _ hkey hpath' hverify hverify'
  · rcases hserved' with rfl | ⟨rfl, -⟩
    · exact (hfallback _ f' f _ _ hkey hpath hverify' hverify).symm
    · exact hideal.plaintext_eq crates hverify hverify'

/-! ## Both fetches can be answered -/

theorem retrievalKeyHex_of_verifyFetched {key : Str} {f : FetchedContent} {bytes : List UInt8}
    (h : verifyFetched crates storeHex key rootHex f = .ok bytes) (key' : Str) :
    ∃ rk, retrievalKeyHex crates storeHex key' = .ok rk := by
  obtain ⟨⟨storeId, -, -, hstore, -⟩, -⟩ := (verifyFetched_eq_ok_iff crates).mp h
  exact ⟨_, by rw [retrievalKeyHex, hstore]⟩

theorem runs_serveFrom_hit {key path : Str} {pinned : Bool} {range : Option Str}
    {f : FetchedContent} {bytes : List UInt8}
    (h : verifyFetched crates storeHex key rootHex f = .ok bytes) :
    ∃ t, Runs (serveFrom crates storeHex rootHex pinned key path range) t
      (okBodyResponse key bytes range pinned) := by
  obtain ⟨rk, hrk⟩ := retrievalKeyHex_of_verifyFetched crates h key
  refine ⟨_, runs_bind_iff.mpr ⟨[contentEvent storeHex rk rootHex (.ok f)], .ok bytes, [], rfl,
    (runs_fetchAndDecrypt_iff crates).mpr (Or.inr ⟨rk, _, hrk, rfl, ?_⟩), .ret _⟩⟩
  exact ((judge_eq_ok_iff crates).mpr ⟨f, rfl, h⟩).symm

/-- A node may say that there is no such resource, and then have the index page. -/
theorem runs_serveFrom_index {key path : Str} {pinned : Bool} {range : Option Str}
    {f : FetchedContent} {bytes : List UInt8} (hpath : isExtensionless path = true)
    (h : verifyFetched crates storeHex "index.html".toList rootHex f = .ok bytes) :
    ∃ t, Runs (serveFrom crates storeHex rootHex pinned key path range) t
      (okBodyResponse "index.html".toList bytes none pinned) := by
  obtain ⟨rk, hrk⟩ := retrievalKeyHex_of_verifyFetched crates h key
  obtain ⟨rk', hrk'⟩ := retrievalKeyHex_of_verifyFetched crates h "index.html".toList
  have hmiss : Runs (fetchAndDecrypt crates storeHex key rootHex)
      [contentEvent storeHex rk rootHex (.error (.rpc (-32004) [] none))] .notFound :=
    (runs_fetchAndDecrypt_iff crates).mpr (Or.inr ⟨rk, _, hrk, rfl, rfl⟩)
  have hindex : Runs (fetchAndDecrypt crates storeHex "index.html".toList rootHex)
      [contentEvent storeHex rk' rootHex (.ok f)] (.ok bytes) :=
    (runs_fetchAndDecrypt_iff crates).mpr
      (Or.inr ⟨rk', _, hrk', rfl, ((judge_eq_ok_iff crates).mpr ⟨f, rfl, h⟩).symm⟩)
  have hspa : Runs (spaOr404 crates storeHex rootHex path pinned)
      [contentEvent storeHex rk' rootHex (.ok f)]
      (okBodyResponse "index.html".toList bytes none pinned) := by
    rw [spaOr404, hpath]
    exact runs_bind_iff.mpr ⟨_, _, [], rfl, hindex, .ret _⟩
  exact ⟨_, runs_bind_iff.mpr ⟨_, .notFound, _, rfl, hmiss, hspa⟩⟩

theorem isImmutable_okBodyResponse (key : Str) (bytes : List UInt8) :
    IsImmutable (okBodyResponse key bytes none true) :=
  ⟨rfl, by simp [okBodyResponse]⟩

/-- For a pinned host of an ideal store, immutable responses agree exactly where
the fallback does. -/
theorem handle_immutableAgree_iff (ctx : Ctx) (method : Str) (uri : Uri)
    (hostHeader : Option Str) (storeHex rootHex path : Str)
    (hideal : IdealStore crates storeHex rootHex)
    (hclass : classify crates.codecs uri hostHeader ctx.config.tld =
      .store (.pinned storeHex rootHex) path) :
    ImmutableAgree crates ctx method uri hostHeader ↔
      (isRead method = true → FallbackAgrees crates storeHex rootHex path) := by
  constructor
  · intro hagree hread key f f' bytes bytes' hkey hpath hverify hverify'
    have hserve : serveStore crates (.pinned storeHex rootHex) path none =
        serveFrom crates storeHex rootHex true key path none := by
      rw [serveStore, hkey]
    have hhandle : handle crates ctx method uri hostHeader none = _ :=
      (handle_eq_serveStore crates hread hclass).trans hserve
    -- One node has the resource; the other denies it, and has the index page.
    have hhit : ∃ t, Runs (serveFrom crates storeHex rootHex true key path none) t
        (okBodyResponse key bytes none true) := runs_serveFrom_hit crates hverify
    have hindex : ∃ t, Runs (serveFrom crates storeHex rootHex true key path none) t
        (okBodyResponse "index.html".toList bytes' none true) :=
      runs_serveFrom_index crates hpath hverify'
    obtain ⟨node, hnode⟩ := Prog.exists_run_of_runs hhit.choose_spec
    obtain ⟨node', hnode'⟩ := Prog.exists_run_of_runs hindex.choose_spec
    have hbody := hagree node node'
    rw [hhandle, hnode, hnode'] at hbody
    exact hbody (isImmutable_okBodyResponse _ _) (isImmutable_okBodyResponse _ _)
  · rintro hfallback node node' ⟨hok, -⟩ ⟨hok', -⟩
    have hrun := Prog.runs_run node (handle crates ctx method uri hostHeader none)
    have hrun' := Prog.runs_run node' (handle crates ctx method uri hostHeader none)
    cases hread : isRead method with
    | false =>
        obtain ⟨r, hhandle, h405⟩ := handle_eq_refusal crates hread hclass
        rw [hhandle] at hok
        have : r.status = 200 := hok
        rw [h405] at this
        exact absurd this (by decide)
    | true =>
        rw [handle_eq_serveStore crates hread hclass] at hrun hrun' hok hok' ⊢
        exact hideal.servable_eq crates (hfallback hread) (servable_of_runs crates hrun hok)
          (servable_of_runs crates hrun' hok')

end Crates

/-! ## A small store -/

/-- The one chunk that opens under a key in the small store. -/
def sampleChunk (key : Str) : List UInt8 := [if key = "a".toList then 1 else 2]

theorem sample_decryptChunk {storeId : Bytes32} {key : Str} {ct pt : List UInt8}
    (h : sampleCore.decryptChunk (aesKey sampleCrates storeId key) ct = some pt) :
    ct = sampleChunk key := by
  have hkey : aesKey sampleCrates storeId key = if key = [] then "index.html".toList else key :=
    rfl
  rw [hkey] at h
  simp only [sampleCore] at h
  rw [sampleChunk]
  by_cases ha : key = "a".toList
  · subst ha
    split_ifs at h <;> simp_all
  · split_ifs at h <;> simp_all

theorem sample_length {c : List UInt8} {proof : sampleCore.MerkleProof}
    (hleaf : sampleCore.resourceLeaf c = sampleCore.leaf proof)
    (hfold : sampleCore.verify proof = true) : c.length = 1 := by
  have hfill : ∀ {a b : UInt8}, fill a = fill b → a = b := fun h =>
    (List.cons.inj (congrArg Bytes32.bytes h)).1
  simp only [sampleCore] at hleaf hfold
  split_ifs at hleaf with h₁ h₂
  · rw [h₁]
    rfl
  · rw [h₂]
    rfl
  · rw [← hfill hleaf] at hfold
    exact absurd hfold (by decide)

theorem sample_chunks {storeHex rootHex key : Str} {f : FetchedContent} {bytes : List UInt8}
    (h : verifyFetched sampleCrates storeHex key rootHex f = .ok bytes) :
    f.chunks = [sampleChunk key] := by
  obtain ⟨⟨storeId, -, proof, hstore, -, -, hleaf, hfold, -, hsum, -⟩, pts, hopen, -⟩ :=
    (verifyFetched_eq_ok_iff sampleCrates).mp h
  have hlength : f.ciphertext.length = 1 := sample_length hleaf hfold
  rw [openChunks, hstore] at hopen
  have hchunk : ∀ chunk ∈ f.chunks, chunk = sampleChunk key := by
    intro chunk hmem
    obtain ⟨pt, hpt⟩ := exists_of_mapM_eq_some hopen hmem
    exact sample_decryptChunk hpt
  have hreplicate := List.eq_replicate_of_mem hchunk
  have hflatten : f.chunks.flatten = f.ciphertext := flatten_cutChunks hsum
  rw [hreplicate] at hflatten ⊢
  have hone := congrArg List.length hflatten
  have hcount : f.chunks.length = 1 := by simpa [hlength, sampleChunk] using hone
  rw [hcount]
  rfl

theorem sample_idealStore (storeHex rootHex : Str) :
    IdealStore sampleCrates storeHex rootHex where
  ciphertext_eq h h' := by
    obtain ⟨⟨-, -, -, -, -, -, -, -, -, hsum, -⟩, -⟩ := (verifyFetched_eq_ok_iff sampleCrates).mp h
    obtain ⟨⟨-, -, -, -, -, -, -, -, -, hsum', -⟩, -⟩ :=
      (verifyFetched_eq_ok_iff sampleCrates).mp h'
    rw [← flatten_cutChunks hsum, ← flatten_cutChunks hsum']
    exact congrArg List.flatten ((sample_chunks h).trans (sample_chunks h').symm)
  chunks_eq h h' _ := (sample_chunks h).trans (sample_chunks h').symm

/-- A node that denies the first resource it is asked for, and then has the
index page. -/
def denyingNode : NodeBehaviour
  | _, .baseUrl => []
  | _, .healthy => true
  | _, .getAnchoredRoot _ => .ok (fillHex 7)
  | [], .getContent _ _ _ => .error (.rpc (-32004) [] none)
  | _ :: _, .getContent _ _ _ => .ok contentIndex

/-- The host of root `7` of store `17`. -/
def samplePinnedHost : Str :=
  storeBytesToLabel Codecs.reference (fill 7) ++ '.' ::
    (storeBytesToLabel Codecs.reference (fill 17) ++ ".dig".toList)

theorem sample_classify {path : Str} (hpath : controlEndpointFor path = none) :
    classify sampleCrates.codecs ⟨none, none, path⟩ (some samplePinnedHost) sampleCtx.config.tld =
      .store (.pinned (fillHex 17) (fillHex 7)) path := by
  have hhost : parseDigHost Codecs.reference samplePinnedHost sampleCtx.config.tld =
      .ok (.pinned (fillHex 17) (fillHex 7)) := by decide +kernel
  simp only [classify, effectiveHost, Uri.isProxy, Option.isSome_none, Bool.and_self,
    Bool.false_and, Bool.false_eq_true, if_false, hpath, sampleCrates, hhost]

/-- `GET /a` at that host has two immutable bodies. -/
theorem handle_immutable_differ :
    IdealStore sampleCrates (fillHex 17) (fillHex 7) ∧
    classify sampleCrates.codecs ⟨none, none, "/a".toList⟩ (some samplePinnedHost)
      sampleCtx.config.tld = .store (.pinned (fillHex 17) (fillHex 7)) "/a".toList ∧
    ¬ ImmutableAgree sampleCrates sampleCtx "GET".toList ⟨none, none, "/a".toList⟩
      (some samplePinnedHost) := by
  have hclass := @sample_classify "/a".toList (by decide)
  refine ⟨sample_idealStore _ _, hclass, fun hagree => ?_⟩
  have hbody := hagree sampleNode denyingNode
  rw [handle_eq_serveStore sampleCrates (by decide) hclass] at hbody
  exact absurd (hbody ⟨by decide +kernel, by decide +kernel⟩ ⟨by decide +kernel, by decide +kernel⟩)
    (by decide +kernel)

/-- `GET /a.js` at that host has at most one. -/
theorem handle_immutableAgree_iff_asset :
    ImmutableAgree sampleCrates sampleCtx "GET".toList ⟨none, none, "/a.js".toList⟩
      (some samplePinnedHost) := by
  have hclass := @sample_classify "/a.js".toList (by decide)
  have hagree := handle_immutableAgree_iff sampleCrates sampleCtx "GET".toList
    ⟨none, none, "/a.js".toList⟩ (some samplePinnedHost) (fillHex 17) (fillHex 7) "/a.js".toList
    (sample_idealStore _ _) hclass
  exact hagree.mpr fun _ _ _ _ _ _ _ hpath _ _ => absurd hpath (by decide)

end DigDns
