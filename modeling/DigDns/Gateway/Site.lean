import DigDns.Content.Chunks

/-!
# A published site

A publisher cuts each resource of a site into chunks, seals them under the key of the
resource, and commits to the ciphertexts in a root.  From a node that has what was
published the gateway responds as the site itself would; a node that answers something
else can hide a resource, and nothing more.
-/

namespace DigDns

open Rust Interaction

/-- A site: the chunks of each of its resources. -/
abbrev Site := Str → Option (List (List UInt8))

namespace Site

/-- A resource as a whole. -/
def bytes (site : Site) (key : Str) : Option (List UInt8) := (site key).map List.flatten

/-- The response in place of a resource that the site does not have. -/
def page (site : Site) (path : Str) (pinned : Bool) : GatewayResponse :=
  if isExtensionless path then
    ((site.bytes "index.html".toList).map fun bytes =>
      okBodyResponse "index.html".toList bytes none pinned).getD (.text 404 "not found")
  else .text 404 "not found"

/-- The response of the site to a request for a resource. -/
def respond (site : Site) (key path : Str) (range : Option Str) (pinned : Bool) :
    GatewayResponse :=
  ((site.bytes key).map fun bytes => okBodyResponse key bytes range pinned).getD
    (site.page path pinned)

/-- What fetching a resource of the site should come to. -/
def outcome (site : Site) (key : Str) : Fetched :=
  ((site.bytes key).map Fetched.ok).getD .notFound

variable {site : Site} {key : Str} {bytes : List UInt8}

theorem respond_of_bytes (h : site.bytes key = some bytes) (path : Str) (range : Option Str)
    (pinned : Bool) :
    site.respond key path range pinned = okBodyResponse key bytes range pinned := by
  rw [respond, h]
  rfl

theorem page_of_bytes (h : site.bytes "index.html".toList = some bytes) {path : Str}
    (hpath : isExtensionless path = true) (pinned : Bool) :
    site.page path pinned = okBodyResponse "index.html".toList bytes none pinned := by
  rw [page, if_pos hpath, h]
  rfl

theorem bytes_eq_none_iff : site.bytes key = none ↔ site key = none :=
  Option.map_eq_none_iff

theorem outcome_eq_ok_iff : site.outcome key = .ok bytes ↔ site.bytes key = some bytes := by
  rw [outcome]
  cases site.bytes key with
  | none => simp
  | some b => simp

theorem outcome_eq_notFound_iff : site.outcome key = .notFound ↔ site.bytes key = none := by
  rw [outcome]
  cases site.bytes key with
  | none => simp
  | some b => simp

end Site

section Crates

variable (crates : Crates)

/-! ## The responses that the outcomes allow -/

/-- The responses to a request, where `Out` says what fetching a resource can come to. -/
inductive Responds (Out : Str → Fetched → Prop) (key path : Str) (range : Option Str)
    (pinned : Bool) : GatewayResponse → Prop
  | hit {bytes : List UInt8} (hfirst : Out key (.ok bytes)) :
      Responds Out key path range pinned (okBodyResponse key bytes range pinned)
  | gone (hfirst : Out key .notFound) (hpath : isExtensionless path = false) :
      Responds Out key path range pinned (.text 404 "not found")
  | index {bytes : List UInt8} (hfirst : Out key .notFound) (hpath : isExtensionless path = true)
      (hindex : Out "index.html".toList (.ok bytes)) :
      Responds Out key path range pinned (okBodyResponse "index.html".toList bytes none pinned)
  | noIndex (hfirst : Out key .notFound) (hpath : isExtensionless path = true)
      (hindex : Out "index.html".toList .notFound) :
      Responds Out key path range pinned (.text 404 "not found")
  | unreachable {k : Str} (hfetch : Out k .nodeUnreachable) :
      Responds Out key path range pinned (.text 502 "node unreachable")
  | integrity {k : Str} (hfetch : Out k .integrityFail) :
      Responds Out key path range pinned (.text 502 "content failed integrity verification")

variable {storeHex rootHex key path : Str} {range : Option Str} {pinned : Bool}
  {t : List NodeEvent} {r : GatewayResponse}

/-- A request is answered by what its fetches come to. -/
theorem responds_of_runs {Out : Str → Fetched → Prop}
    (h : Runs (serveFrom crates storeHex rootHex pinned key path range) t r)
    (hout : ∀ k s out, s ⊆ t → Runs (fetchAndDecrypt crates storeHex k rootHex) s out → Out k out) :
    Responds Out key path range pinned r := by
  obtain ⟨t₁, first, t₂, rfl, hfirst, hrest⟩ := runs_bind_iff.mp h
  have hfirst := hout key t₁ first (List.subset_append_left _ _) hfirst
  cases first with
  | ok bytes =>
      obtain ⟨-, rfl⟩ := runs_ret_iff.mp hrest
      exact .hit hfirst
  | nodeUnreachable =>
      obtain ⟨-, rfl⟩ := runs_ret_iff.mp hrest
      exact .unreachable hfirst
  | integrityFail =>
      obtain ⟨-, rfl⟩ := runs_ret_iff.mp hrest
      exact .integrity hfirst
  | notFound =>
      change Runs (spaOr404 crates storeHex rootHex path pinned) t₂ r at hrest
      rw [spaOr404] at hrest
      cases hpath : isExtensionless path with
      | false =>
          rw [hpath] at hrest
          obtain ⟨-, rfl⟩ := runs_ret_iff.mp hrest
          exact .gone hfirst hpath
      | true =>
          rw [hpath] at hrest
          obtain ⟨t₃, index, t₄, rfl, hindex, hlast⟩ := runs_bind_iff.mp hrest
          have hsub : t₃ ⊆ t₁ ++ (t₃ ++ t₄) := fun e he =>
            List.mem_append_right t₁ (List.mem_append_left t₄ he)
          have hindex := hout _ t₃ index hsub hindex
          cases index with
          | ok bytes =>
              obtain ⟨-, rfl⟩ := runs_ret_iff.mp hlast
              exact .index hfirst hpath hindex
          | notFound =>
              obtain ⟨-, rfl⟩ := runs_ret_iff.mp hlast
              exact .noIndex hfirst hpath hindex
          | nodeUnreachable =>
              obtain ⟨-, rfl⟩ := runs_ret_iff.mp hlast
              exact .unreachable hindex
          | integrityFail =>
              obtain ⟨-, rfl⟩ := runs_ret_iff.mp hlast
              exact .integrity hindex

/-- Where every fetch comes to what it should, the response is that of the site. -/
theorem Responds.eq_respond {site : Site}
    (h : Responds (fun k out => out = site.outcome k) key path range pinned r) :
    r = site.respond key path range pinned := by
  have hnone : ∀ {k}, Fetched.notFound = site.outcome k → site.bytes k = none := fun hk =>
    Site.outcome_eq_notFound_iff.mp hk.symm
  have hfails : ∀ {k out}, out = site.outcome k → out ≠ .nodeUnreachable ∧
      out ≠ .integrityFail := by
    rintro k _ rfl
    rw [Site.outcome]
    cases site.bytes k <;> exact ⟨by simp, by simp⟩
  cases h with
  | hit hfirst =>
      exact (Site.respond_of_bytes (Site.outcome_eq_ok_iff.mp hfirst.symm) path range pinned).symm
  | gone hfirst hpath =>
      rw [Site.respond, hnone hfirst, Site.page, hpath]
      rfl
  | index hfirst hpath hindex =>
      rw [Site.respond, hnone hfirst]
      exact (Site.page_of_bytes (Site.outcome_eq_ok_iff.mp hindex.symm) hpath pinned).symm
  | noIndex hfirst hpath hindex =>
      rw [Site.respond, hnone hfirst, Site.page, hpath, hnone hindex]
      rfl
  | unreachable hfetch => exact absurd rfl (hfails hfetch).1
  | integrity hfetch => exact absurd rfl (hfails hfetch).2

/-- Where a fetch may fail, but never comes to other bytes than the site has, the response is
that of the site, its index page, or an error. -/
theorem Responds.withholds {site : Site}
    (h : Responds (fun k out => ∀ bytes, out = .ok bytes → site.bytes k = some bytes) key path
      range pinned r) :
    r = site.respond key path range pinned ∨ r = site.page path pinned ∨
      r.status = 404 ∨ r.status = 502 := by
  cases h with
  | hit hfirst => exact Or.inl (Site.respond_of_bytes (hfirst _ rfl) path range pinned).symm
  | gone _ _ => exact Or.inr (Or.inr (Or.inl rfl))
  | index _ hpath hindex =>
      exact Or.inr (Or.inl (Site.page_of_bytes (hindex _ rfl) hpath pinned).symm)
  | noIndex _ _ _ => exact Or.inr (Or.inr (Or.inl rfl))
  | unreachable _ => exact Or.inr (Or.inr (Or.inr rfl))
  | integrity _ => exact Or.inr (Or.inr (Or.inr rfl))

/-- The target that names a store, and its root when it is pinned. -/
def siteTarget (storeHex rootHex : Str) (pinned : Bool) : HostTarget :=
  if pinned then .pinned storeHex rootHex else .latest storeHex

/-- The root commits a store to a site: a content that passes the checks opens, under the key
of a resource, to the resource of the site. -/
def Commits (storeHex rootHex : Str) (site : Site) : Prop :=
  ∀ key f pts, PassesChecks crates storeHex rootHex f →
    openChunks crates storeHex key f = some pts → site.bytes key = some pts.flatten

/-- Under a root that commits to a site, whatever the node answers, the response to a pinned
request is that of the site, its index page, or an error. -/
theorem Commits.withholds {site : Site} (h : Commits crates storeHex rootHex site)
    (hkey : resourceKeyForPath crates path = .ok key)
    (hruns : Runs (serveStore crates (.pinned storeHex rootHex) path range) t r) :
    r = site.respond key path range true ∨ r = site.page path true ∨
      r.status = 404 ∨ r.status = 502 := by
  rw [serveStore, hkey] at hruns
  refine (responds_of_runs crates hruns fun k s out _ hfetch bytes hout => ?_).withholds
  rcases (runs_fetchAndDecrypt_iff crates).mp hfetch with
    ⟨e, -, -, hfail⟩ | ⟨rk, answer, -, -, hjudge⟩
  · rw [hout] at hfail
    cases hfail
  · rw [hout] at hjudge
    obtain ⟨f, -, hverify⟩ := (judge_eq_ok_iff crates).mp hjudge.symm
    obtain ⟨hpasses, pts, hopen, rfl⟩ := (verifyFetched_eq_ok_iff crates).mp hverify
    exact h k f pts hpasses hopen

/-! ## Publishing -/

/-- How a site is published in a store, under a root: the seal of its chunks, and the proof
of each of its ciphertexts. -/
structure Publisher (storeHex rootHex : Str) (site : Site) where
  storeId : Bytes32
  root : Bytes32
  encryptChunk : crates.core.Key → List UInt8 → List UInt8
  proof : Str → Str
  reads_store : crates.core.bytes32FromHex storeHex = some storeId
  reads_root : crates.core.bytes32FromHex rootHex = some root
  nonempty : ∀ key chunks, site key = some chunks → chunks ≠ []
  opens : ∀ key chunks, site key = some chunks → ∀ chunk ∈ chunks,
    crates.core.decryptChunk (aesKey crates storeId key)
      (encryptChunk (aesKey crates storeId key) chunk) = some chunk
  fits : ∀ key chunks, site key = some chunks →
    (chunks.map (encryptChunk (aesKey crates storeId key))).flatten.length < UInt64.size
  proves : ∀ key chunks, site key = some chunks →
    ∃ path, decodeProof crates (proof key) = some path ∧
      crates.core.resourceLeaf (chunks.map (encryptChunk (aesKey crates storeId key))).flatten =
        crates.core.leaf path ∧
      crates.core.verify path = true ∧ crates.core.root path = root

variable {crates} {site : Site}

namespace Publisher

variable (p : Publisher crates storeHex rootHex site)

/-- The sealed chunks of a resource. -/
def sealed (key : Str) (chunks : List (List UInt8)) : List (List UInt8) :=
  chunks.map (p.encryptChunk (aesKey crates p.storeId key))

/-- A resource as a node has it. -/
def published (key : Str) (chunks : List (List UInt8)) : FetchedContent where
  ciphertext := (p.sealed key chunks).flatten
  rootHex := rootHex
  inclusionProofB64 := p.proof key
  chunkLens := (p.sealed key chunks).map fun chunk => UInt64.ofNat chunk.length

theorem mapM_decrypt_sealed {chunks : List (List UInt8)} (h : site key = some chunks) :
    (p.sealed key chunks).mapM (crates.core.decryptChunk (aesKey crates p.storeId key)) =
      some chunks := by
  have hopens := p.opens key chunks h
  rw [sealed]
  clear h
  induction chunks with
  | nil => rfl
  | cons chunk chunks ih =>
      obtain ⟨hchunk, hrest⟩ := List.forall_mem_cons.mp hopens
      rw [List.map_cons, List.mapM_cons, hchunk, ih hrest]
      rfl

/-- What was published passes the gate, and opens to the resource. -/
theorem verifyFetched_published {chunks : List (List UInt8)} (h : site key = some chunks) :
    verifyFetched crates storeHex key rootHex (p.published key chunks) = .ok chunks.flatten := by
  obtain ⟨path, hdecode, hleaf, hverify, hroot⟩ := p.proves key chunks h
  have hne : p.sealed key chunks ≠ [] := by
    simpa [sealed] using p.nonempty key chunks h
  have hfits : (p.sealed key chunks).flatten.length < UInt64.size := p.fits key chunks h
  have hplan : chunkPlan (p.published key chunks).ciphertext (p.published key chunks).chunkLens =
      (p.sealed key chunks).map List.length := chunkPlan_lengths hne hfits
  have hchunks : (p.published key chunks).chunks = p.sealed key chunks := by
    rw [FetchedContent.chunks, hplan]
    exact cutChunks_flatten _
  refine (verifyFetched_eq_ok_iff crates).mpr ⟨?_, chunks, ?_, rfl⟩
  · refine ⟨p.storeId, p.root, path, p.reads_store, p.reads_root, hdecode, hleaf, hverify, hroot,
      ?_, hfits⟩
    rw [hplan]
    exact List.length_flatten.symm
  · simp only [openChunks, p.reads_store, Option.bind_eq_bind, Option.bind_some, hchunks]
    exact p.mapM_decrypt_sealed h

/-- The node answers from what was published: with the root, with the content of a resource
that the site has, and with a miss of one that it has not. -/
structure Answers (t : List NodeEvent) : Prop where
  root : ∀ answer, rootEvent storeHex answer ∈ t → answer = .ok rootHex
  has : ∀ key chunks rk answer, site key = some chunks →
    retrievalKeyHex crates storeHex key = .ok rk →
    contentEvent storeHex rk rootHex answer ∈ t → answer = .ok (p.published key chunks)
  lacks : ∀ key rk answer, site key = none → retrievalKeyHex crates storeHex key = .ok rk →
    contentEvent storeHex rk rootHex answer ∈ t → IsMiss crates storeHex key rootHex answer

theorem Answers.mono {p : Publisher crates storeHex rootHex site} {s : List NodeEvent}
    (h : p.Answers t) (hsub : s ⊆ t) : p.Answers s where
  root answer hmem := h.root answer (hsub hmem)
  has key chunks rk answer hkey hrk hmem := h.has key chunks rk answer hkey hrk (hsub hmem)
  lacks key rk answer hkey hrk hmem := h.lacks key rk answer hkey hrk (hsub hmem)

/-- From such a node every fetch comes to what it should. -/
theorem Answers.outcome {p : Publisher crates storeHex rootHex site} {out : Fetched}
    (h : p.Answers t) (hruns : Runs (fetchAndDecrypt crates storeHex key rootHex) t out) :
    out = site.outcome key := by
  rcases (runs_fetchAndDecrypt_iff crates).mp hruns with
    ⟨e, hrk, -, -⟩ | ⟨rk, answer, hrk, rfl, rfl⟩
  · rw [retrievalKeyHex, p.reads_store] at hrk
    cases hrk
  cases hkey : site key with
  | some chunks =>
      have hbytes : site.bytes key = some chunks.flatten := by rw [Site.bytes, hkey]; rfl
      rw [Site.outcome_eq_ok_iff.mpr hbytes,
        h.has key chunks rk answer hkey hrk List.mem_cons_self]
      exact (judge_eq_ok_iff crates).mpr ⟨_, rfl, p.verifyFetched_published hkey⟩
  | none =>
      rw [Site.outcome_eq_notFound_iff.mpr (Site.bytes_eq_none_iff.mpr hkey)]
      exact (judge_eq_notFound_iff crates).mpr
        (h.lacks key rk answer hkey hrk List.mem_cons_self)

/-- From such a node the gateway responds as the site does. -/
theorem Answers.eq_respond {p : Publisher crates storeHex rootHex site} (h : p.Answers t)
    (hkey : resourceKeyForPath crates path = .ok key)
    (hruns : Runs (serveStore crates (siteTarget storeHex rootHex pinned) path range) t r) :
    r = site.respond key path range pinned := by
  have hserve : ∀ {s}, s ⊆ t →
      Runs (serveFrom crates storeHex rootHex pinned key path range) s r →
      r = site.respond key path range pinned := fun hsub hs =>
    (responds_of_runs crates hs fun k s' out hsub' hfetch =>
      ((h.mono hsub).mono hsub').outcome hfetch).eq_respond
  rw [serveStore, hkey] at hruns
  cases pinned with
  | false =>
      obtain ⟨answer, t', rfl, hrest⟩ := runs_ask_iff.mp hruns
      obtain rfl := h.root answer List.mem_cons_self
      exact hserve (List.subset_cons_self _ _) hrest
  | true => exact hserve (List.Subset.refl t) hruns

end Publisher

end Crates

end DigDns
