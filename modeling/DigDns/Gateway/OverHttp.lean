import DigDns.Gateway.Failure
import DigDns.Gateway.Site
import DigDns.Support.Layers
import DigDns.Transport.Lossless
import DigDns.Transport.Paging

/-!
# The gateway over the network

The client answers every call of the gateway with requests of its own, so a request to the
gateway is one program that talks to the network.  Over a network with a node that hosts a
site, it responds as the site does; over any network, a pinned request gets nothing that
was not published, and asks for nothing but that store at that root.
-/

namespace DigDns

open Rust Serde Interaction

namespace ReqwestNodeClient

/-- `impl NodeClient for ReqwestNodeClient`: the methods of a client that is bound to a base. -/
def asNodeClient (codecs : Codecs) (base : Str) : (q : NodeCall) → HttpProg (NodeAnswer q)
  | .baseUrl => .ret base
  | .healthy => probe base
  | .getAnchoredRoot storeHex => getAnchoredRoot base storeHex
  | .getContent storeHex retrievalKeyHex rootHex =>
      getContent codecs base storeHex retrievalKeyHex rootHex

/-! ## A node at any time -/

/-- The request for the root of a store. -/
def anchoredRootQuery (base storeHex : Str) : HttpCall :=
  .post (base ++ "/".toList) (rpcBody "dig.getAnchoredRoot".toList
    (buildAnchoredRootParams storeHex))

/-- Whenever it is asked, the node serves a resource in windows that reach its end. -/
structure Serves (codecs : Codecs) (base storeHex retrievalKeyHex : Str) (rootHex : Option Str)
    (res : Resource) (network : HttpBehaviour) : Prop where
  base64 : ∀ bytes, codecs.base64Decode (utf8 (res.encode bytes)) = some bytes
  fits : res.ciphertext.length < UInt64.size
  windows : ∃ size, IsHonest base storeHex retrievalKeyHex rootHex res network size ∧
    ∀ history, Suffices base storeHex retrievalKeyHex rootHex res network size maxContentWindows
      history 0

section Client

variable {codecs : Codecs} {base storeHex retrievalKeyHex : Str} {rootHex : Option Str}
  {res : Resource} {network : HttpBehaviour} {history : List HttpEvent}

theorem runFrom_getContent :
    ((getContent codecs base storeHex retrievalKeyHex rootHex).runFrom network history).2 =
      ((contentWindows base storeHex retrievalKeyHex rootHex [] 0).runFrom network history).2 >>=
        assembleWindows codecs := by
  have hout : (getContent codecs base storeHex retrievalKeyHex rootHex).runFrom network history =
      _ := Prog.runFrom_bind_ret network history _ _
  rw [hout]

theorem Serves.getContent
    (h : Serves codecs base storeHex retrievalKeyHex rootHex res network)
    (history : List HttpEvent) :
    ((getContent codecs base storeHex retrievalKeyHex rootHex).runFrom network history).2 =
      .ok res.fetched := by
  obtain ⟨size, hhonest, hsuffices⟩ := h.windows
  have hroom : ([] : List Value).length + maxContentWindows ≤ maxContentWindows :=
    (Nat.zero_add _).le
  obtain ⟨ws, hcovers, hrun⟩ :=
    exists_covers h.fits hhonest (Or.inr rfl) hroom (hsuffices history)
  have hloop : ((contentWindows base storeHex retrievalKeyHex rootHex [] 0).runFrom network
      history).2 = .ok ws := hrun
  rw [runFrom_getContent, hloop]
  exact assembleWindows_of_covers h.base64 hcovers

/-- An error in place of the first window is the error of the whole fetch. -/
theorem getContent_of_error {e : NodeError}
    (h : readResponse (network history
      (contentQuery base storeHex retrievalKeyHex rootHex 0)) = .error e) :
    ((getContent codecs base storeHex retrievalKeyHex rootHex).runFrom network history).2 =
      .error e := by
  have hask : ∀ f : Except NodeError Value → HttpProg (Except NodeError (List Value)),
      ((contentCall base storeHex retrievalKeyHex rootHex 0 >>= f).runFrom network history).2 =
        ((f (.error e)).runFrom network (history ++
          [⟨contentQuery base storeHex retrievalKeyHex rootHex 0, network history
            (contentQuery base storeHex retrievalKeyHex rootHex 0)⟩])).2 := by
    intro f
    rw [← h]
    rfl
  rw [runFrom_getContent, contentWindows, dif_neg (by decide), hask]
  rfl

theorem getAnchoredRoot_of_ok {result : Value} {root : Str}
    (h : readResponse (network history (anchoredRootQuery base storeHex)) = .ok result)
    (hroot : parseAnchoredRoot result = .ok root) :
    ((getAnchoredRoot base storeHex).runFrom network history).2 = .ok root := by
  have hrun : ((getAnchoredRoot base storeHex).runFrom network history).2 =
      (readResponse (network history (anchoredRootQuery base storeHex)) >>= parseAnchoredRoot) :=
    rfl
  rw [hrun, h]
  exact hroot

/-- Whatever the answers, a fetch asks for windows of one resource, and for no more of them
than the client takes. -/
theorem exists_pages_of_runs {t : List HttpEvent} {answer : Except NodeError FetchedContent}
    (h : Runs (getContent codecs base storeHex retrievalKeyHex rootHex) t answer) :
    ∃ pages : List Page, t = pages.map (Page.event base storeHex retrievalKeyHex rootHex) ∧
      pages.length ≤ maxContentWindows := by
  obtain ⟨t₁, windows, t₂, rfl, hloop, hrest⟩ := runs_bind_iff.mp h
  obtain ⟨rfl, -⟩ := runs_ret_iff.mp hrest
  obtain ⟨pages, rfl, -, hpages⟩ := pages_of_runs hloop
  have hlength := hpages.length_le (Nat.zero_le _)
  rw [List.length_nil, Nat.zero_add] at hlength
  exact ⟨pages, List.append_nil _, hlength⟩

end Client

end ReqwestNodeClient

open ReqwestNodeClient

section Crates

variable {crates : Crates} {storeHex rootHex base : Str} {site : Site} {network : HttpBehaviour}

/-! ## A node that hosts a site -/

/-- The node names the root of the store, serves every resource of the site as it was
published, and for any other key says that there is nothing, or serves a decoy: a content
of the store that does not open. -/
structure Hosts (p : Publisher crates storeHex rootHex site) (base : Str)
    (network : HttpBehaviour) : Prop where
  root : ∀ history, ∃ result,
    readResponse (network history (anchoredRootQuery base storeHex)) = .ok result ∧
      parseAnchoredRoot result = .ok rootHex
  has : ∀ key chunks rk, site key = some chunks → retrievalKeyHex crates storeHex key = .ok rk →
    ∃ res, res.fetched = p.published key chunks ∧
      Serves crates.codecs base storeHex rk (some rootHex) res network
  lacks : ∀ key rk, site key = none → retrievalKeyHex crates storeHex key = .ok rk →
    (∀ history, ∃ e, readResponse (network history
      (contentQuery base storeHex rk (some rootHex) 0)) = .error e ∧ e.isNotFound = true) ∨
    ∃ decoy, Serves crates.codecs base storeHex rk (some rootHex) decoy network ∧
      PassesChecks crates storeHex rootHex decoy.fetched ∧
      openChunks crates storeHex key decoy.fetched = none

/-- The client answers from what was published. -/
theorem Hosts.answers {p : Publisher crates storeHex rootHex site} (h : Hosts p base network)
    {t : List NodeEvent} (ht : ∀ e ∈ t, ∃ before,
      e.2 = ((asNodeClient crates.codecs base e.1).runFrom network before).2) : p.Answers t where
  root answer hmem := by
    obtain ⟨before, hanswer⟩ := ht _ hmem
    obtain ⟨result, hresult, hroot⟩ := h.root before
    exact hanswer.trans (getAnchoredRoot_of_ok hresult hroot)
  has key chunks rk answer hkey hrk hmem := by
    obtain ⟨before, hanswer⟩ := ht _ hmem
    obtain ⟨res, hres, hserves⟩ := h.has key chunks rk hkey hrk
    rw [← hres]
    exact hanswer.trans (hserves.getContent before)
  lacks key rk answer hkey hrk hmem := by
    obtain ⟨before, hanswer⟩ := ht _ hmem
    rcases h.lacks key rk hkey hrk with hnone | ⟨decoy, hserves, hpasses, hopen⟩
    · obtain ⟨e, he, hmiss⟩ := hnone before
      exact Or.inl ⟨e, hanswer.trans (getContent_of_error he), hmiss⟩
    · exact Or.inr ⟨decoy.fetched, hanswer.trans (hserves.getContent before), hpasses, hopen⟩

variable {path key : Str} (ctx : Ctx) (method : Str) (uri : Uri) (hostHeader range : Option Str)

/-- The gateway responds as the site does. -/
theorem Hosts.eq_respond {p : Publisher crates storeHex rootHex site} (h : Hosts p base network)
    {pinned : Bool} (hread : isRead method = true)
    (hclass : classify crates.codecs uri hostHeader ctx.config.tld =
      .store (siteTarget storeHex rootHex pinned) path)
    (hkey : resourceKeyForPath crates path = .ok key) (history : List HttpEvent) :
    (((handle crates ctx method uri hostHeader range).interpret
      (asNodeClient crates.codecs base)).runFrom network history).2 =
        site.respond key path range pinned := by
  obtain ⟨t, hruns, -, hanswers⟩ := exists_runs_interpret network history
    (handle crates ctx method uri hostHeader range)
  rw [handle_eq_serveStore crates hread hclass] at hruns ⊢
  exact (h.answers hanswers).eq_respond hkey hruns

end Crates

/-! ## A small site -/

/-- The resource `a` and the index page, which the empty key names too, in one chunk each. -/
def sampleSite : Site := fun key =>
  if key = "a".toList then some [[65]]
  else if key = [] ∨ key = "index.html".toList then some [[73]]
  else none

theorem sampleSite_cases {key : Str} {chunks : List (List UInt8)}
    (h : sampleSite key = some chunks) :
    (key = "a".toList ∧ chunks = [[65]]) ∨
      ((key = [] ∨ key = "index.html".toList) ∧ chunks = [[73]]) := by
  rw [sampleSite] at h
  split_ifs at h with ha hindex
  · exact Or.inl ⟨ha, (Option.some.inj h).symm⟩
  · exact Or.inr ⟨hindex, (Option.some.inj h).symm⟩

/-- The seal of `sampleCore`. -/
def sampleEncrypt (key : Str) (_ : List UInt8) : List UInt8 :=
  if key = "a".toList then [1] else [2]

/-- The proofs of `contentA` and of `contentIndex`. -/
def sampleProof (key : Str) : Str :=
  if key = "a".toList then "AQc=".toList else "Agc=".toList

theorem samplePublisher_nonempty (key : Str) (chunks : List (List UInt8))
    (h : sampleSite key = some chunks) : chunks ≠ [] := by
  rcases sampleSite_cases h with ⟨-, rfl⟩ | ⟨-, rfl⟩ <;> simp

theorem samplePublisher_opens (key : Str) (chunks : List (List UInt8))
    (h : sampleSite key = some chunks) : ∀ chunk ∈ chunks,
      sampleCore.decryptChunk (aesKey sampleCrates (fill 17) key)
        (sampleEncrypt (aesKey sampleCrates (fill 17) key) chunk) = some chunk := by
  rcases sampleSite_cases h with ⟨rfl, rfl⟩ | ⟨rfl | rfl, rfl⟩ <;> decide +kernel

theorem samplePublisher_fits (key : Str) (chunks : List (List UInt8))
    (h : sampleSite key = some chunks) :
    (chunks.map (sampleEncrypt (aesKey sampleCrates (fill 17) key))).flatten.length <
      UInt64.size := by
  rcases sampleSite_cases h with ⟨rfl, rfl⟩ | ⟨rfl | rfl, rfl⟩ <;> decide +kernel

theorem samplePublisher_proves (key : Str) (chunks : List (List UInt8))
    (h : sampleSite key = some chunks) :
    ∃ path, decodeProof sampleCrates (sampleProof key) = some path ∧
      sampleCore.resourceLeaf (chunks.map (sampleEncrypt
        (aesKey sampleCrates (fill 17) key))).flatten = sampleCore.leaf path ∧
      sampleCore.verify path = true ∧ sampleCore.root path = fill 7 := by
  rcases sampleSite_cases h with ⟨rfl, rfl⟩ | ⟨rfl | rfl, rfl⟩
  · exact ⟨(1, 7), by rfl, by decide +kernel, rfl, rfl⟩
  · exact ⟨(2, 7), by rfl, by decide +kernel, rfl, rfl⟩
  · exact ⟨(2, 7), by rfl, by decide +kernel, rfl, rfl⟩

theorem samplePublisher_store :
    sampleCrates.core.bytes32FromHex (fillHex 17) = some (fill 17) := by decide +kernel

theorem samplePublisher_root :
    sampleCrates.core.bytes32FromHex (fillHex 7) = some (fill 7) := by decide +kernel

def samplePublisher : Publisher sampleCrates (fillHex 17) (fillHex 7) sampleSite where
  storeId := fill 17
  root := fill 7
  encryptChunk := sampleEncrypt
  proof := sampleProof
  reads_store := samplePublisher_store
  reads_root := samplePublisher_root
  nonempty := samplePublisher_nonempty
  opens := samplePublisher_opens
  fits := samplePublisher_fits
  proves := samplePublisher_proves

/-- A resource of one byte, as a node holds it. -/
def sampleResource (ciphertext : List UInt8) (proof : Str) : Resource where
  ciphertext
  proof
  chunkLens := [1]
  root := fillHex 7
  encode bytes := (Rfc4648.base64Encode bytes).map fun b => Char.ofNat b.toNat

/-- The node finds the two resources by the lengths of their keys. -/
def sampleResourceAt (rk : Str) : Option Resource :=
  if rk = fillHex 1 then some (sampleResource [1] "AQc=".toList)
  else if rk = fillHex 10 then some (sampleResource [2] "Agc=".toList)
  else none

/-- The retrieval key that a request names. -/
def requestedKey (body : Value) : Option Str :=
  ((body.get "params".toList).bind (Value.get "retrieval_key".toList)).bind Value.asStr

/-- An answer with a JSON body. -/
def jsonAnswer (value : Value) : Except Str HttpResponse :=
  .ok { status := 200, statusText := "200 OK".toList, json := .ok value }

/-- A network with such a node: other keys of the two lengths get a decoy, and keys of other
lengths an error. -/
def sampleNetwork : HttpBehaviour
  | _, .get _ => false
  | history, .post url body =>
      (requestedKey body).elim
        (jsonAnswer (.object [("result".toList, .object [("root".toList,
          .string (fillHex 7))])]))
        fun rk => (sampleResourceAt rk).elim
          (jsonAnswer (.object [("error".toList, .object [("code".toList, .number (-32004))])]))
          fun res => serve res (fun _ => 1) history (.post url body)

variable {base rk : Str}

theorem sampleNetwork_eq_serve {res : Resource} (h : sampleResourceAt rk = some res)
    (history : List HttpEvent) (offset : Nat) :
    sampleNetwork history (contentQuery base (fillHex 17) rk (some (fillHex 7)) offset) =
      serve res (fun _ => 1) history
        (contentQuery base (fillHex 17) rk (some (fillHex 7)) offset) := by
  have hanswer : sampleNetwork history
      (contentQuery base (fillHex 17) rk (some (fillHex 7)) offset) =
        (sampleResourceAt rk).elim
          (jsonAnswer (.object [("error".toList, .object [("code".toList, .number (-32004))])]))
          fun res => serve res (fun _ => 1) history
            (contentQuery base (fillHex 17) rk (some (fillHex 7)) offset) := rfl
  rw [hanswer, h]
  rfl

theorem sampleResourceAt_cases {res : Resource} (h : sampleResourceAt rk = some res) :
    res = sampleResource [1] "AQc=".toList ∨ res = sampleResource [2] "Agc=".toList := by
  rw [sampleResourceAt] at h
  split_ifs at h
  · exact Or.inl (Option.some.inj h).symm
  · exact Or.inr (Option.some.inj h).symm

/-- The node serves what it finds. -/
theorem serves_sampleNetwork (base : Str) {res : Resource} (h : sampleResourceAt rk = some res) :
    Serves Codecs.reference base (fillHex 17) rk (some (fillHex 7)) res sampleNetwork := by
  have hone : res.ciphertext.length = 1 := by
    rcases sampleResourceAt_cases h with rfl | rfl <;> rfl
  have hencode : ∀ bytes, res.encode bytes =
      (Rfc4648.base64Encode bytes).map fun b => Char.ofNat b.toNat := by
    rcases sampleResourceAt_cases h with rfl | rfl <;> exact fun _ => rfl
  have hfits : res.ciphertext.length < UInt64.size := by
    rw [hone]
    decide
  have hsize : ∀ offset, (offset < res.ciphertext.length ∨ offset = 0) →
      (1 ≤ 1 ∨ res.ciphertext = []) ∧ offset + 1 ≤ res.ciphertext.length := fun offset hoffset =>
    ⟨Or.inl le_rfl, by omega⟩
  refine ⟨fun bytes => ?_, hfits, fun _ _ => 1, fun history offset hoffset => ?_,
    fun history => ?_⟩
  · rw [hencode, utf8_map_ofNat (Rfc4648.ascii_base64Encode bytes)]
    exact Rfc4648.base64Decode_base64Encode bytes
  · rw [sampleNetwork_eq_serve h]
    exact isHonest_serve base (fillHex 17) rk (some (fillHex 7)) hfits hsize history offset hoffset
  · have hsuffices : ∀ count, Suffices base (fillHex 17) rk (some (fillHex 7)) res sampleNetwork
        (fun _ _ => 1) (count + 1) history 0 := fun _ => Or.inl hone.symm
    exact hsuffices 99999

/-- A key that the site does not have opens neither of the two ciphertexts. -/
theorem openChunks_sampleDecoy {key : Str} {ciphertext : List UInt8} (hkey : sampleSite key = none)
    (hone : ciphertext = [1] ∨ ciphertext = [2]) (proof : Str) :
    openChunks sampleCrates (fillHex 17) key (sampleResource ciphertext proof).fetched = none := by
  have hother : key ≠ "a".toList ∧ ¬(key = [] ∨ key = "index.html".toList) := by
    rw [sampleSite] at hkey
    split_ifs at hkey with ha hindex
    exact ⟨ha, hindex⟩
  obtain ⟨ha, hrest⟩ := hother
  obtain ⟨hempty, hindex⟩ := not_or.mp hrest
  have haes : aesKey sampleCrates (fill 17) key = key := if_neg hempty
  have hchunks : (sampleResource ciphertext proof).fetched.chunks = [ciphertext] := by
    rcases hone with rfl | rfl <;> rfl
  have hdecrypt : sampleCore.decryptChunk key ciphertext = none := by
    change (if key = "a".toList ∧ ciphertext = [1] then some [65]
      else if key = "index.html".toList ∧ ciphertext = [2] then some [73] else none) = none
    rw [if_neg fun h => ha h.1, if_neg fun h => hindex h.1]
  have hopen : sampleCrates.core.decryptChunk (aesKey sampleCrates (fill 17) key) ciphertext =
      none := by
    rw [haes]
    exact hdecrypt
  simp only [openChunks, samplePublisher_store, hchunks, Option.bind_eq_bind, Option.bind_some,
    List.mapM_cons, hopen, Option.bind_none]

theorem hosts_sampleNetwork (base : Str) : Hosts samplePublisher base sampleNetwork where
  root history := ⟨.object [("root".toList, .string (fillHex 7))], rfl, by decide +kernel⟩
  has key chunks rk hkey hrk := by
    have hfind : ∀ {res}, sampleResourceAt rk = some res →
        res.fetched = samplePublisher.published key chunks →
        ∃ res, res.fetched = samplePublisher.published key chunks ∧
          Serves Codecs.reference base (fillHex 17) rk (some (fillHex 7)) res sampleNetwork :=
      fun h hsame => ⟨_, hsame, serves_sampleNetwork base h⟩
    rcases sampleSite_cases hkey with ⟨rfl, rfl⟩ | ⟨rfl | rfl, rfl⟩
    · obtain rfl : fillHex 1 = rk := Except.ok.inj hrk
      exact hfind rfl rfl
    · obtain rfl : fillHex 10 = rk := Except.ok.inj hrk
      exact hfind rfl rfl
    · obtain rfl : fillHex 10 = rk := Except.ok.inj hrk
      exact hfind rfl rfl
  lacks key rk hkey hrk := by
    cases hfind : sampleResourceAt rk with
    | none =>
        refine Or.inl fun history => ⟨.rpc (-32004) [] none, ?_, rfl⟩
        have hanswer : sampleNetwork history
            (contentQuery base (fillHex 17) rk (some (fillHex 7)) 0) =
              (sampleResourceAt rk).elim (jsonAnswer (.object [("error".toList,
                .object [("code".toList, .number (-32004))])])) fun res =>
                serve res (fun _ => 1) history
                  (contentQuery base (fillHex 17) rk (some (fillHex 7)) 0) := rfl
        rw [hanswer, hfind]
        rfl
    | some res =>
        refine Or.inr ⟨res, serves_sampleNetwork base hfind, ?_⟩
        have hpasses : ∀ key chunks, sampleSite key = some chunks →
            PassesChecks sampleCrates (fillHex 17) (fillHex 7)
              (samplePublisher.published key chunks) := fun _ _ h =>
          ((verifyFetched_eq_ok_iff sampleCrates).mp
            (samplePublisher.verifyFetched_published h)).1
        rcases sampleResourceAt_cases hfind with rfl | rfl
        · exact ⟨hpasses "a".toList _ rfl, openChunks_sampleDecoy hkey (Or.inl rfl) _⟩
        · exact ⟨hpasses "index.html".toList _ rfl, openChunks_sampleDecoy hkey (Or.inr rfl) _⟩

/-! ## Any network -/

section Crates

variable {crates : Crates} {storeHex rootHex key path : Str} {site : Site}
  (ctx : Ctx) (method : Str) (uri : Uri) (hostHeader range : Option Str)

/-- Over any network, the response to a pinned request is that of the published site, its
index page, or an error; and every request on the way is for a window of the resource, or
of the index page, at the pinned root. -/
theorem handle_overHttp_pinned (hcommits : Commits crates storeHex rootHex site)
    (hread : isRead method = true)
    (hclass : classify crates.codecs uri hostHeader ctx.config.tld =
      .store (.pinned storeHex rootHex) path)
    (hkey : resourceKeyForPath crates path = .ok key) (base : Str) (network : HttpBehaviour)
    (history : List HttpEvent) :
    let out := ((handle crates ctx method uri hostHeader range).interpret
      (asNodeClient crates.codecs base)).runFrom network history
    (out.2 = site.respond key path range true ∨ out.2 = site.page path true ∨
      out.2.status = 404 ∨ out.2.status = 502) ∧
    out.1.length ≤ 2 * maxContentWindows ∧
    ∀ e ∈ out.1, ∃ (rk : Str) (page : Page), e = page.event base storeHex rk (some rootHex) ∧
      (retrievalKeyHex crates storeHex key = .ok rk ∨
        retrievalKeyHex crates storeHex "index.html".toList = .ok rk) := by
  intro out
  obtain ⟨t, hruns, hexpands, -⟩ :
      ∃ t, Runs (handle crates ctx method uri hostHeader range) t out.2 ∧
        Expands (asNodeClient crates.codecs base) t out.1 ∧ _ :=
    exists_runs_interpret network history _
  rw [handle_eq_serveStore crates hread hclass] at hruns
  have hserve := hruns
  rw [serveStore, hkey] at hserve
  have hserve : ServeRun crates storeHex rootHex true key path range t _ :=
    serveRun_of_runs crates hserve
  have hcalls : ∀ q r s, (⟨q, r⟩ : NodeEvent) ∈ t →
      Runs (asNodeClient crates.codecs base q) s r →
      ∃ (rk : Str) (pages : List Page),
        s = pages.map (Page.event base storeHex rk (some rootHex)) ∧
        pages.length ≤ maxContentWindows ∧
        (retrievalKeyHex crates storeHex key = .ok rk ∨
          retrievalKeyHex crates storeHex "index.html".toList = .ok rk) := by
    intro q r s hmem hs
    obtain ⟨rk, answer, hevent, hrk⟩ := hserve.fetches crates hmem
    obtain ⟨rfl, -⟩ := Sigma.mk.inj hevent
    obtain ⟨pages, hpages, hlength⟩ := exists_pages_of_runs hs
    exact ⟨rk, pages, hpages, hlength, hrk⟩
  refine ⟨hcommits.withholds crates hkey hruns, ?_, ?_⟩
  · have htwo := hserve.length_le crates
    have hlength : out.1.length ≤ t.length * maxContentWindows := by
      refine hexpands.length_le fun q r s hmem hs => ?_
      obtain ⟨rk, pages, rfl, hpages, -⟩ := hcalls q r s hmem hs
      rwa [List.length_map]
    exact hlength.trans (Nat.mul_le_mul_right _ htwo)
  · refine hexpands.forall_mem fun q r s hmem hs e he => ?_
    obtain ⟨rk, pages, rfl, -, hrk⟩ := hcalls q r s hmem hs
    obtain ⟨page, -, rfl⟩ := List.mem_map.mp he
    exact ⟨rk, page, rfl, hrk⟩

end Crates

theorem ciphertext_of_resourceLeaf {ciphertext : List UInt8} {proof : UInt8 × UInt8}
    (hleaf : sampleCore.resourceLeaf ciphertext = fill proof.1)
    (hverify : sampleCore.verify proof = true) : ciphertext = [1] ∨ ciphertext = [2] := by
  have hfill : ∀ {b}, fill 0 = fill b → b = 0 := fun h => by
    simpa [fill] using (congrArg Bytes32.bytes h).symm
  by_contra hother
  obtain ⟨hone, htwo⟩ := not_or.mp hother
  have hzero : sampleCore.resourceLeaf ciphertext = fill 0 :=
    (if_neg hone).trans (if_neg htwo)
  have hproof : proof.1 = 0 := hfill (hzero.symm.trans hleaf)
  have hverify : (proof.1 = 1 || proof.1 = 2) = true := hverify
  rw [hproof] at hverify
  cases hverify

theorem sampleDecrypt_cases {key : Str} {ciphertext plain : List UInt8}
    (h : sampleCore.decryptChunk key ciphertext = some plain) :
    (key = "a".toList ∧ ciphertext = [1] ∧ plain = [65]) ∨
      (key = "index.html".toList ∧ ciphertext = [2] ∧ plain = [73]) := by
  change (if key = "a".toList ∧ ciphertext = [1] then some [65]
    else if key = "index.html".toList ∧ ciphertext = [2] then some [73] else none) = _ at h
  split_ifs at h with ha hindex
  · exact Or.inl ⟨ha.1, ha.2, (Option.some.inj h).symm⟩
  · exact Or.inr ⟨hindex.1, hindex.2, (Option.some.inj h).symm⟩

theorem eq_singleton_of_flatten {chunks : List (List UInt8)} (hne : ∀ c ∈ chunks, c ≠ [])
    (hone : chunks.flatten.length = 1) : chunks = [chunks.flatten] := by
  cases chunks with
  | nil => cases hone
  | cons c rest =>
      cases rest with
      | nil => simp
      | cons d rest =>
          have hc := List.length_pos_iff.mpr (hne c (by simp))
          have hd := List.length_pos_iff.mpr (hne d (by simp))
          simp only [List.flatten_cons, List.length_append] at hone
          omega

theorem commits_sample : Commits sampleCrates (fillHex 17) (fillHex 7) sampleSite := by
  rintro key f pts ⟨storeId, trustedRoot, proof, hstore, -, -, hleaf, hverify, -, hsum, -⟩ hopen
  obtain rfl : fill 17 = storeId := Option.some.inj (samplePublisher_store.symm.trans hstore)
  have hflatten : f.chunks.flatten = f.ciphertext := flatten_cutChunks hsum
  simp only [openChunks, hstore, Option.bind_eq_bind, Option.bind_some] at hopen
  have hcipher := ciphertext_of_resourceLeaf hleaf hverify
  have hne : ∀ c ∈ f.chunks, c ≠ [] := by
    rintro _ hmem rfl
    have hnone : sampleCrates.core.decryptChunk (aesKey sampleCrates (fill 17) key) [] = none := by
      rw [Option.eq_none_iff_forall_ne_some]
      intro plain h
      rcases sampleDecrypt_cases h with ⟨-, h, -⟩ | ⟨-, h, -⟩ <;> cases h
    rw [mapM_eq_none_of_mem hmem hnone] at hopen
    cases hopen
  have hone : f.chunks.flatten.length = 1 := by
    rw [hflatten]
    rcases hcipher with h | h <;> rw [h] <;> rfl
  rw [eq_singleton_of_flatten hne hone, hflatten, List.mapM_cons, List.mapM_nil] at hopen
  obtain ⟨plain, hplain, hpts⟩ := Option.bind_eq_some_iff.mp hopen
  obtain rfl : [plain] = pts := Option.some.inj hpts
  have haes : aesKey sampleCrates (fill 17) key =
      if key = [] then "index.html".toList else key := rfl
  rw [haes] at hplain
  rcases sampleDecrypt_cases hplain with ⟨hkey, -, rfl⟩ | ⟨hkey, -, rfl⟩
  · by_cases hempty : key = []
    · rw [if_pos hempty] at hkey
      exact absurd hkey (by decide)
    · rw [if_neg hempty] at hkey
      rw [hkey]
      rfl
  · by_cases hempty : key = []
    · rw [hempty]
      rfl
    · rw [if_neg hempty] at hkey
      rw [hkey]
      rfl

/-- `GET /a` at root `7` of store `17`. -/
theorem handle_overHttp_pinned_sample :
    let out := ((handle sampleCrates sampleCtx "GET".toList ⟨none, none, "/a".toList⟩
      (some (storeBytesToLabel Codecs.reference (fill 7) ++
        '.' :: (storeBytesToLabel Codecs.reference (fill 17) ++ ".dig".toList))) none).interpret
        (asNodeClient sampleCrates.codecs rpcDigNetBase)).runFrom sampleNetwork
          ([] : List HttpEvent)
    (out.2 = sampleSite.respond "a".toList "/a".toList none true ∨
      out.2 = sampleSite.page "/a".toList true ∨ out.2.status = 404 ∨ out.2.status = 502) ∧
    out.1.length ≤ 2 * maxContentWindows ∧
    ∀ e ∈ out.1, ∃ (rk : Str) (page : Page),
      e = page.event rpcDigNetBase (fillHex 17) rk (some (fillHex 7)) ∧
        (retrievalKeyHex sampleCrates (fillHex 17) "a".toList = .ok rk ∨
          retrievalKeyHex sampleCrates (fillHex 17) "index.html".toList = .ok rk) :=
  handle_overHttp_pinned _ _ _ _ _ commits_sample (by decide +kernel) (by decide +kernel)
    (by decide +kernel) rpcDigNetBase sampleNetwork []

end DigDns
