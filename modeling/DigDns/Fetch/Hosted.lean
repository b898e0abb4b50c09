import DigDns.Fetch
import DigDns.Gateway.Paths

/-!
# Fetching from a hosted site

The `fetch` command with its calls over HTTP: the ladder settles on a base, and the
gateway then reaches the node there.  Whichever base that is, if its node hosts the
site, the command writes what was published.
-/

namespace DigDns

open Rust Interaction
open Serde (Value)

/-! ## The command -/

/-- What a command writes, and whether its exit code is zero. -/
structure CommandOutput where
  stdout : List UInt8
  stderr : Str
  success : Bool

/-- `fail` -/
def failCommand (msg : Str) : CommandOutput :=
  ⟨[], "error: ".toList ++ msg ++ "\n".toList, false⟩

/-- What `print_fetch` tells of a response with `--json`. -/
def describeFetch (resp : GatewayResponse) : Value :=
  .object [
    ("status".toList, .number resp.status.toNat),
    ("content_type".toList, .string ((resp.headers.lookup "content-type".toList).getD [])),
    ("length".toList, .number resp.body.length)]

/-- `print_fetch`, where `print` prints a JSON value. -/
def printFetch (print : Value → Str) (resp : GatewayResponse) (json : Bool) : CommandOutput :=
  if json then
    { stdout := utf8 (print (describeFetch resp) ++ "\n".toList)
      stderr := []
      success := resp.status < 400 }
  else
    { stdout := resp.body
      stderr :=
        if resp.status ≥ 400 then
          "\nerror: status ".toList ++ fmtNat resp.status.toNat ++ "\n".toList
        else []
      success := resp.status < 400 }

/-- The `Fetch` command once its configuration is loaded; `message` prints an error. -/
def fetchOutput (print : Value → Str) (message : FetchError → Str) (json : Bool) :
    Except FetchError GatewayResponse → CommandOutput
  | .ok resp => printFetch print resp json
  | .error e => failCommand (message e)

/-! ## Over HTTP -/

/-- The calls of a fetch, with the client bound to a base. -/
def fetchLayer (codecs : Codecs) (base : Str) : (call : FetchCall) → HttpProg (FetchAnswer call)
  | .network call => .ask call .ret
  | .node call => ReqwestNodeClient.asNodeClient codecs base call

section Parser

variable (parseUri : Str → Option Uri) (crates : Crates) (client : Except NodeError Unit)
  (config : Config) (uptimeSecs : Nat) (target path : Str)

/-- What is left of a fetch, at the base that the ladder came to. -/
def fetchAt : Except NodeError Str → HttpProg (Except FetchError GatewayResponse)
  | .error e => .ret (.error (.node e))
  | .ok base => (afterLadder parseUri crates config uptimeSecs target path).interpret
      (fetchLayer crates.codecs base)

/-- `fetch_resource` over HTTP. -/
def fetchOverHttp : HttpProg (Except FetchError GatewayResponse) :=
  ReqwestNodeClient.resolve client config >>= fetchAt parseUri crates config uptimeSecs target path

variable {parseUri crates client config uptimeSecs target path}

/-- Over HTTP a fetch comes to nothing that `fetch_resource` could not come to. -/
theorem exists_runs_fetchResource {u : List HttpEvent} {out : Except FetchError GatewayResponse}
    (h : Runs (fetchOverHttp parseUri crates client config uptimeSecs target path) u out) :
    ∃ t, Runs (fetchResource parseUri crates client config uptimeSecs target path) t out := by
  obtain ⟨u₁, resolved, u₂, rfl, hladder, hrest⟩ := runs_bind_iff.mp h
  obtain ⟨t₁, hladder⟩ := runs_onLadder hladder
  rw [fetchResource_eq]
  cases resolved with
  | error e =>
      obtain ⟨-, rfl⟩ := runs_ret_iff.mp hrest
      exact ⟨t₁ ++ [], runs_bind_iff.mpr ⟨t₁, _, [], rfl, hladder, .ret _⟩⟩
  | ok base =>
      obtain ⟨t₂, hnode, -⟩ := exists_runs_above hrest
      exact ⟨t₁ ++ t₂, runs_bind_iff.mpr ⟨t₁, _, t₂, rfl, hladder, hnode⟩⟩

/-- The gateway of a fetch runs as that of the service does. -/
theorem fetchAt_ok {host : Str} {uri : Uri} (base : Str)
    (hrequest : fetchRequest parseUri target path = .ok (host, uri)) :
    fetchAt parseUri crates config uptimeSecs target path (.ok base) =
      (handle crates (fetchCtx config uptimeSecs) "GET".toList uri (some host) none).interpret
        (ReqwestNodeClient.asNodeClient crates.codecs base) >>= fun response =>
          .ret (.ok response) := by
  have hlayer : (fun call => Prog.interpret (fetchLayer crates.codecs base)
      (.ask (.node call) .ret)) = ReqwestNodeClient.asNodeClient crates.codecs base := by
    funext call
    exact Prog.bind_ret _
  rw [fetchAt, afterLadder, hrequest]
  dsimp only
  rw [Prog.interpret_bind, onNode, Prog.interpret_interpret, hlayer]
  rfl

/-- The ladder comes to one of its candidates. -/
theorem mem_of_runs_firstAnswering {bases : List Str} (hne : bases ≠ []) {u : List HttpEvent}
    {resolved : Except NodeError Str} (h : Runs (ReqwestNodeClient.firstAnswering bases) u resolved) :
    ∃ base ∈ bases, resolved = .ok base := by
  induction bases generalizing u with
  | nil => exact absurd rfl hne
  | cons base bases ih =>
      cases bases with
      | nil => exact ⟨base, List.mem_singleton_self base, (runs_ret_iff.mp h).2⟩
      | cons next bases =>
          obtain ⟨u₁, alive, u₂, rfl, -, hrest⟩ := runs_bind_iff.mp h
          cases alive with
          | true => exact ⟨base, List.mem_cons_self, (runs_ret_iff.mp hrest).2⟩
          | false =>
              obtain ⟨found, hfound, hok⟩ := ih (List.cons_ne_nil _ _) hrest
              exact ⟨found, List.mem_cons_of_mem _ hfound, hok⟩

theorem mem_of_runs_resolve {u : List HttpEvent} {resolved : Except NodeError Str}
    (h : Runs (ReqwestNodeClient.resolve (.ok ()) config) u resolved) :
    ∃ base ∈ candidateBases config, resolved = .ok base := by
  refine mem_of_runs_firstAnswering ?_ h
  rw [candidateBases]
  cases config.nodeUrl <;> exact List.cons_ne_nil _ _

end Parser

/-! ## What the command writes -/

/-- The site answers without an error where it has the resource, or else an index page for a
path that is not one of a file. -/
theorem Site.respond_status_lt_iff {site : Site} {key path : Str} {pinned : Bool} :
    (site.respond key path none pinned).status < 400 ↔
      (site.bytes key).isSome = true ∨
        (isExtensionless path = true ∧ (site.bytes "index.html".toList).isSome = true) := by
  have hfound : ∀ (k : Str) (bytes : List UInt8),
      (okBodyResponse k bytes none pinned).status < 400 := fun _ _ => by
    change (200 : UInt16) < 400
    decide
  have hmissing : ¬(GatewayResponse.text 404 "not found").status < 400 := by
    change ¬(404 : UInt16) < 400
    decide
  rw [Site.respond]
  cases site.bytes key with
  | some bytes => exact iff_of_true (hfound key bytes) (Or.inl rfl)
  | none =>
      rw [Option.map_none, Option.getD_none, Site.page]
      cases isExtensionless path with
      | false =>
          refine iff_of_false hmissing ?_
          rintro (h | ⟨h, -⟩) <;> cases h
      | true =>
          rw [if_pos rfl]
          cases site.bytes "index.html".toList with
          | some bytes => exact iff_of_true (hfound _ bytes) (Or.inr ⟨rfl, rfl⟩)
          | none =>
              refine iff_of_false hmissing ?_
              rintro (h | ⟨-, h⟩) <;> cases h

theorem success_printFetch (print : Value → Str) (resp : GatewayResponse) (json : Bool) :
    (printFetch print resp json).success = true ↔ resp.status < 400 := by
  cases json <;> exact decide_eq_true_iff

section Hosted

variable {parseUri : Str → Option Uri} {crates : Crates} {config : Config} {store root : Bytes32}
  {key : Str}

/-- The name of a site, as a text. -/
def siteName (codecs : Codecs) (tld : Str) (store root : Bytes32) (pinned : Bool) : Str :=
  dotted (siteLabels codecs tld store root pinned)

theorem isStoreHost_siteName (codecs : Codecs) (tld : Str) (pinned : Bool) :
    IsStoreHost codecs tld (siteName codecs tld store root pinned) := by
  rw [siteName, dotted_siteLabels]
  cases pinned with
  | false => exact Or.inl ⟨store, eqIgnoreAsciiCase_iff.mpr rfl⟩
  | true => exact Or.inr ⟨store, root, eqIgnoreAsciiCase_iff.mpr rfl⟩

/-- Every spelling with a slash in front of the key is the same request. -/
theorem fetchRequest_of_spelling (huri : DocumentedUri parseUri) {host path : Str}
    (hne : host ≠ []) (hhost : IsKey host) (hslash : '/' ∉ host) (hkey : IsKey key)
    (hhead : key.head? ≠ some '/') {spelling : Str × Str}
    (hspelling : spelling ∈ (spellings host key path).tail) :
    fetchRequest parseUri spelling.1 spelling.2 = .ok (host, ⟨none, none, '/' :: key⟩) := by
  simp only [spellings, List.tail_cons, List.mem_cons, List.not_mem_nil, or_false] at hspelling
  rcases hspelling with rfl | rfl | rfl
  · exact fetchRequest_of_splitTarget huri hkey (splitTarget_host huri hne hhost hslash _)
  · have hcut := splitTarget_host_slash huri hne hhost hslash hkey path
    rw [dropWhile_of_head hhead] at hcut
    exact fetchRequest_of_splitTarget huri hkey hcut
  · exact fetchRequest_of_splitTarget huri hkey (splitTarget_url huri hne hhost hslash hkey path)

/-- Whichever candidate of the ladder answers, if the nodes at all of them host the site, then
a fetch of a resource, in each of its spellings, comes to what was published: it succeeds
where the site has the resource or an index page in its place, and writes its bytes. -/
theorem fetch_hosted {site : Site} {network : HttpBehaviour}
    {p : Publisher crates (Hex.hexEncode store.bytes) (Hex.hexEncode root.bytes) site}
    (hhosts : ∀ base ∈ candidateBases config, Hosts p base network)
    (hbase32 : crates.codecs.StrictBase32) (hhex : crates.codecs.DocumentedHex)
    (hvalid : config.Valid) (huri : DocumentedUri parseUri) (hkey : IsKey key)
    (hhead : key.head? ≠ some '/') (hpath : controlEndpointFor ('/' :: key) = none)
    (hresource : resourceKeyForPath crates ('/' :: key) = .ok key) (pinned : Bool)
    (uptimeSecs : Nat) (path : Str) (print : Value → Str) (message : FetchError → Str)
    (json : Bool) {spelling : Str × Str} (hspelling : spelling ∈
      (spellings (siteName crates.codecs config.tld store root pinned) key path).tail) :
    let result := ((fetchOverHttp parseUri crates (.ok ()) config uptimeSecs spelling.1
      spelling.2).run network).2
    result = .ok (site.respond key ('/' :: key) none pinned) ∧
      (∃ t, Runs (fetchResource parseUri crates (.ok ()) config uptimeSecs spelling.1 spelling.2)
        t result) ∧
      ((fetchOutput print message json result).success = true ↔
        (site.bytes key).isSome = true ∨ (isExtensionless ('/' :: key) = true ∧
          (site.bytes "index.html".toList).isSome = true)) ∧
      (json = false → ∀ bytes, site.bytes key = some bytes →
        (fetchOutput print message json result).stdout = bytes) := by
  intro result
  have hstore : IsStoreHost crates.codecs config.tld
      (siteName crates.codecs config.tld store root pinned) := isStoreHost_siteName _ _ pinned
  have hname := isName_of_isStoreHost hbase32 hvalid.tld hstore
  have hrequest := fetchRequest_of_spelling huri (ne_nil_of_isStoreHost hstore)
    (fun c hc => Or.inl (isUnreserved_of_isName hname hc))
    (fun hmem => absurd (isUnreserved_of_isName hname hmem) (by decide)) hkey hhead hspelling
  have hparse : parseDigHost crates.codecs (siteName crates.codecs config.tld store root pinned)
      config.tld = _ := parseDigHost_siteLabels hbase32 hhex hvalid.tld pinned
  have hclass := classify_of_parseDigHost hpath hparse
  -- The ladder comes first, and the gateway runs at the base that it comes to.
  have hladder := Prog.runs_run network (ReqwestNodeClient.resolve (.ok ()) config)
  obtain ⟨base, hbase, hresolved⟩ := mem_of_runs_resolve hladder
  have hresult : result = .ok (site.respond key ('/' :: key) none pinned) := by
    have hsplit : result = _ := Prog.snd_run_bind network _ _
    rw [hsplit, hresolved, fetchAt_ok base hrequest, Prog.runFrom_bind_ret]
    exact congrArg Except.ok ((hhosts base hbase).eq_respond (fetchCtx config uptimeSecs)
      "GET".toList _ _ none (by decide) hclass hresource _)
  refine ⟨hresult, ?_, ?_, fun hjson bytes hbytes => ?_⟩
  · exact exists_runs_fetchResource (Prog.runs_run network _)
  · rw [hresult]
    exact (success_printFetch print _ json).trans Site.respond_status_lt_iff
  · rw [hresult, Site.respond_of_bytes hbytes, hjson]
    rfl

theorem isKey_a : IsKey "a".toList := by
  intro c hc
  obtain rfl := List.mem_singleton.mp hc
  exact Or.inl (by decide)

/-- `fetch http://<root>.<store>.dig/a` for root `7` of store `17`. -/
theorem fetch_hosted_sample :
    let result := ((fetchOverHttp plainUri sampleCrates (.ok ()) Config.default 0
      ("http://".toList ++ (siteName sampleCrates.codecs "dig".toList (fill 17) (fill 7) true ++
        '/' :: "a".toList)) "/".toList).run sampleNetwork).2
    result = .ok (sampleSite.respond "a".toList ('/' :: "a".toList) none true) ∧
      (fetchOutput (fun _ => []) (fun _ => []) false result).stdout = [65] := by
  have hmem : ("http://".toList ++ (siteName sampleCrates.codecs "dig".toList (fill 17) (fill 7)
      true ++ '/' :: "a".toList), "/".toList) ∈
        (spellings (siteName sampleCrates.codecs "dig".toList (fill 17) (fill 7) true)
          "a".toList "/".toList).tail := by
    simp [spellings]
  have hfetch := fetch_hosted (fun base _ => hosts_sampleNetwork base)
    Codecs.reference_strictBase32 Codecs.reference_documentedHex default_valid plainUri_documented
    isKey_a (by decide) (by decide) (by decide) true 0 "/".toList (fun _ => []) (fun _ => [])
    false hmem
  exact ⟨hfetch.1, hfetch.2.2.2 rfl [65] rfl⟩

end Hosted

end DigDns
