import DigDns.Gateway.Traversal
import DigDns.Host.DotAndPort
import DigDns.Transport

/-!
# Fetching one resource

`split_target` and `fetch_resource` of `server.rs`: a target and a path are split into
a host and a path, the path is read as a URI of its own, and the gateway runs on the
two.  A path without a slash in it is a host to the URI parser, so the gateway gets the
empty path; of several leading slashes a `host/path` target keeps one.
-/

namespace DigDns

open Rust Interaction

/-- What a fetch asks for: the probes of the ladder, and the calls of the gateway. -/
inductive FetchCall
  | network (call : HttpCall)
  | node (call : NodeCall)

abbrev FetchAnswer : FetchCall → Type
  | .network call => HttpAnswer call
  | .node call => NodeAnswer call

abbrev FetchProg := Prog FetchAnswer

/-- The errors of `fetch_resource`, without the text that the URI parser adds. -/
inductive FetchError
  | node (e : NodeError)
  | invalidPath (resPath : Str)

def onLadder {α : Type} (p : HttpProg α) : FetchProg α :=
  p.interpret fun call => .ask (.network call) .ret

def onNode {α : Type} (p : NodeProg α) : FetchProg α :=
  p.interpret fun call => .ask (.node call) .ret

section Parser

variable (parseUri : Str → Option Uri)

/-- `split_target` -/
def splitTarget (target path : Str) : Str × Str :=
  match parseUri target with
  | some ⟨some _, some host, uriPath⟩ => (host, if uriPath = [] then ['/'] else uriPath)
  | _ =>
      match splitOnce '/' target with
      | some (host, rest) => (host, '/' :: rest.dropWhile (· = '/'))
      | none => (target, path)

/-- The host and the URI that the gateway is run on. -/
def fetchRequest (target path : Str) : Except FetchError (Str × Uri) :=
  let (host, resPath) := splitTarget parseUri target path
  match parseUri resPath with
  | none => .error (.invalidPath resPath)
  | some uri => .ok (host, uri)

/-- `fetch_resource`, where `client` is what building the HTTP client gave. -/
def fetchResource (crates : Crates) (client : Except NodeError Unit) (config : Config)
    (uptimeSecs : Nat) (target path : Str) : FetchProg (Except FetchError GatewayResponse) := do
  match ← onLadder (ReqwestNodeClient.resolve client config) with
  | .error e => return .error (.node e)
  | .ok _ =>
      match fetchRequest parseUri target path with
      | .error e => return .error e
      | .ok (host, uri) => do
          let ctx : Ctx := ⟨config, 0, false, uptimeSecs⟩
          let response ← onNode (handle crates ctx "GET".toList uri (some host) none)
          return .ok response

end Parser

/-- No call to the node, and no response but an error. -/
structure FailsBeforeNode (p : FetchProg (Except FetchError GatewayResponse)) : Prop where
  silent : p.Asks fun call => ∀ c, call ≠ .node c
  failed : ∀ t r, Runs p t (.ok r) → 400 ≤ r.status.toNat

/-! ## The gateway on a path -/

/-- The gateway answers with an error and asks the node nothing. -/
def Refuses (p : NodeProg GatewayResponse) : Prop :=
  ∃ r, p = .ret r ∧ 400 ≤ r.status.toNat

theorem not_refuses_ask {q : NodeCall} {k : NodeAnswer q → NodeProg GatewayResponse} :
    ¬ Refuses (.ask q k) := by
  rintro ⟨r, hr, -⟩
  cases hr

theorem not_refuses_ret {r : GatewayResponse} (hr : r.status.toNat < 400) :
    ¬ Refuses (.ret r) := by
  rintro ⟨r', h, hle⟩
  cases h
  omega

/-- The paths of the reserved endpoints. -/
theorem path_of_controlEndpoint {path : Str} {ep : ControlEndpoint}
    (h : controlEndpointFor path = some ep) (hep : ep ≠ .unknown) :
    path = "/.dig/health".toList ∨ path = "/.dig/proxy.pac".toList ∨
      path = "/.dig/resolve-probe".toList := by
  rw [controlEndpointFor] at h
  split_ifs at h with hhealth hpac hprobe hother
  · exact Or.inl hhealth
  · exact Or.inr (Or.inl hpac)
  · exact Or.inr (Or.inr hprobe)
  · cases h
    exact absurd rfl hep

/-- None of them traverses. -/
theorem not_traverses_of_controlEndpoint {path : Str} {ep : ControlEndpoint}
    (h : controlEndpointFor path = some ep) (hep : ep ≠ .unknown) :
    ¬ Traverses (utf8 path) := by
  rw [traverses_utf8_iff]
  rcases path_of_controlEndpoint h hep with rfl | rfl | rfl
  · decide +kernel
  · decide +kernel
  · decide +kernel

section Gateway

variable {crates : Crates} {ctx : Ctx} {host path : Str} {target : HostTarget}

/-- A `GET` for a host that the parser accepts. -/
theorem handle_get {authority : Option Str}
    (hparse : parseDigHost crates.codecs host ctx.config.tld = .ok target) :
    handle crates ctx "GET".toList ⟨none, authority, path⟩ (some host) none =
      (controlEndpointFor path).elim (serveStore crates target path none)
        fun ep => controlResponse crates ep ctx := by
  have hdirect : (Uri.mk none authority path).isProxy = false ∧
      effectiveHost ⟨none, authority, path⟩ (some host) = some host := ⟨rfl, rfl⟩
  have hclassify : classify crates.codecs ⟨none, authority, path⟩ (some host) ctx.config.tld =
      (controlEndpointFor path).elim (.store target path) .control := by
    simp only [classify, hdirect, Bool.false_and, Bool.false_eq_true, if_false, hparse]
    cases controlEndpointFor path with
    | none => rfl
    | some ep => rfl
  have hconnect : eqIgnoreAsciiCase "GET".toList "CONNECT".toList = false := by decide
  have hread : (!isRead "GET".toList) = false := by decide
  rw [handle, hconnect, hclassify]
  cases controlEndpointFor path with
  | none => simp only [hread, Option.elim, Bool.false_eq_true, if_false]
  | some ep => simp only [hread, Option.elim, Bool.false_eq_true, if_false]

/-- The ids of the target are ids that `digstore_core` reads. -/
def ReadsIds (crates : Crates) : Prop :=
  ∀ id : Bytes32, (crates.core.bytes32FromHex (Hex.hexEncode id.bytes)).isSome = true

/-- Serving a resource begins with a call to the node. -/
theorem not_refuses_serveStore (hids : ReadsIds crates) {key : Str}
    (hstore : ∃ id : Bytes32, target.storeHex = Hex.hexEncode id.bytes)
    (hkey : resourceKeyForPath crates path = .ok key) :
    ¬ Refuses (serveStore crates target path none) := by
  rw [serveStore, hkey]
  cases target with
  | latest storeHex => exact not_refuses_ask
  | pinned storeHex rootHex =>
      obtain ⟨id, hid⟩ := hstore
      obtain ⟨storeId, hread⟩ := Option.isSome_iff_exists.mp (hids id)
      have hrk : retrievalKeyHex crates storeHex key =
          .ok (crates.core.bytes32ToHex
            (crates.core.retrievalKey (canonicalUrn crates storeId key))) := by
        rw [retrievalKeyHex, show storeHex = Hex.hexEncode id.bytes from hid, hread]
      dsimp only
      rw [serveFrom, fetchAndDecrypt, hrk]
      exact not_refuses_ask

/-- The gateway refuses a traversal and the unknown endpoints, and nothing else. -/
theorem refuses_handle_iff (hdefault : crates.core.defaultResourceKey = "index.html".toList)
    (hids : ReadsIds crates) {authority : Option Str}
    (hparse : parseDigHost crates.codecs host ctx.config.tld = .ok target)
    (hstore : ∃ id : Bytes32, target.storeHex = Hex.hexEncode id.bytes) :
    Refuses (handle crates ctx "GET".toList ⟨none, authority, path⟩ (some host) none) ↔
      Traverses (utf8 path) ∨ controlEndpointFor path = some .unknown := by
  rw [handle_get hparse]
  cases hcontrol : controlEndpointFor path with
  | none =>
      obtain ⟨hrefused, hverbatim⟩ := resourceKeyForPath_eq hdefault path
      by_cases htraverses : Traverses (utf8 path)
      · refine iff_of_true ⟨.text 400 "invalid request path", ?_, by decide⟩
          (Or.inl htraverses)
        rw [Option.elim_none, serveStore, hrefused htraverses]
        rfl
      · refine iff_of_false (not_refuses_serveStore hids hstore (hverbatim htraverses)) ?_
        rintro (h | h)
        · exact htraverses h
        · cases h
  | some ep =>
      cases ep with
      | unknown => exact iff_of_true ⟨_, rfl, by decide⟩ (Or.inr rfl)
      | health =>
          refine iff_of_false not_refuses_ask ?_
          rintro (h | h)
          · exact not_traverses_of_controlEndpoint hcontrol (by decide) h
          · cases h
      | proxyPac =>
          have hstatus : (200 : UInt16).toNat < 400 := by decide
          refine iff_of_false (not_refuses_ret hstatus) ?_
          rintro (h | h)
          · exact not_traverses_of_controlEndpoint hcontrol (by decide) h
          · cases h
      | resolveProbe =>
          refine iff_of_false (not_refuses_ret (by decide)) ?_
          rintro (h | h)
          · exact not_traverses_of_controlEndpoint hcontrol (by decide) h
          · cases h

end Gateway

/-! ## A fetch and its gateway -/

theorem asks_onLadder {α : Type} (p : HttpProg α) :
    (onLadder p).Asks fun call => ∀ c, call ≠ .node c := by
  refine Prog.asks_interpret (P := fun _ => True) (fun q _ => ?_)
    (Prog.asks_of_forall (fun _ => trivial) p)
  refine Prog.asks_query fun c hc => ?_
  cases hc

theorem runs_onLadder {α : Type} {p : HttpProg α} {t : List HttpEvent} {a : α} (h : Runs p t a) :
    ∃ t', Runs (onLadder p) t' a := by
  induction h with
  | ret a => exact ⟨[], .ret a⟩
  | @ask q k r t a _ ih =>
      obtain ⟨t', ht'⟩ := ih
      exact ⟨⟨.network q, r⟩ :: t', .ask ht'⟩

/-- The last base of the ladder is taken without a probe. -/
theorem exists_runs_resolve (config : Config) :
    ∃ t base, Runs (ReqwestNodeClient.resolve (.ok ()) config) t (.ok base) := by
  have hwalk : ∀ base bases, ∃ t base',
      Runs (ReqwestNodeClient.firstAnswering (base :: bases)) t (.ok base') := by
    intro base bases
    induction bases generalizing base with
    | nil => exact ⟨[], base, .ret _⟩
    | cons next bases ih =>
        obtain ⟨t, base', ht⟩ := ih next
        exact ⟨⟨.get (base ++ "/health".toList), false⟩ :: t, base', .ask ht⟩
  rw [ReqwestNodeClient.resolve, candidateBases]
  cases config.nodeUrl with
  | none => exact hwalk _ _
  | some url => exact hwalk _ _

theorem asks_of_runs {Q : Type} {R : Q → Type} {α β : Type} {P : Q → Prop} {p : Prog R α}
    {f : α → Prog R β} {t : List (Event R)} {a : α} (h : (p >>= f).Asks P) (hrun : Runs p t a) :
    (f a).Asks P := by
  induction hrun with
  | ret a => exact h
  | ask _ ih => exact ih (h.2 _)

section Fetch

variable {parseUri : Str → Option Uri} {crates : Crates} {client : Except NodeError Unit}
  {config : Config} {uptimeSecs : Nat} {target path : Str}

/-- The context of the gateway in a fetch. -/
def fetchCtx (config : Config) (uptimeSecs : Nat) : Ctx := ⟨config, 0, false, uptimeSecs⟩

/-- What is left of a fetch once the ladder has come to a base. -/
def afterLadder (parseUri : Str → Option Uri) (crates : Crates) (config : Config)
    (uptimeSecs : Nat) (target path : Str) : FetchProg (Except FetchError GatewayResponse) :=
  match fetchRequest parseUri target path with
  | .error e => .ret (.error e)
  | .ok (host, uri) =>
      onNode (handle crates (fetchCtx config uptimeSecs) "GET".toList uri (some host) none) >>=
        fun response => .ret (.ok response)

theorem fetchResource_eq :
    fetchResource parseUri crates client config uptimeSecs target path =
      onLadder (ReqwestNodeClient.resolve client config) >>= fun resolved =>
        match resolved with
        | .error e => .ret (.error (.node e))
        | .ok _ => afterLadder parseUri crates config uptimeSecs target path :=
  rfl

/-- A gateway that answers at once with an error is one that asks nothing and fails. -/
theorem failsBeforeNode_onNode_iff {p : NodeProg GatewayResponse} :
    FailsBeforeNode (onNode p >>= fun response => .ret (.ok response)) ↔ Refuses p := by
  cases p with
  | ret r =>
      constructor
      · exact fun h => ⟨r, rfl, h.failed [] r (.ret _)⟩
      · rintro ⟨r', hr, hstatus⟩
        cases hr
        refine ⟨trivial, fun t r' ht => ?_⟩
        cases (runs_ret_iff.mp ht).2
        exact hstatus
  | ask q k => exact iff_of_false (fun h => h.silent.1 q rfl) not_refuses_ask

/-- With a client the fetch comes to what is left after the ladder. -/
theorem failsBeforeNode_built_iff :
    FailsBeforeNode (fetchResource parseUri crates (.ok ()) config uptimeSecs target path) ↔
      FailsBeforeNode (afterLadder parseUri crates config uptimeSecs target path) := by
  obtain ⟨t₀, base, hladder⟩ := exists_runs_resolve config
  obtain ⟨t₁, hladder⟩ := runs_onLadder hladder
  rw [fetchResource_eq]
  constructor
  · rintro ⟨hsilent, hfailed⟩
    refine ⟨asks_of_runs (p := onLadder (ReqwestNodeClient.resolve (.ok ()) config)) hsilent
      hladder, fun t r ht => ?_⟩
    exact hfailed (t₁ ++ t) r (runs_bind_iff.mpr ⟨t₁, _, t, rfl, hladder, ht⟩)
  · rintro ⟨hsilent, hfailed⟩
    refine ⟨Prog.asks_bind (asks_onLadder _) fun resolved => ?_, fun t r ht => ?_⟩
    · cases resolved with
      | error e => trivial
      | ok base => exact hsilent
    · obtain ⟨_, resolved, t₂, -, -, hrest⟩ := runs_bind_iff.mp ht
      cases resolved with
      | error e => cases (runs_ret_iff.mp hrest).2
      | ok base => exact hfailed t₂ r hrest

/-- A fetch fails before the node exactly when its client cannot be built, its path is
no URI, or the gateway refuses. -/
theorem failsBeforeNode_iff :
    FailsBeforeNode (fetchResource parseUri crates client config uptimeSecs target path) ↔
      (∃ e, client = .error e) ∨ (∃ e, fetchRequest parseUri target path = .error e) ∨
        ∃ host uri, fetchRequest parseUri target path = .ok (host, uri) ∧
          Refuses (handle crates (fetchCtx config uptimeSecs) "GET".toList uri (some host)
            none) := by
  cases client with
  | error e =>
      refine iff_of_true ⟨trivial, fun t r ht => ?_⟩ (Or.inl ⟨e, rfl⟩)
      cases (runs_ret_iff.mp ht).2
  | ok =>
      rw [failsBeforeNode_built_iff, afterLadder]
      cases hrequest : fetchRequest parseUri target path with
      | error e =>
          refine iff_of_true ⟨trivial, fun t r ht => ?_⟩ (Or.inr (Or.inl ⟨e, rfl⟩))
          cases (runs_ret_iff.mp ht).2
      | ok request =>
          obtain ⟨host, uri⟩ := request
          refine failsBeforeNode_onNode_iff.trans ?_
          constructor
          · exact fun h => Or.inr (Or.inr ⟨host, uri, rfl, h⟩)
          · rintro (⟨e, h⟩ | ⟨e, h⟩ | ⟨host', uri', h, hrefuses⟩)
            · cases h
            · cases h
            · cases h
              exact hrefuses

end Fetch

/-! ## Spellings of a resource -/

/-- A character that stands for itself in a URL. -/
def isUnreserved (c : Char) : Bool :=
  isLdh c || c = '.' || c = '_' || c = '~'

/-- Unreserved characters and slashes. -/
def IsKey (s : Str) : Prop := ∀ c ∈ s, isUnreserved c = true ∨ c = '/'

/-- `str::parse::<Uri>` of the `http` crate on such strings, and on `http` URLs of them. -/
structure DocumentedUri (parseUri : Str → Option Uri) : Prop where
  path : ∀ s, IsKey s → s.head? = some '/' → parseUri s = some ⟨none, none, s⟩
  authority : ∀ s, s ≠ [] → IsKey s → '/' ∉ s → parseUri s = some ⟨none, some s, []⟩
  /-- Behind an authority without a scheme nothing may follow. -/
  relative : ∀ s, IsKey s → s.head? ≠ some '/' → '/' ∈ s → parseUri s = none
  url : ∀ host s, host ≠ [] → IsKey host → '/' ∉ host → IsKey s →
    parseUri ("http://".toList ++ (host ++ '/' :: s)) =
      some ⟨some "http".toList, some host, '/' :: s⟩

/-- The ways to ask `fetch` for a resource of a host, as a target and a path. -/
def spellings (host key path : Str) : List (Str × Str) :=
  [(host, key), (host, '/' :: key), (host ++ '/' :: key, path),
    ("http://".toList ++ (host ++ '/' :: key), path)]

/-- The fetch fails before the node, or the gateway is run on the host with a path of
the key. -/
def NamesKey (parseUri : Str → Option Uri) (crates : Crates) (client : Except NodeError Unit)
    (config : Config) (uptimeSecs : Nat) (host key : Str) (spelling : Str × Str) : Prop :=
  FailsBeforeNode
      (fetchResource parseUri crates client config uptimeSecs spelling.1 spelling.2) ∨
    ∃ uri, fetchRequest parseUri spelling.1 spelling.2 = .ok (host, uri) ∧
      resourceKeyForPath crates uri.path = .ok key

/-- A key with a slash inside, or the index page; a key that begins with a slash has to
be one that the gateway refuses. -/
structure IsPlainKey (key : Str) : Prop where
  slash : key.head? = some '/' → Traverses (utf8 key) ∨ controlEndpointFor key = some .unknown
  inner : key.head? ≠ some '/' → '/' ∈ key ∨ key = "index.html".toList

section Requests

variable {parseUri : Str → Option Uri} (huri : DocumentedUri parseUri) {host : Str}
  (hne : host ≠ []) (hhost : IsKey host) (hslash : '/' ∉ host)
include huri hne hhost hslash

/-- A host alone is a target with the path as it is given. -/
theorem splitTarget_host (path : Str) : splitTarget parseUri host path = (host, path) := by
  have hcut : splitOnce '/' host = none := by
    cases h : splitOnce '/' host with
    | none => rfl
    | some cut =>
        obtain ⟨a, b⟩ := cut
        obtain ⟨rfl, -⟩ := splitOnce_eq_some_iff.mp h
        exact absurd (by simp) hslash
  rw [splitTarget, huri.authority host hne hhost hslash]
  dsimp only
  rw [hcut]

/-- Of a target with a slash the part behind it is the path, with one slash in front. -/
theorem splitTarget_host_slash {key : Str} (hkey : IsKey key) (path : Str) :
    splitTarget parseUri (host ++ '/' :: key) path =
      (host, '/' :: key.dropWhile (· = '/')) := by
  have hparse : parseUri (host ++ '/' :: key) = none := by
    apply huri.relative
    · intro c hc
      rcases List.mem_append.mp hc with hc | hc
      · exact hhost c hc
      · exact (List.mem_cons.mp hc).elim Or.inr (hkey c)
    · cases host with
      | nil => exact absurd rfl hne
      | cons c host =>
          intro h
          cases h
          exact hslash List.mem_cons_self
    · simp
  rw [splitTarget, hparse]
  dsimp only
  rw [splitOnce_append hslash]

theorem splitTarget_url {key : Str} (hkey : IsKey key) (path : Str) :
    splitTarget parseUri ("http://".toList ++ (host ++ '/' :: key)) path = (host, '/' :: key) := by
  rw [splitTarget, huri.url host key hne hhost hslash hkey]
  rfl

omit hne hhost hslash in
/-- A path with a slash in front is the path of the request. -/
theorem fetchRequest_of_splitTarget {target path key : Str} (hkey : IsKey key)
    (hsplit : splitTarget parseUri target path = (host, '/' :: key)) :
    fetchRequest parseUri target path = .ok (host, ⟨none, none, '/' :: key⟩) := by
  have hpath : IsKey ('/' :: key) := List.forall_mem_cons.mpr ⟨Or.inr rfl, hkey⟩
  rw [fetchRequest, hsplit]
  dsimp only
  rw [huri.path _ hpath rfl]

end Requests

section Keys

theorem pathKey_cons_slash {key : Str} (hne : key ≠ []) : pathKey ('/' :: key) = key := by
  have hstrip : stripPrefix ['/'] ('/' :: key) = some key := stripPrefix_append ['/'] key
  rw [pathKey, hstrip, Option.getD_some, if_neg hne]

/-- A key with a slash in front is not the key of itself as a path. -/
theorem pathKey_ne_self {key : Str} (hhead : key.head? = some '/') : pathKey key ≠ key := by
  obtain ⟨rest, rfl⟩ : ∃ rest, key = '/' :: rest := by
    cases key with
    | nil => cases hhead
    | cons c rest =>
        cases hhead
        exact ⟨rest, rfl⟩
  by_cases hrest : rest = []
  · rw [hrest]
    decide
  · rw [pathKey_cons_slash hrest]
    intro h
    exact absurd (congrArg List.length h) (by simp)

/-- Leading slashes make no traversal. -/
theorem traverses_dropWhile_slash (key : Str) :
    Traverses (utf8 ('/' :: key.dropWhile (· = '/'))) ↔ Traverses (utf8 key) := by
  have hslash : ∀ s : Str, Traverses (utf8 ('/' :: s)) ↔ Traverses (utf8 s) := fun s =>
    traverses_cons_slash (utf8 s)
  rw [hslash]
  induction key with
  | nil => rfl
  | cons c key ih =>
      rw [List.dropWhile_cons]
      split
      · rename_i hc
        rw [of_decide_eq_true hc]
        exact ih.trans (hslash key).symm
      · rfl

/-- The reserved paths have one slash in front. -/
theorem prefix_of_controlEndpoint {path : Str} {ep : ControlEndpoint}
    (h : controlEndpointFor path = some ep) : "/.".toList <+: path := by
  rw [controlEndpointFor] at h
  split_ifs at h with hhealth hpac hprobe hother
  · rw [hhealth]
    decide
  · rw [hpac]
    decide
  · rw [hprobe]
    decide
  · rcases Bool.or_eq_true_iff.mp hother with heq | hpre
    · rw [of_decide_eq_true heq]
      decide
    · have hdig : "/.".toList <+: "/.dig/".toList := by decide
      exact hdig.trans (List.isPrefixOf_iff_prefix.mp hpre)

theorem dropWhile_of_unknown {key : Str} (h : controlEndpointFor key = some .unknown) :
    '/' :: key.dropWhile (· = '/') = key := by
  obtain ⟨rest, rfl⟩ := prefix_of_controlEndpoint h
  rfl

theorem dropWhile_of_head {key : Str} (hhead : key.head? ≠ some '/') :
    key.dropWhile (· = '/') = key := by
  cases key with
  | nil => rfl
  | cons c key =>
      rw [List.dropWhile_cons, if_neg]
      intro hc
      rw [of_decide_eq_true hc] at hhead
      exact hhead rfl

end Keys

section Spellings

variable {parseUri : Str → Option Uri} {crates : Crates} {client : Except NodeError Unit}
  {config : Config} {uptimeSecs : Nat} {host key path : Str}

theorem exists_id_of_parseDigHost {codecs : Codecs} {tld : Str} {target : HostTarget}
    (hbase32 : codecs.StrictBase32) (hhex : codecs.DocumentedHex) (htld : isSafeTld tld = true)
    (hparse : parseDigHost codecs host tld = .ok target) :
    ∃ id : Bytes32, target.storeHex = Hex.hexEncode id.bytes := by
  rcases (parseDigHost_eq_ok_iff_form hbase32 hhex htld).mp hparse with
    ⟨store, -, rfl⟩ | ⟨store, root, -, rfl⟩
  · exact ⟨store, rfl⟩
  · exact ⟨store, rfl⟩

/-- Names of hosts are made of unreserved characters. -/
theorem isUnreserved_of_isName (hname : IsName host) {c : Char} (hc : c ∈ host) :
    isUnreserved c = true := by
  rw [isUnreserved]
  rcases hname c hc with h | rfl
  · simp [h]
  · decide

theorem ne_nil_of_isStoreHost {codecs : Codecs} {tld : Str} (hhost : IsStoreHost codecs tld host) :
    host ≠ [] := by
  rintro rfl
  rcases hhost with ⟨store, h⟩ | ⟨store, root, h⟩
  · have hlength := congrArg List.length (eqIgnoreAsciiCase_iff.mp h)
    simp [latestName, toAsciiLowercase] at hlength
  · have hlength := congrArg List.length (eqIgnoreAsciiCase_iff.mp h)
    simp [pinnedName, toAsciiLowercase] at hlength

variable (hbase32 : crates.codecs.StrictBase32) (hhex : crates.codecs.DocumentedHex)
  (hdefault : crates.core.defaultResourceKey = "index.html".toList) (hids : ReadsIds crates)
  (hvalid : config.Valid) (hhost : IsStoreHost crates.codecs config.tld host)
include hbase32 hhex hdefault hids hvalid hhost

/-- A request that reaches the gateway is for the key, or refused. -/
theorem namesKey_iff_of_request {target resPath : Str} {authority : Option Str}
    (hrequest : fetchRequest parseUri target path = .ok (host, ⟨none, authority, resPath⟩)) :
    NamesKey parseUri crates client config uptimeSecs host key (target, path) ↔
      (∃ e, client = .error e) ∨ Traverses (utf8 resPath) ∨
        controlEndpointFor resPath = some .unknown ∨ pathKey resPath = key := by
  obtain ⟨-, parsed, hparse⟩ := parseDigHost_of_isStoreHost hbase32 hvalid.tld hhost hhex
  have hstore := exists_id_of_parseDigHost hbase32 hhex hvalid.tld hparse
  have hrefuses : ∀ a : Option Str,
      Refuses (handle crates (fetchCtx config uptimeSecs) "GET".toList ⟨none, a, resPath⟩
        (some host) none) ↔
        Traverses (utf8 resPath) ∨ controlEndpointFor resPath = some .unknown :=
    fun _ => refuses_handle_iff hdefault hids hparse hstore
  obtain ⟨hrefused, hverbatim⟩ := resourceKeyForPath_eq hdefault resPath
  rw [NamesKey, failsBeforeNode_iff]
  dsimp only
  rw [hrequest]
  constructor
  · rintro ((hclient | ⟨e, he⟩ | ⟨host', uri, heq, h⟩) | ⟨uri, heq, hkey⟩)
    · exact Or.inl hclient
    · cases he
    · cases heq
      rcases (hrefuses authority).mp h with h | h
      · exact Or.inr (Or.inl h)
      · exact Or.inr (Or.inr (Or.inl h))
    · cases heq
      by_cases htraverses : Traverses (utf8 resPath)
      · exact Or.inr (Or.inl htraverses)
      · rw [hverbatim htraverses] at hkey
        exact Or.inr (Or.inr (Or.inr (Except.ok.inj hkey)))
  · rintro (hclient | htraverses | hunknown | hkey)
    · exact Or.inl (Or.inl hclient)
    · exact Or.inl (Or.inr (Or.inr ⟨_, _, rfl, (hrefuses authority).mpr (Or.inl htraverses)⟩))
    · exact Or.inl (Or.inr (Or.inr ⟨_, _, rfl, (hrefuses authority).mpr (Or.inr hunknown)⟩))
    · by_cases htraverses : Traverses (utf8 resPath)
      · exact Or.inl (Or.inr (Or.inr
          ⟨_, _, rfl, (hrefuses authority).mpr (Or.inl htraverses)⟩))
      · exact Or.inr ⟨_, rfl, (hverbatim htraverses).trans (congrArg Except.ok hkey)⟩

variable (huri : DocumentedUri parseUri) (hkey : IsKey key) (hne : key ≠ [])
include huri hkey hne

/-- With a slash in front the path names the key. -/
theorem namesKey_of_splitTarget {target : Str}
    (hsplit : splitTarget parseUri target path = (host, '/' :: key)) :
    NamesKey parseUri crates client config uptimeSecs host key (target, path) := by
  have hrequest := fetchRequest_of_splitTarget huri hkey hsplit
  refine (namesKey_iff_of_request hbase32 hhex hdefault hids hvalid hhost hrequest).mpr ?_
  exact Or.inr (Or.inr (Or.inr (pathKey_cons_slash hne)))

omit hne in
/-- A host with the key behind it loses the leading slashes of the key. -/
theorem namesKey_host_slash_iff {target : Str}
    (hsplit : splitTarget parseUri target path = (host, '/' :: key.dropWhile (· = '/'))) :
    NamesKey parseUri crates client config uptimeSecs host key (target, path) ↔
      (∃ e, client = .error e) ∨ Traverses (utf8 key) ∨
        controlEndpointFor ('/' :: key.dropWhile (· = '/')) = some .unknown ∨
          pathKey ('/' :: key.dropWhile (· = '/')) = key := by
  have hdrop : IsKey (key.dropWhile (· = '/')) := fun c hc =>
    hkey c (List.dropWhile_suffix _ |>.subset hc)
  have hrequest := fetchRequest_of_splitTarget huri hdrop hsplit
  rw [namesKey_iff_of_request hbase32 hhex hdefault hids hvalid hhost hrequest,
    traverses_dropWhile_slash]

/-- A key given as the path is read as a path, as a host, or not at all. -/
theorem namesKey_bare_iff (hsplit : splitTarget parseUri host key = (host, key)) :
    NamesKey parseUri crates client config uptimeSecs host key (host, key) ↔
      (∃ e, client = .error e) ∨ IsPlainKey key := by
  by_cases hhead : key.head? = some '/'
  · have hrequest : fetchRequest parseUri host key = .ok (host, ⟨none, none, key⟩) := by
      rw [fetchRequest, hsplit]
      dsimp only
      rw [huri.path key hkey hhead]
    rw [namesKey_iff_of_request hbase32 hhex hdefault hids hvalid hhost hrequest]
    refine or_congr_right ⟨fun h => ⟨fun _ => ?_, fun h' => absurd hhead h'⟩, fun h => ?_⟩
    · rcases h with h | h | h
      · exact Or.inl h
      · exact Or.inr h
      · exact absurd h (pathKey_ne_self hhead)
    · rcases h.slash hhead with h | h
      · exact Or.inl h
      · exact Or.inr (Or.inl h)
  by_cases hmem : '/' ∈ key
  · have hrequest : fetchRequest parseUri host key = .error (.invalidPath key) := by
      rw [fetchRequest, hsplit]
      dsimp only
      rw [huri.relative key hkey hhead hmem]
    refine iff_of_true (Or.inl (failsBeforeNode_iff.mpr (Or.inr (Or.inl ⟨_, hrequest⟩))))
      (Or.inr ⟨fun h => absurd h hhead, fun _ => Or.inl hmem⟩)
  · have hrequest : fetchRequest parseUri host key = .ok (host, ⟨none, some key, []⟩) := by
      rw [fetchRequest, hsplit]
      dsimp only
      rw [huri.authority key hne hkey hmem]
    rw [namesKey_iff_of_request hbase32 hhex hdefault hids hvalid hhost hrequest]
    refine or_congr_right ⟨fun h => ⟨fun h' => absurd h' hhead, fun _ => ?_⟩, fun h => ?_⟩
    · rcases h with h | h | h
      · exact absurd h not_traverses_nil
      · cases h
      · exact Or.inr h.symm
    · rcases h.inner hhead with h | h
      · exact absurd h hmem
      · exact Or.inr (Or.inr h.symm)

/-- All spellings of a resource agree exactly when no client can be built or the key is
plain. -/
theorem fetch_spellings_iff :
    (∀ spelling ∈ spellings host key path,
        NamesKey parseUri crates client config uptimeSecs host key spelling) ↔
      (∃ e, client = .error e) ∨ IsPlainKey key := by
  have hname : IsName host := isName_of_isStoreHost hbase32 hvalid.tld hhost
  have hhostKey : IsKey host := fun c hc => Or.inl (isUnreserved_of_isName hname hc)
  have hhostSlash : '/' ∉ host := fun hmem =>
    absurd (isUnreserved_of_isName hname hmem) (by decide)
  have hhostNe : host ≠ [] := ne_nil_of_isStoreHost hhost
  have hbare := splitTarget_host huri hhostNe hhostKey hhostSlash
  have hnames : ∀ {target path : Str}, splitTarget parseUri target path = (host, '/' :: key) →
      NamesKey parseUri crates client config uptimeSecs host key (target, path) :=
    fun hsplit => namesKey_of_splitTarget hbase32 hhex hdefault hids hvalid hhost huri hkey hne
      hsplit
  rw [spellings, List.forall_mem_cons, List.forall_mem_cons, List.forall_mem_cons,
    List.forall_mem_singleton, namesKey_bare_iff hbase32 hhex hdefault hids hvalid hhost huri hkey
      hne (hbare key)]
  refine ⟨And.left, fun h => ⟨h, hnames (hbare _), ?_,
    hnames (splitTarget_url huri hhostNe hhostKey hhostSlash hkey path)⟩⟩
  have hcut := splitTarget_host_slash huri hhostNe hhostKey hhostSlash hkey path
  by_cases hhead : key.head? = some '/'
  · refine (namesKey_host_slash_iff hbase32 hhex hdefault hids hvalid hhost huri hkey hcut).mpr ?_
    rcases h with hclient | hplain
    · exact Or.inl hclient
    · rcases hplain.slash hhead with htraverses | hunknown
      · exact Or.inr (Or.inl htraverses)
      · refine Or.inr (Or.inr (Or.inl ?_))
        rw [dropWhile_of_unknown hunknown]
        exact hunknown
  · rw [dropWhile_of_head hhead] at hcut
    exact hnames hcut

end Spellings

/-! ## One host -/

/-- A URI parser for keys and `http` URLs. -/
def plainUri (s : Str) : Option Uri :=
  match stripPrefix "http://".toList s with
  | some rest =>
      match splitOnce '/' rest with
      | some (host, path) => some ⟨some "http".toList, some host, '/' :: path⟩
      | none => some ⟨some "http".toList, some rest, ['/']⟩
  | none =>
      if s.head? = some '/' then some ⟨none, none, s⟩
      else if s = [] ∨ '/' ∈ s then none
      else some ⟨none, some s, []⟩

/-- No key has a scheme in front. -/
theorem stripPrefix_http_of_isKey {s : Str} (hs : IsKey s) :
    stripPrefix "http://".toList s = none := by
  cases h : stripPrefix "http://".toList s with
  | none => rfl
  | some rest =>
      obtain rfl := stripPrefix_eq_some_iff.mp h
      rcases hs ':' (List.mem_append_left _ (by decide)) with hcolon | hcolon
      · exact absurd hcolon (by decide)
      · cases hcolon

theorem plainUri_documented : DocumentedUri plainUri where
  path s hs hhead := by
    rw [plainUri, stripPrefix_http_of_isKey hs]
    dsimp only
    rw [if_pos hhead]
  authority s hne hs hslash := by
    have hhead : s.head? ≠ some '/' := fun h => hslash (List.mem_of_mem_head? h)
    rw [plainUri, stripPrefix_http_of_isKey hs]
    dsimp only
    rw [if_neg hhead, if_neg (not_or.mpr ⟨hne, hslash⟩)]
  relative s hs hhead hslash := by
    rw [plainUri, stripPrefix_http_of_isKey hs]
    dsimp only
    rw [if_neg hhead, if_pos (Or.inr hslash)]
  url host s _ _ hslash _ := by
    rw [plainUri, stripPrefix_append]
    dsimp only
    rw [splitOnce_append hslash]

theorem readsIds_sample : ReadsIds sampleCrates := by
  intro id
  have hdecode := Hex.hexDecode_eq_some_iff.mpr (toAsciiLowercase_hexEncode id.bytes)
  change ((Hex.hexDecode (Hex.hexEncode id.bytes)).bind fun bytes =>
    if h : bytes.length = storeIdLen then some (⟨bytes, h⟩ : Bytes32) else none).isSome = true
  rw [hdecode, Option.bind_some, dif_pos id.length_eq]
  rfl

theorem default_valid : Config.default.Valid :=
  (Config.validate_eq_ok_iff _).mp (by decide)

/-- The host of the latest root of store `17`. -/
def sampleHost : Str := latestName Codecs.reference (fill 17) "dig".toList

theorem isStoreHost_sample : IsStoreHost Codecs.reference Config.default.tld sampleHost :=
  Or.inl ⟨fill 17, eqIgnoreAsciiCase_iff.mpr rfl⟩

theorem fetch_spellings_sample :
    (∀ spelling ∈ spellings sampleHost "assets/app.js".toList ['/'],
        NamesKey plainUri sampleCrates (.ok ()) Config.default 0 sampleHost
          "assets/app.js".toList spelling) ↔
      (∃ e, (Except.ok () : Except NodeError Unit) = .error e) ∨
        IsPlainKey "assets/app.js".toList := by
  have hkey : ∀ c ∈ "assets/app.js".toList, isUnreserved c = true ∨ c = '/' := by decide
  exact fetch_spellings_iff Codecs.reference_strictBase32 Codecs.reference_documentedHex rfl
    readsIds_sample default_valid isStoreHost_sample plainUri_documented hkey (by decide)

/-- `fetch <host> app.js` fetches the index page. -/
theorem fetch_names_index :
    fetchRequest plainUri sampleHost "app.js".toList =
        .ok (sampleHost, ⟨none, some "app.js".toList, []⟩) ∧
      resourceKeyForPath sampleCrates [] = .ok "index.html".toList ∧
      ¬ ∀ spelling ∈ spellings sampleHost "app.js".toList ['/'],
        NamesKey plainUri sampleCrates (.ok ()) Config.default 0 sampleHost "app.js".toList
          spelling := by
  have hname : IsName sampleHost :=
    isName_of_isStoreHost Codecs.reference_strictBase32 default_valid.tld isStoreHost_sample
  have hsplit : splitTarget plainUri sampleHost "app.js".toList =
      (sampleHost, "app.js".toList) :=
    splitTarget_host plainUri_documented (ne_nil_of_isStoreHost isStoreHost_sample)
      (fun c hc => Or.inl (isUnreserved_of_isName hname hc))
      (fun hmem => absurd (isUnreserved_of_isName hname hmem) (by decide)) _
  have hrequest : fetchRequest plainUri sampleHost "app.js".toList =
      .ok (sampleHost, ⟨none, some "app.js".toList, []⟩) := by
    have hparse : plainUri "app.js".toList = some ⟨none, some "app.js".toList, []⟩ := by decide
    rw [fetchRequest, hsplit]
    dsimp only
    rw [hparse]
  refine ⟨hrequest, rfl, fun hall => ?_⟩
  have hbare := hall _ List.mem_cons_self
  rw [namesKey_iff_of_request Codecs.reference_strictBase32 Codecs.reference_documentedHex rfl
    readsIds_sample default_valid isStoreHost_sample hrequest] at hbare
  rcases hbare with ⟨e, h⟩ | h | h | h
  · cases h
  · exact not_traverses_nil h
  · cases h
  · exact absurd h (by decide)

end DigDns
