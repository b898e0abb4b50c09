import DigDns.Config
import DigDns.Content
import DigDns.Host
import DigDns.Pac

/-!
# The gateway

`gateway.rs`: a request is classified by its URI and its `Host` header, and a
store request is served from a node.  The node is asked through `NodeProg`, so
a request can be run against every behaviour of a node.
-/

namespace DigDns

open Rust

/-- `VERSION`. -/
def version : Str := "0.16.3".toList

/-- A response before the server turns it into one of hyper's. -/
structure GatewayResponse where
  status : UInt16
  headers : List (Str × Str)
  body : List UInt8
deriving DecidableEq

namespace GatewayResponse

/-- `GatewayResponse::with_type` -/
def withType (status : UInt16) (contentType : Str) (body : List UInt8) : GatewayResponse where
  status
  headers := [("content-type".toList, contentType)]
  body

/-- `GatewayResponse::text` -/
def text (status : UInt16) (msg : String) : GatewayResponse where
  status
  headers := [("content-type".toList, "text/plain; charset=utf-8".toList)]
  body := utf8 msg.toList

end GatewayResponse

/-- The context of a server, with the seconds since it started. -/
structure Ctx where
  config : Config
  boundPort : UInt16
  dnsActive : Bool
  uptimeSecs : Nat

/-- The parts of hyper's `Uri` that the gateway reads. -/
structure Uri where
  scheme : Option Str
  /-- `authority().host()` -/
  authorityHost : Option Str
  path : Str
deriving DecidableEq

/-- The reserved `/.dig/` endpoints. -/
inductive ControlEndpoint
  | health
  | proxyPac
  | resolveProbe
  | unknown
deriving DecidableEq

/-- How a request was classified. -/
inductive Classified
  | control (ep : ControlEndpoint)
  | nonDigProxy
  | badHost
  | store (target : HostTarget) (path : Str)
deriving DecidableEq

/-! ## Classification -/

/-- `host_is_under_tld` -/
def hostIsUnderTld (host tld : Str) : Bool :=
  let h := (trim host).rdropWhile (· = '.')
  let h := toAsciiLowercase (splitNext ':' h)
  let tld := toAsciiLowercase tld
  h = tld || ('.' :: tld).isSuffixOf h

/-- `control_endpoint_for` -/
def controlEndpointFor (path : Str) : Option ControlEndpoint :=
  if path = "/.dig/health".toList then some .health
  else if path = "/.dig/proxy.pac".toList then some .proxyPac
  else if path = "/.dig/resolve-probe".toList then some .resolveProbe
  else if path = "/.dig".toList || "/.dig/".toList.isPrefixOf path then some .unknown
  else none

/-- An absolute-form request: the URI has a scheme and an authority. -/
def Uri.isProxy (uri : Uri) : Bool :=
  uri.scheme.isSome && uri.authorityHost.isSome

/-- The host that a request names: the authority of an absolute-form URI, else
the `Host` header. -/
def effectiveHost (uri : Uri) (hostHeader : Option Str) : Option Str :=
  if uri.isProxy then uri.authorityHost else hostHeader

/-- `classify` -/
def classify (codecs : Codecs) (uri : Uri) (hostHeader : Option Str) (tld : Str) : Classified :=
  let host := effectiveHost uri hostHeader
  if uri.isProxy && !host.any fun h => hostIsUnderTld h tld then .nonDigProxy
  else
    match controlEndpointFor uri.path with
    | some ep => .control ep
    | none =>
        match host with
        | some h =>
            match parseDigHost codecs h tld with
            | .ok target => .store target uri.path
            | .error _ => .badHost
        | none => .badHost

/-! ## Bodies and ranges -/

/-- A parsed range header. -/
inductive RangeSpec
  | satisfiable (start stop : Nat)
  | unsatisfiable
  | whole
deriving DecidableEq

/-- `str::parse::<u64>`. -/
def parseU64 (s : Str) : Option Nat := parseUnsigned (2 ^ 64) s

/-- `parse_range` -/
def parseRange (header : Str) (total : Nat) : RangeSpec :=
  match stripPrefix "bytes=".toList (trim header) with
  | none => .whole
  | some s =>
  if s.contains ',' then .whole
  else
    match splitOnce '-' (trim s) with
    | none => .whole
    | some (a, b) =>
        if a = [] then
          -- A suffix range: the last `n` bytes.
          match parseU64 b with
          | none => .whole
          | some n =>
              if n = 0 ∨ total = 0 then .unsatisfiable
              else .satisfiable (total - min n total) (total - 1)
        else
          match parseU64 a with
          | none => .whole
          | some start =>
              let stop? :=
                if b = [] then some (total - 1)
                else (parseU64 b).map fun n => min n (total - 1)
              match stop? with
              | none => .whole
              | some stop =>
                  if total = 0 ∨ start ≥ total ∨ start > stop then .unsatisfiable
                  else .satisfiable start stop

/-- A header is ignored, or read as the number of the last bytes, or as a first position
with a last one or none. -/
theorem parseRange_cases (header : Str) (total : Nat) :
    parseRange header total = .whole ∨
      ∃ s a b, stripPrefix "bytes=".toList (trim header) = some s ∧
        splitOnce '-' (trim s) = some (a, b) ∧
        ((a = [] ∧ ∃ n, parseU64 b = some n ∧
            parseRange header total = if n = 0 ∨ total = 0 then .unsatisfiable
              else .satisfiable (total - min n total) (total - 1)) ∨
          ∃ first last, parseU64 a = some first ∧
            ((b = [] ∧ last = total - 1) ∨
              ∃ n, parseU64 b = some n ∧ last = min n (total - 1)) ∧
            parseRange header total =
              if total = 0 ∨ first ≥ total ∨ first > last then .unsatisfiable
              else .satisfiable first last) := by
  unfold parseRange
  cases hspec : stripPrefix "bytes=".toList (trim header) with
  | none => exact Or.inl rfl
  | some s =>
      dsimp only
      split_ifs with hcomma
      · exact Or.inl rfl
      cases hparts : splitOnce '-' (trim s) with
      | none => exact Or.inl rfl
      | some parts =>
          obtain ⟨a, b⟩ := parts
          dsimp only
          by_cases ha : a = []
          · rw [if_pos ha]
            cases hn : parseU64 b with
            | none => exact Or.inl rfl
            | some n => exact Or.inr ⟨s, a, b, rfl, hparts, Or.inl ⟨ha, n, hn, rfl⟩⟩
          · rw [if_neg ha]
            cases hfirst : parseU64 a with
            | none => exact Or.inl rfl
            | some first =>
                dsimp only
                by_cases hb : b = []
                · rw [if_pos hb]
                  exact Or.inr ⟨s, a, b, rfl, hparts,
                    Or.inr ⟨first, _, hfirst, Or.inl ⟨hb, rfl⟩, rfl⟩⟩
                · rw [if_neg hb]
                  cases hn : parseU64 b with
                  | none => exact Or.inl rfl
                  | some n =>
                      exact Or.inr ⟨s, a, b, rfl, hparts,
                        Or.inr ⟨first, _, hfirst, Or.inr ⟨n, hn, rfl⟩, rfl⟩⟩

/-- A range that can be satisfied lies inside of the resource. -/
theorem bounds_of_parseRange {header : Str} {total start stop : Nat}
    (h : parseRange header total = .satisfiable start stop) : start ≤ stop ∧ stop < total := by
  rcases parseRange_cases header total with hwhole |
    ⟨s, a, b, -, -, ⟨-, n, -, hspec⟩ | ⟨first, last, -, hlast, hspec⟩⟩
  · rw [hwhole] at h
    cases h
  · rw [hspec] at h
    split_ifs at h with hnone
    cases h
    omega
  · have hle : last ≤ total - 1 := by
      rcases hlast with ⟨-, rfl⟩ | ⟨n, -, rfl⟩
      · exact le_rfl
      · exact Nat.min_le_right n (total - 1)
    rw [hspec] at h
    split_ifs at h with hnone
    cases h
    omega

/-- The caching policy of a pinned response. -/
def immutable : Str := "public, max-age=31536000, immutable".toList

/-- `ok_body_response` -/
def okBodyResponse (resourceKey : Str) (bytes : List UInt8) (range : Option Str) (pinned : Bool) :
    GatewayResponse :=
  let cacheControl := if pinned then immutable else "no-cache".toList
  let total := bytes.length
  let headers := [
    ("content-type".toList, contentTypeFor resourceKey),
    ("accept-ranges".toList, "bytes".toList),
    ("cache-control".toList, cacheControl)]
  match range.map fun h => parseRange h total with
  | some (.satisfiable start stop) =>
      { status := 206
        headers := headers ++ [("content-range".toList,
          "bytes ".toList ++ fmtNat start ++ '-' :: (fmtNat stop ++ '/' :: fmtNat total))]
        body := (bytes.take (stop + 1)).drop start }
  | some .unsatisfiable =>
      { status := 416
        headers := headers ++ [("content-range".toList, "bytes */".toList ++ fmtNat total)]
        body := [] }
  | _ => { status := 200, headers, body := bytes }

/-! ## Serving a store -/

/-- The outcome of fetching one resource. -/
inductive Fetched
  | ok (bytes : List UInt8)
  | notFound
  | nodeUnreachable
  | integrityFail
deriving DecidableEq

section Crates

variable (crates : Crates)

/-- What a node's answer to `get_content` is worth. -/
def judge (storeHex resourceKey trustedRoot : Str) : Except NodeError FetchedContent → Fetched
  | .ok fetched =>
      match verifyFetched crates storeHex resourceKey trustedRoot fetched with
      | .ok plaintext => .ok plaintext
      -- A decoy cannot be told from a miss.
      | .error .decrypt => .notFound
      | .error _ => .integrityFail
  | .error e => if e.isNotFound then .notFound else .nodeUnreachable

/-- `fetch_and_decrypt` -/
def fetchAndDecrypt (storeHex resourceKey trustedRoot : Str) : NodeProg Fetched :=
  match retrievalKeyHex crates storeHex resourceKey with
  | .error _ => pure .integrityFail
  | .ok rk => do
      let answer ← NodeClient.getContent storeHex rk (some trustedRoot)
      return judge crates storeHex resourceKey trustedRoot answer

/-- `spa_or_404` -/
def spaOr404 (storeHex trustedRoot path : Str) (pinned : Bool) : NodeProg GatewayResponse :=
  if !isExtensionless path then pure (.text 404 "not found")
  else do
    match ← fetchAndDecrypt crates storeHex "index.html".toList trustedRoot with
    | .ok bytes => return okBodyResponse "index.html".toList bytes none pinned
    | .notFound => return .text 404 "not found"
    | .nodeUnreachable => return .text 502 "node unreachable"
    | .integrityFail => return .text 502 "content failed integrity verification"

/-- The second half of `serve_store`, from the trusted root on. -/
def serveFrom (storeHex trustedRoot : Str) (pinned : Bool) (resourceKey path : Str)
    (range : Option Str) : NodeProg GatewayResponse := do
  match ← fetchAndDecrypt crates storeHex resourceKey trustedRoot with
  | .ok bytes => return okBodyResponse resourceKey bytes range pinned
  | .notFound => spaOr404 crates storeHex trustedRoot path pinned
  | .nodeUnreachable => return .text 502 "node unreachable"
  | .integrityFail => return .text 502 "content failed integrity verification"

/-- `serve_store` -/
def serveStore (target : HostTarget) (path : Str) (range : Option Str) :
    NodeProg GatewayResponse :=
  match resourceKeyForPath crates path with
  | .error _ => pure (.text 400 "invalid request path")
  | .ok resourceKey =>
      match target with
      | .latest storeHex => do
          match ← NodeClient.getAnchoredRoot storeHex with
          | .ok root => serveFrom crates storeHex root false resourceKey path range
          | .error e =>
              if e.isNotFound then return .text 404 "not found"
              else return .text 502 "node unreachable resolving root"
      | .pinned storeHex rootHex => serveFrom crates storeHex rootHex true resourceKey path range

/-! ## The whole request -/

/-- The value that `health_json` prints. -/
def healthBody (ctx : Ctx) (baseUrl : Str) (reachable : Bool) : Serde.Value :=
  let cfg := ctx.config
  let port (p : UInt16) : Serde.Value := .number p.toNat
  let ip : Serde.Value := .string cfg.loopbackIp.fmt
  let usingFallback :=
    ctx.boundPort = cfg.httpFallbackPort && cfg.httpFallbackPort != cfg.httpPort
  let dnsListener : Serde.Value :=
    if ctx.dnsActive then
      .object [("ip".toList, ip), ("port".toList, port cfg.dnsPort),
        ("transport".toList, .string "udp+tcp".toList)]
    else .null
  .object [
    ("status".toList, .string "ok".toList),
    ("version".toList, .string version),
    ("uptime_secs".toList, .number ctx.uptimeSecs),
    ("loopback_ip".toList, ip),
    ("tld".toList, .string cfg.tld),
    ("bound_port".toList, port ctx.boundPort),
    ("primary_port".toList, port cfg.httpPort),
    ("fallback_port".toList, port cfg.httpFallbackPort),
    ("using_fallback".toList, .bool usingFallback),
    ("listeners".toList, .object [
      ("gateway".toList, .object [("ip".toList, ip), ("port".toList, port ctx.boundPort)]),
      ("dns".toList, dnsListener)]),
    ("node".toList, .object [
      ("base_url".toList, .string baseUrl), ("reachable".toList, .bool reachable)]),
    ("paths".toList, .object [
      ("dns".toList, .bool ctx.dnsActive), ("gateway".toList, .bool true)])]

/-- `health_json` -/
def healthJson (ctx : Ctx) (baseUrl : Str) (reachable : Bool) : List UInt8 :=
  (crates.jsonToVec (healthBody ctx baseUrl reachable)).getD []

/-- `control_response` -/
def controlResponse (ep : ControlEndpoint) (ctx : Ctx) : NodeProg GatewayResponse :=
  match ep with
  | .resolveProbe => pure { status := 204, headers := [], body := [] }
  | .proxyPac => pure (.withType 200 Pac.pacContentType
      (utf8 (Pac.generate ctx.config.loopbackIp ctx.boundPort ctx.config.tld)))
  | .health => do
      let reachable ← NodeClient.healthy
      let baseUrl ← NodeClient.baseUrl
      return .withType 200 "application/json".toList (healthJson crates ctx baseUrl reachable)
  | .unknown => pure (.text 404 "unknown /.dig/ endpoint")

/-- Whether the method is one of the two that read. -/
def isRead (method : Str) : Bool :=
  eqIgnoreAsciiCase method "GET".toList || eqIgnoreAsciiCase method "HEAD".toList

/-- `handle` -/
def handle (ctx : Ctx) (method : Str) (uri : Uri) (hostHeader range : Option Str) :
    NodeProg GatewayResponse :=
  if eqIgnoreAsciiCase method "CONNECT".toList then pure (.text 405 "CONNECT is not supported")
  else
    match classify crates.codecs uri hostHeader ctx.config.tld with
    | .nonDigProxy => pure (.text 403 "dig-dns is a .dig-only gateway, not an open proxy")
    | .control ep =>
        if !isRead method then pure (.text 405 "method not allowed")
        else controlResponse crates ep ctx
    | .badHost => pure (.text 404 "not a valid .dig host")
    | .store target path =>
        if !isRead method then pure (.text 405 "method not allowed")
        else serveStore crates target path range

end Crates

end DigDns
