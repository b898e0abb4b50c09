import DigDns.Dns.Client
import DigDns.OsConfig.Configured
import DigDns.Probe
import DigDns.SecureDns

/-!
# The diagnosis

`doctor.rs`: every link of the two resolution paths is looked at on its own, and a check
is made of each observation.  The checks come in a fixed order; the report reads off
them whether a path is live.
-/

namespace DigDns.Doctor

open Rust Http Interaction
open OsConfig (IpAddr Os)
open SecureDns (Tier)

/-! ## Checks and reports -/

/-- `CheckStatus` -/
inductive CheckStatus
  | pass
  | fail
  | warn
  | info
deriving DecidableEq

/-- `CheckStatus::symbol` -/
def CheckStatus.symbol : CheckStatus → Str
  | pass => "PASS".toList
  | fail => "FAIL".toList
  | warn => "WARN".toList
  | info => "INFO".toList

/-- `Check` -/
structure Check where
  id : Str
  name : Str
  status : CheckStatus
  detail : Str
  fix : Option Str
deriving DecidableEq

/-- `Check::new` -/
def Check.new (id name : String) (status : CheckStatus) (detail : Str) : Check where
  id := id.toList
  name := name.toList
  status
  detail
  fix := none

/-- `Check::with_fix` -/
def Check.withFix (c : Check) (fix : Str) : Check := { c with fix := some fix }

/-- `Report` -/
structure Report where
  checks : List Check
  pathA : Bool
  pathB : Bool
  ok : Bool

/-- `overall_ok` -/
def overallOk (loopbackUp pathA pathB : Bool) : Bool := loopbackUp && (pathA || pathB)

/-- Whether a check with an id passed. -/
def passed (checks : List Check) (id : String) : Bool :=
  checks.any fun c => c.id = id.toList ∧ c.status = .pass

/-- `Report::build` -/
def Report.build (checks : List Check) : Report where
  checks
  pathA := passed checks "os_routing"
  pathB := passed checks "gateway_port"
  ok := overallOk (passed checks "loopback_ip") (passed checks "os_routing")
    (passed checks "gateway_port")

/-- A status as it is serialized. -/
def CheckStatus.toJson (status : CheckStatus) : Serde.Value :=
  .string (toAsciiLowercase status.symbol)

/-- A check as it is serialized: without a fix there is no such member. -/
def Check.toJson (c : Check) : Serde.Value :=
  .object ([
    ("id".toList, .string c.id),
    ("name".toList, .string c.name),
    ("status".toList, c.status.toJson),
    ("detail".toList, .string c.detail)] ++
    (c.fix.map fun fix => ("fix".toList, Serde.Value.string fix)).toList)

/-- `Report::to_json` -/
def Report.toJson (r : Report) : Serde.Value :=
  .object [
    ("ok".toList, .bool r.ok),
    ("path_a".toList, .bool r.pathA),
    ("path_b".toList, .bool r.pathB),
    ("checks".toList, .array (r.checks.map Check.toJson))]

/-- The lines of one check. -/
def Check.toText (c : Check) : Str :=
  "  [".toList ++ c.status.symbol ++ "] ".toList ++ c.name ++ ": ".toList ++ c.detail ++
    "\n".toList ++
    (c.fix.map fun fix => "         fix: ".toList ++ fix ++ "\n".toList).getD []

/-- `Report::to_text` -/
def Report.toText (r : Report) : Str :=
  let paths :=
    match r.pathA, r.pathB with
    | true, true => "Path A (OS DNS) and Path B (PAC proxy) are both live".toList
    | true, false => "Path A (OS DNS) is live".toList
    | false, true => "Path B (PAC proxy) is live".toList
    | false, false => "NEITHER path is live".toList
  let result :=
    if r.ok then "RESULT: a .dig URL can load.".toList
    else "RESULT: a .dig URL will NOT load - fix the failing links above.".toList
  "dig-dns doctor\n".toList ++ r.checks.flatMap Check.toText ++
    "\n".toList ++ paths ++ "\n".toList ++ result ++ "\n".toList

/-! ## From an observation to a check -/

/-- `evaluate_loopback` -/
def evaluateLoopback (ip : Ipv4Addr) (bindable : Bool) : Check :=
  if bindable then
    .new "loopback_ip" "Loopback IP is up" .pass
      (ip.fmt ++ " is assigned to a local interface".toList)
  else
    (Check.new "loopback_ip" "Loopback IP is up" .fail
      (ip.fmt ++ " is not a local address".toList)).withFix
      ("the installer must add ".toList ++ ip.fmt ++
        " to the loopback interface (macOS: `ifconfig lo0 alias ".toList ++ ip.fmt ++
        "`; Linux/Windows 127/8 is usually already up)".toList)

/-- `evaluate_dns_direct` -/
def evaluateDnsDirect (expected : Ipv4Addr) (answered : Option Ipv4Addr) : Check :=
  let check := Check.new "dns_direct" "DNS responder answers directly"
  match answered with
  | some ip =>
      if ip = expected then check .pass ("responder returned A ".toList ++ ip.fmt)
      else
        (check .fail ("responder returned A ".toList ++ ip.fmt ++ ", expected ".toList ++
          expected.fmt)).withFix
          ("the DNS responder is answering with the wrong address - check DIG_DNS_IP".toList)
  | none =>
      (check .fail "no A answer from the responder".toList).withFix
        ("is the service running? start `dig-dns serve` (needs privilege to bind :53)".toList)

/-- `evaluate_os_routing` -/
def evaluateOsRouting (expected : Ipv4Addr) (resolved : List IpAddr) : Check :=
  let check := Check.new "os_routing" "OS resolves .dig to the loopback IP (Path A)"
  if resolved.contains (.v4 expected) then
    check .pass ("the OS resolver returned ".toList ++ expected.fmt)
  else
    (check .warn
      "the OS does not route .dig to the responder (Path A not configured)".toList).withFix
      ("the installer configures OS split-DNS for .dig (macOS `/etc/resolver/dig`, ".toList ++
        "Windows NRPT, Linux systemd-resolved) - or rely on Path B (the PAC proxy)".toList)

/-- `evaluate_os_config` -/
def evaluateOsConfig (present : Option Bool) : Check :=
  let check := Check.new "os_config" "OS resolver configured for .dig (configure-os)" .info
  match present with
  | some true => check "the OS-level *.dig resolver wiring is present".toList
  | some false =>
      (check "no OS-level *.dig resolver wiring found".toList).withFix
        ("run `dig-dns configure-os` (as root/Administrator) to route *.dig system-wide, ".toList ++
          "or rely on Path B (the PAC proxy)".toList)
  | none => check "not determined on this OS (see the end-to-end OS routing check)".toList

/-- `:<port>` -/
def colonPort (port : UInt16) : Str := ':' :: fmtNat port.toNat

/-- `evaluate_gateway` -/
def evaluateGateway (primary fallback : UInt16) (answeredPort : Option UInt16) : Check :=
  let check := Check.new "gateway_port" "HTTP gateway answers (Path B)"
  match answeredPort with
  | some p =>
      if p = primary then
        check .pass ("gateway answered /.dig/resolve-probe on ".toList ++ colonPort p)
      else
        (check .pass ("gateway answered on the fallback ".toList ++ colonPort p ++ " (".toList ++
          colonPort primary ++ " was unavailable)".toList)).withFix
          ("browsers using OS DNS reach ".toList ++ colonPort primary ++
            "; since the gateway is on ".toList ++ colonPort p ++
            ", use the PAC (/.dig/proxy.pac) which advertises ".toList ++ colonPort p)
  | none =>
      (check .fail ("no gateway on ".toList ++ colonPort primary ++ " or ".toList ++
        colonPort fallback)).withFix
        "start the service: `dig-dns serve`".toList

/-- `evaluate_node` -/
def evaluateNode (reachable : Option Bool) : Check :=
  let check := Check.new "node_reachable" "Gateway can reach a dig-node"
  match reachable with
  | some true => check .pass "the resolved dig-node answered".toList
  | some false =>
      (check .warn
        "the gateway is up but no dig-node is reachable - content will 502".toList).withFix
        ("start your dig-node (localhost:9778) or point at one with `--node` / ".toList ++
          "DIG_NODE_URL".toList)
  | none => check .info "not determined (the gateway did not answer /.dig/health)".toList

/-- `evaluate_secure_upstream` -/
def evaluateSecureUpstream (enabled : Bool) (tier : Option Tier) (error : Option Str) : Check :=
  let check := Check.new "secure_upstream" "Encrypted upstream resolution (rpc.dig.net)"
  if !enabled then
    check .info
      ("disabled by config (DIG_DNS_SECURE_UPSTREAM=off) - the OS resolver is used, as ".toList ++
        "before".toList)
  else
    match error with
    | some reason =>
        (check .fail ("resolution failed: ".toList ++ reason)).withFix
          ("check network connectivity - Mullvad/Quad9 DoH/DoT and the OS resolver were all ".toList ++
            "unreachable".toList)
    | none =>
        match tier with
        | some tier => check .pass ("answered by ".toList ++ tier.fmt ++ " (encrypted)".toList)
        | none =>
            (check .warn
              ("degraded: every encrypted tier (Mullvad DoH/DoT, Quad9 DoT) failed - fell ".toList ++
                "back to the OS resolver (the lookup itself was plaintext; the ".toList ++
                "rpc.dig.net connection it enables is still TLS-authenticated)".toList)).withFix
              ("check whether this network blocks DoH/DoT (common on some corporate/hotel ".toList ++
                "networks)".toList)

/-! ## Probes -/

/-- What the diagnosis asks of the machine. -/
inductive DoctorCall
  /-- Bind a UDP socket to a free port of an address. -/
  | bindUdp (ip : Ipv4Addr)
  /-- Send a datagram and wait for one back; at most 1500 bytes of it are read. -/
  | exchangeUdp (server : Ipv4Addr × UInt16) (query : List UInt8)
  /-- A `GET` at the loopback address. -/
  | get (port : UInt16) (path : Str)
  | os (call : OsConfig.Call)
  | dns (call : SecureDns.DnsCall)

/-- The answers, if they come in time. -/
abbrev DoctorAnswer : DoctorCall → Type
  | .bindUdp _ => Bool
  | .exchangeUdp _ _ => Option (List UInt8)
  | .get _ _ => Option Reply
  | .os call => OsConfig.Answer call
  | .dns call => SecureDns.DnsAnswer call

/-- A program of the diagnosis. -/
abbrev DoctorProg := Prog DoctorAnswer

/-- An event of a diagnosis. -/
abbrev DoctorEvent := Event DoctorAnswer

/-- A program of the configuration runs in the diagnosis. -/
def onOs {α : Type} (p : OsConfig.OsProg α) : DoctorProg α :=
  p.interpret fun call => .ask (.os call) .ret

/-- So does a lookup. -/
def onDns {α : Type} (p : SecureDns.DnsProg α) : DoctorProg α :=
  p.interpret fun call => .ask (.dns call) .ret

/-- `serde_json`, reading text and bytes and printing a value. -/
structure JsonText where
  fromStr : Str → Option Serde.Value
  fromSlice : List UInt8 → Option Serde.Value
  print : Serde.Value → Str

/-- The name that the probes ask for. -/
def probeName (tld : Str) : Str := "doctor-probe.".toList ++ tld

/-- `probe_dns` -/
def probeDns (ip : Ipv4Addr) (port : UInt16) (tld : Str) : DoctorProg (Option Ipv4Addr) := do
  match ← Prog.ask (.exchangeUdp (ip, port) (Dns.buildAQuery (probeName tld))) .ret with
  | none => return none
  | some answer => return Dns.parseFirstAIpv4 answer

/-- `probe_os_routing` -/
def probeOsRouting (tld : Str) : DoctorProg (List IpAddr) := do
  let resolved ← onOs (OsConfig.call (.toSocketAddrs (probeName tld ++ ":0".toList)))
  return resolved.toOption.getD []

/-- The loop of `probe_gateway`, over the ports that are left. -/
def firstAnswering : List UInt16 → DoctorProg (Option UInt16)
  | [] => return none
  | port :: ports => do
      match ← Prog.ask (.get port resolveProbePath) .ret with
      | none => firstAnswering ports
      | some r => if r.status = 204 then return some port else firstAnswering ports

/-- `probe_gateway` -/
def probeGateway (primary fallback : UInt16) : DoctorProg (Option UInt16) :=
  firstAnswering [primary, fallback]

/-- `node.reachable` of a health report. -/
def nodeReachable (health : Serde.Value) : Option Bool := do
  let node ← health.get "node".toList
  let reachable ← node.get "reachable".toList
  reachable.asBool

/-- `probe_node` -/
def probeNode (json : JsonText) (port : UInt16) : DoctorProg (Option Bool) := do
  match ← Prog.ask (.get port healthPath) .ret with
  | none => return none
  | some r => return (json.fromSlice r.body).bind nodeReachable

/-- The node is only asked about behind a port that answered. -/
def probeNodeBehind (json : JsonText) : Option UInt16 → DoctorProg (Option Bool)
  | some port => probeNode json port
  | none => return none

/-- `probe_secure_upstream` -/
def probeSecureUpstream (build : SecureDns.TokioResolver → Except Str Unit) (config : Config) :
    DoctorProg Check :=
  if !config.secureUpstream then return evaluateSecureUpstream false none none
  else
    match SecureDns.SecureResolver.new build with
    | .error e => return evaluateSecureUpstream true none (some e)
    | .ok resolver => do
        match ← onDns (SecureDns.resolveScoped resolver SecureDns.upstreamHost) with
        | .ok (tier, _) => return evaluateSecureUpstream true tier none
        | .error e => return evaluateSecureUpstream true none (some e)

/-! ### What the browsers are told -/

/-- `reg_query` -/
def regQuery (key value : Str) : DoctorProg (Option Str) := do
  match ← onOs (OsConfig.call (.spawn "reg".toList
    ["query".toList, key, "/v".toList, value])) with
  | .error _ => return none
  | .ok exit =>
      let line := (lines exit.stdout).find? fun l => strContains l value
      return line.bind fun l => (splitWhitespace l).getLast?

/-- `defaults_read` -/
def defaultsRead (domain key : Str) : DoctorProg (Option Str) := do
  match ← onOs (OsConfig.call (.spawn "defaults".toList ["read".toList, domain, key])) with
  | .error _ => return none
  | .ok exit => return if exit.success then some (trim exit.stdout) else none

/-- The loop of `scan_json_dir_for`. -/
def scanJsonFiles (json : JsonText) (dir key : Str) : List Str → DoctorProg (Option Str)
  | [] => return none
  | name :: names => do
      match ← onOs (OsConfig.call (.readToString (OsConfig.join dir name))) with
      | .error _ => scanJsonFiles json dir key names
      | .ok text =>
          match (json.fromStr text).bind (Serde.Value.get key) with
          | some v => return some (json.print v)
          | none => scanJsonFiles json dir key names

/-- `scan_json_dir_for` -/
def scanJsonDirFor (json : JsonText) (dir key : Str) : DoctorProg (Option Str) := do
  match ← onOs (OsConfig.call (.readDir dir)) with
  | .error _ => return none
  | .ok entries => scanJsonFiles json dir key entries

/-- `DnsOverHttpsMode` -/
def dohMode : Str := "DnsOverHttpsMode".toList

/-- What is found at each of some places, with a label before it. -/
def collectFound (look : Str → DoctorProg (Option Str)) :
    List (Str × Str) → DoctorProg (List Str)
  | [] => return []
  | (label, place) :: places => do
      let v ← look place
      let rest ← collectFound look places
      return (v.map fun v => label ++ dohMode ++ '=' :: v).toList ++ rest

/-- `read_browser_doh_policy` -/
def readBrowserDohPolicy (json : JsonText) (os : Os) : DoctorProg (List Str) :=
  match os with
  | .windows => collectFound (fun key => regQuery key dohMode) [
      ("Chrome ".toList, "HKLM\\SOFTWARE\\Policies\\Google\\Chrome".toList),
      ("Edge ".toList, "HKLM\\SOFTWARE\\Policies\\Microsoft\\Edge".toList)]
  | .macos => collectFound (fun domain => defaultsRead domain dohMode) [
      ("Chrome ".toList, "/Library/Managed Preferences/com.google.Chrome".toList),
      ("Edge ".toList, "/Library/Managed Preferences/com.microsoft.Edge".toList)]
  | _ => collectFound (fun dir => scanJsonDirFor json dir dohMode) [
      ("/etc/opt/chrome/policies/managed: ".toList, "/etc/opt/chrome/policies/managed".toList),
      ("/etc/chromium/policies/managed: ".toList, "/etc/chromium/policies/managed".toList),
      ("/etc/opt/edge/policies/managed: ".toList, "/etc/opt/edge/policies/managed".toList)]

/-- The check of `check_browser_doh`, from what was found. -/
def evaluateBrowserDoh (found : List Str) : Check :=
  let check := Check.new "browser_doh" "Browser DNS-over-HTTPS / built-in-resolver policy" .info
  if found = [] then
    check ("no managed DoH policy found; browsers may auto-enable DoH, which bypasses OS ".toList ++
      "split-DNS (Path A) - Path B (the PAC proxy) is the reliable fallback".toList)
  else check (List.intercalate "; ".toList found)

/-- `check_browser_doh` -/
def checkBrowserDoh (json : JsonText) (os : Os) : DoctorProg Check := do
  return evaluateBrowserDoh (← readBrowserDohPolicy json os)

/-! ### Who holds the port -/

/-- A line has `:<port>` where no further digit follows; two such places do not overlap. -/
def namesPort (port : UInt16) : Str → Bool
  | [] => false
  | c :: s =>
      ((colonPort port).isPrefixOf (c :: s) &&
        !((c :: s).drop (colonPort port).length).head?.any Char.isDigit) || namesPort port s

/-- The tool of `port_holder` and its arguments. -/
def portTool (os : Os) (port : UInt16) : Str × List Str :=
  match os with
  | .windows => ("netstat".toList, ["-ano".toList])
  | .macos => ("lsof".toList, ["-i".toList, colonPort port, "-sTCP:LISTEN".toList])
  | _ => ("ss".toList, ["-ltnp".toList])

/-- `port_holder` -/
def portHolder (os : Os) (port : UInt16) : DoctorProg (Option Str) := do
  match ← onOs (OsConfig.call (.spawn (portTool os port).1 (portTool os port).2)) with
  | .error _ => return none
  | .ok exit =>
      return ((lines exit.stdout).find? (namesPort port)).map fun l =>
        List.intercalate [' '] (splitWhitespace l)

/-- `check_port_holder` -/
def checkPortHolder (os : Os) (primary : UInt16) (answeredPort : Option UInt16) :
    DoctorProg Check := do
  let check := Check.new "port80_holder" "Primary HTTP port holder" .info
  if answeredPort = some primary then
    return check ("dig-dns holds ".toList ++ colonPort primary)
  else
    let holder := (← portHolder os primary).getD "unknown".toList
    return (check (colonPort primary ++ " appears held by another process (".toList ++ holder ++
      "); dig-dns uses the fallback".toList)).withFix
      ("free ".toList ++ colonPort primary ++
        " or keep the fallback - the PAC advertises the actual bound port".toList)

/-! ## The whole diagnosis -/

/-- `run` -/
def run (json : JsonText) (build : SecureDns.TokioResolver → Except Str Unit) (os : Os)
    (config : Config) : DoctorProg Report := do
  let ip := config.loopbackIp
  let bindable ← Prog.ask (.bindUdp ip) .ret
  let dnsAnswer ← probeDns ip config.dnsPort config.tld
  let resolved ← probeOsRouting config.tld
  let present ← onOs (OsConfig.isConfigured os config)
  let answeredPort ← probeGateway config.httpPort config.httpFallbackPort
  let reachable ← probeNodeBehind json answeredPort
  let browserDoh ← checkBrowserDoh json os
  let holder ← checkPortHolder os config.httpPort answeredPort
  let secureUpstream ← probeSecureUpstream build config
  return .build [
    evaluateLoopback ip bindable,
    evaluateDnsDirect ip dnsAnswer,
    evaluateOsRouting ip resolved,
    evaluateOsConfig present,
    evaluateGateway config.httpPort config.httpFallbackPort answeredPort,
    evaluateNode reachable,
    browserDoh,
    holder,
    secureUpstream]

end DigDns.Doctor
