import DigDns.OsConfig

/-!
# The install plan

`build_plan` of `service.rs` writes the settings of the installing invocation
into the environment of the service, from where `from_env` reads them again.
Three settings are not written: the `dig.local` address and port and the
encrypted-upstream toggle.  The service gets the same configuration exactly
when these three have their defaults.
-/

namespace DigDns

open Rust
open OsConfig (join)

/-- `SERVICE_LABEL`. -/
def serviceLabel : Str := "net.dignetwork.dig-dns".toList

/-- `SERVICE_DISPLAY_NAME`. -/
def serviceDisplayName : Str := "DIG NETWORK: DNS".toList

/-- `LINUX_PROGRAM_DIR` -/
def linuxProgramDir : Str := "/usr/local/lib/dig-dns".toList

/-- `LINUX_PROGRAM_NAME` -/
def linuxProgramName : Str := "dig-dns".toList

/-- `linux_program_dest` -/
def linuxProgramDest : Str := join linuxProgramDir linuxProgramName

theorem linuxProgramDest_eq : linuxProgramDest = "/usr/local/lib/dig-dns/dig-dns".toList := by
  decide

/-- What to register with the service manager. -/
structure InstallPlan where
  label : Str
  displayName : Str
  program : Str
  args : List Str
  environment : List (Str × Str)
  autostart : Bool

/-- The settings that every plan bakes in. -/
def bakedSettings (cfg : Config) : List (Str × Str) := [
  (envIp, cfg.loopbackIp.fmt),
  (envDnsPort, fmtNat cfg.dnsPort.toNat),
  (envHttpPort, fmtNat cfg.httpPort.toNat),
  (envHttpFallbackPort, fmtNat cfg.httpFallbackPort.toNat),
  (envTld, cfg.tld),
  (envDnsTtl, fmtNat cfg.dnsTtlSecs.toNat)]

/-- `build_plan`, with `cfg!(windows)` as its first argument. -/
def buildPlan (windows : Bool) (config : Config) (program : Str) : InstallPlan :=
  let entryArg := if windows then "run-service".toList else "serve".toList
  let environment := bakedSettings config
  -- Only an explicit node override is recorded.
  let environment :=
    match config.nodeUrl with
    | some url => if trim url ≠ [] then environment ++ [(envNodeUrl, trim url)] else environment
    | none => environment
  { label := serviceLabel
    displayName := serviceDisplayName
    program
    args := [entryArg]
    environment
    autostart := true }

/-- The variables that the service finds in its environment. -/
def InstallPlan.lookup (plan : InstallPlan) (key : Str) : Option Str :=
  plan.environment.lookup key

/-! ## Settings print and parse back -/

theorem parseIp_fmt (key : Str) (ip : Ipv4Addr) : parseIp key ip.fmt = .ok ip := by
  rw [parseIp, Ipv4Addr.trim_fmt, Ipv4Addr.parse_fmt]

theorem parsePort_fmt (key : Str) {port : UInt16} (hport : port ≠ 0) :
    parsePort key (fmtNat port.toNat) = .ok port := by
  rw [parsePort, trim_fmtNat, parseU16_fmtNat]
  simp [hport]

theorem parseTtl_fmt (key : Str) (ttl : UInt32) : parseTtl key (fmtNat ttl.toNat) = .ok ttl := by
  rw [parseTtl, trim_fmtNat, parseU32_fmtNat]

theorem resolveNodeOverride_env (v : Option Str) :
    resolveNodeOverride none v none = v.bind fun v => if trim v ≠ [] then some (trim v) else none := by
  cases v with
  | none => rfl
  | some v => by_cases h : trim v = [] <;> simp [resolveNodeOverride, h]

/-- A node override as `load_config` leaves it: trimmed, and not blank. -/
def IsTrimmed (nodeUrl : Option Str) : Prop :=
  ∀ url ∈ nodeUrl, trim url = url ∧ url ≠ []

theorem isTrimmed_resolveNodeOverride (v : Option Str) :
    IsTrimmed (resolveNodeOverride none v none) := by
  rw [resolveNodeOverride_env]
  intro url hurl
  cases v with
  | none => cases hurl
  | some v =>
      by_cases h : trim v = []
      · simp [h] at hurl
      · simp only [Option.bind_some, ne_eq, h, not_false_eq_true, if_true, Option.mem_def,
          Option.some.injEq] at hurl
        subst hurl
        exact ⟨trim_trim v, h⟩

/-! ## What the service resolves -/

/-- A configuration with the settings that the plan leaves out at their defaults. -/
def Config.baked (cfg : Config) : Config :=
  { cfg with
    digLocalIp := defaultDigLocalIp
    digLocalPort := defaultDigLocalPort
    secureUpstream := true }

theorem Config.baked_eq_iff (cfg : Config) :
    cfg.baked = cfg ↔ cfg.digLocalIp = defaultDigLocalIp ∧
      cfg.digLocalPort = defaultDigLocalPort ∧ cfg.secureUpstream = true := by
  cases cfg
  simp [baked, eq_comm]

theorem Config.Valid.baked {cfg : Config} (h : cfg.Valid) : cfg.baked.Valid := by
  refine ⟨h.loopbackIp, rfl, ?_, h.tld, h.nodeUrl⟩
  have hports := h.ports
  simp only [Config.ports, List.forall_mem_cons] at hports ⊢
  exact ⟨hports.1, hports.2.1, hports.2.2.1, show defaultDigLocalPort ≠ 0 by decide,
    List.forall_mem_nil _⟩

/-- What an install plan sets, but for the node's address. -/
theorem InstallPlan.lookup_of_ne (windows : Bool) (cfg : Config) (program key : Str)
    (hkey : key ≠ envNodeUrl) :
    (buildPlan windows cfg program).lookup key = (bakedSettings cfg).lookup key := by
  have hbeq : (key == envNodeUrl) = false := beq_eq_false_iff_ne.mpr hkey
  simp only [InstallPlan.lookup, buildPlan, bakedSettings]
  cases cfg.nodeUrl with
  | none => rfl
  | some url =>
      by_cases h : trim url = []
      · simp [h]
      · simp [h, List.lookup_cons, hbeq]

/-- The node's address comes through, where trimming leaves it alone. -/
theorem InstallPlan.lookup_nodeUrl (windows : Bool) {cfg : Config} (program : Str)
    (hurl : IsTrimmed cfg.nodeUrl) :
    (buildPlan windows cfg program).lookup envNodeUrl = cfg.nodeUrl := by
  simp only [InstallPlan.lookup, buildPlan]
  cases h : cfg.nodeUrl with
  | none => rfl
  | some url =>
      obtain ⟨htrim, hne⟩ := hurl url h
      simp only [htrim, hne, ne_eq, not_false_eq_true, if_true]
      rfl

/-- The service resolves the configuration it was installed from, but for the
settings that are left out. -/
theorem resolves_lookup (windows : Bool) {cfg : Config} (program : Str) (hvalid : cfg.Valid)
    (hurl : IsTrimmed cfg.nodeUrl) :
    Resolves (buildPlan windows cfg program).lookup cfg.baked := by
  have hports := hvalid.ports
  simp only [Config.ports, List.forall_mem_cons] at hports
  obtain ⟨hdns, hhttp, hfallback, -⟩ := hports
  have hlookup := InstallPlan.lookup_of_ne windows cfg program
  constructor
  · rw [overlay, hlookup envIp (by decide)]
    exact parseIp_fmt _ _
  · rw [overlay, hlookup envDnsPort (by decide)]
    exact parsePort_fmt _ hdns
  · rw [overlay, hlookup envHttpPort (by decide)]
    exact parsePort_fmt _ hhttp
  · rw [overlay, hlookup envHttpFallbackPort (by decide)]
    exact parsePort_fmt _ hfallback
  · rw [hlookup envTld (by decide)]
    exact normalizeTld_of_isSafeTld hvalid.tld
  · rw [overlay, hlookup envDnsTtl (by decide)]
    exact parseTtl_fmt _ _
  · rw [InstallPlan.lookup_nodeUrl windows program hurl, resolveNodeOverride_env]
    cases h : cfg.nodeUrl with
    | none => exact h.symm
    | some url =>
        obtain ⟨htrim, hne⟩ := hurl url h
        simp [Config.baked, h, htrim, hne]
  · rw [overlay, hlookup envDigLocalIp (by decide)]
    rfl
  · rw [overlay, hlookup envDigLocalPort (by decide)]
    rfl
  · rw [overlay, hlookup envSecureUpstream (by decide)]
    rfl

theorem fromEnv_lookup (windows : Bool) {cfg : Config} (program : Str) (hvalid : cfg.Valid)
    (hurl : IsTrimmed cfg.nodeUrl) :
    fromEnv (buildPlan windows cfg program).lookup = .ok cfg.baked :=
  (fromEnv_eq_ok_iff _ _).mpr ⟨resolves_lookup windows program hvalid hurl, hvalid.baked⟩

/-! ## What the installing invocation resolved -/

/-- A loaded configuration is valid, and differs from what the environment
says at most in the node override, which is trimmed. -/
theorem of_loadConfig {env : Str → Option Str} {nodeFlag : Option Str} {cfg : Config}
    (h : loadConfig env nodeFlag = .ok cfg) :
    cfg.Valid ∧ IsTrimmed cfg.nodeUrl ∧
      ∃ base, Resolves env base ∧ { base with nodeUrl := cfg.nodeUrl } = cfg := by
  simp only [loadConfig, bind_eq_ok_iff, mapError_eq_ok_iff, fromEnv_eq_ok_iff] at h
  obtain ⟨base, ⟨hbase, -⟩, ⟨⟩, hvalid, hcfg⟩ := h
  rw [Except.ok.inj hcfg] at hvalid
  refine ⟨(Config.validate_eq_ok_iff cfg).mp hvalid, ?_, base, hbase, ?_⟩
  · have htrimmed : IsTrimmed base.nodeUrl := by
      rw [← hbase.nodeUrl]
      exact isTrimmed_resolveNodeOverride _
    have hcfg := Except.ok.inj hcfg
    subst hcfg
    cases nodeFlag with
    | none => exact htrimmed
    | some url =>
        by_cases hblank : trim url = []
        · simpa [hblank] using htrimmed
        · intro url' hurl'
          simp only [ne_eq, hblank, not_false_eq_true, if_true, Option.mem_def,
            Option.some.injEq] at hurl'
          subst hurl'
          exact ⟨trim_trim url, hblank⟩
  · have hcfg := Except.ok.inj hcfg
    subst hcfg
    cases nodeFlag with
    | none => rfl
    | some url => by_cases hblank : trim url = [] <;> simp [hblank]

/-- A variable resolves to the default when it is unset or spells it. -/
theorem overlay_eq_default_iff {α : Type} {get : Str → Option Str} {key : Str} {field : α}
    {parse : Str → Str → Except ConfigError α} :
    overlay get key field parse = .ok field ↔
      ∀ v, get key = some v → parse key v = .ok field := by
  rw [overlay]
  cases get key <;> simp

theorem parseIp_eq_ok_iff {key v : Str} {ip : Ipv4Addr} :
    parseIp key v = .ok ip ↔ Ipv4Addr.parse (trim v) = some ip := by
  rw [parseIp]
  cases Ipv4Addr.parse (trim v) <;> simp

theorem parsePort_eq_ok_iff {key v : Str} {port : UInt16} (hport : port ≠ 0) :
    parsePort key v = .ok port ↔ parseU16 (trim v) = some port := by
  rw [parsePort]
  cases parseU16 (trim v) with
  | none => simp
  | some p =>
      by_cases hp : p = 0
      · subst hp
        simpa using hport.symm
      · simp [hp]

theorem parseSecureUpstream_eq_true_iff {v : Str} :
    parseSecureUpstream v = .ok true ↔ toAsciiLowercase (trim v) = "on".toList := by
  rw [parseSecureUpstream]
  split_ifs <;> simp_all

/-- The installed service resolves the configuration of the invocation that
installed it exactly when the three variables that the plan leaves out are
unset or name their defaults. -/
theorem fromEnv_buildPlan_iff (windows : Bool) (env : Str → Option Str) (nodeFlag : Option Str)
    (program : Str) (cfg : Config) (hload : loadConfig env nodeFlag = .ok cfg) :
    fromEnv (buildPlan windows cfg program).lookup = .ok cfg ↔
      (∀ v, env envDigLocalIp = some v → Ipv4Addr.parse (trim v) = some ⟨127, 0, 0, 2⟩) ∧
      (∀ v, env envDigLocalPort = some v → parseU16 (trim v) = some 80) ∧
      (∀ v, env envSecureUpstream = some v → toAsciiLowercase (trim v) = "on".toList) := by
  obtain ⟨hvalid, hurl, base, hbase, hcfg⟩ := of_loadConfig hload
  have hip : cfg.digLocalIp = base.digLocalIp := by rw [← hcfg]
  have hport : cfg.digLocalPort = base.digLocalPort := by rw [← hcfg]
  have hsecure : cfg.secureUpstream = base.secureUpstream := by rw [← hcfg]
  rw [fromEnv_lookup windows program hvalid hurl, Except.ok.injEq, Config.baked_eq_iff, hip, hport,
    hsecure]
  refine and_congr ?_ (and_congr ?_ ?_)
  · have hoverlay := hbase.digLocalIp
    calc
      base.digLocalIp = defaultDigLocalIp
          ↔ overlay env envDigLocalIp defaultDigLocalIp parseIp = .ok defaultDigLocalIp := by
            rw [hoverlay, Except.ok.injEq]
      _ ↔ ∀ v, env envDigLocalIp = some v → Ipv4Addr.parse (trim v) = some defaultDigLocalIp := by
            simp only [overlay_eq_default_iff, parseIp_eq_ok_iff]
  · have hoverlay := hbase.digLocalPort
    calc
      base.digLocalPort = defaultDigLocalPort
          ↔ overlay env envDigLocalPort defaultDigLocalPort parsePort =
              .ok defaultDigLocalPort := by
            rw [hoverlay, Except.ok.injEq]
      _ ↔ ∀ v, env envDigLocalPort = some v → parseU16 (trim v) = some defaultDigLocalPort := by
            simp only [overlay_eq_default_iff,
              parsePort_eq_ok_iff (show defaultDigLocalPort ≠ 0 by decide)]
  · have hoverlay := hbase.secureUpstream
    calc
      base.secureUpstream = true
          ↔ overlay env envSecureUpstream true (fun _ v => parseSecureUpstream v) = .ok true := by
            rw [hoverlay, Except.ok.injEq]
      _ ↔ ∀ v, env envSecureUpstream = some v → toAsciiLowercase (trim v) = "on".toList := by
            simp only [overlay_eq_default_iff, parseSecureUpstream_eq_true_iff]

/-- An environment with settings of its own, three of which spell their defaults. -/
def homeEnv : Str → Option Str := fun key => List.lookup key [
  (envIp, "127.0.0.9".toList),
  (envTld, " .Home".toList),
  (envNodeUrl, "http://node.home:9778 ".toList),
  (envDigLocalIp, " 127.0.0.2".toList),
  (envDigLocalPort, "080".toList),
  (envSecureUpstream, "On".toList)]

/-- The configuration that it gives. -/
def homeConfig : Config := { Config.default with
  loopbackIp := ⟨127, 0, 0, 9⟩
  tld := "home".toList
  nodeUrl := some "http://node.home:9778".toList }

theorem loadConfig_homeEnv : loadConfig homeEnv none = .ok homeConfig := by
  decide +kernel

/-- The service that is installed from there resolves the same. -/
theorem fromEnv_buildPlan_home :
    fromEnv (buildPlan false homeConfig linuxProgramDest).lookup = .ok homeConfig := by
  refine (fromEnv_buildPlan_iff false homeEnv none _ homeConfig loadConfig_homeEnv).mpr
    ⟨?_, ?_, ?_⟩
  · rintro v ⟨⟩
    decide
  · rintro v ⟨⟩
    decide
  · rintro v ⟨⟩
    decide

/-- An environment that turns the encrypted upstream off. -/
def upstreamOff : Str → Option Str :=
  fun key => if key = envSecureUpstream then some "off".toList else none

/-- The service installed from it has the encrypted upstream on. -/
theorem fromEnv_buildPlan_upstreamOff :
    loadConfig upstreamOff none = .ok { Config.default with secureUpstream := false } ∧
      fromEnv (buildPlan false { Config.default with secureUpstream := false }
        linuxProgramDest).lookup = .ok Config.default ∧
      ({ Config.default with secureUpstream := false } : Config) ≠ Config.default := by
  have hload : loadConfig upstreamOff none =
      .ok { Config.default with secureUpstream := false } := by
    rfl
  obtain ⟨hvalid, hurl, -⟩ := of_loadConfig hload
  exact ⟨hload, fromEnv_lookup false _ hvalid hurl, by decide⟩

end DigDns
