import DigDns.Support.Ipv4
import DigDns.Support.Result

/-!
# Configuration

`config.rs`: every setting has a default and can be overridden by an
environment variable; the result is validated as a whole.  `loadConfig` of
`cli.rs` puts the `--node` flag on top.
-/

namespace DigDns

open Rust

/-! ## Defaults and keys -/

/-- `DEFAULT_LOOPBACK_IP`. -/
def defaultLoopbackIp : Ipv4Addr := ⟨127, 0, 0, 5⟩

/-- `DEFAULT_DNS_PORT`. -/
def defaultDnsPort : UInt16 := 53

/-- `DEFAULT_HTTP_PORT`. -/
def defaultHttpPort : UInt16 := 80

/-- `DEFAULT_HTTP_FALLBACK_PORT`. -/
def defaultHttpFallbackPort : UInt16 := 8053

/-- `DEFAULT_TLD`. -/
def defaultTld : Str := "dig".toList

/-- `DEFAULT_DNS_TTL_SECS`. -/
def defaultDnsTtlSecs : UInt32 := 2

/-- `DEFAULT_DIG_LOCAL_IP`. -/
def defaultDigLocalIp : Ipv4Addr := ⟨127, 0, 0, 2⟩

/-- `DEFAULT_DIG_LOCAL_PORT`. -/
def defaultDigLocalPort : UInt16 := 80

/-- `ENV_NODE_URL`. -/
def envNodeUrl : Str := "DIG_NODE_URL".toList

/-- `ENV_IP`. -/
def envIp : Str := "DIG_DNS_IP".toList

/-- `ENV_DNS_PORT`. -/
def envDnsPort : Str := "DIG_DNS_DNS_PORT".toList

/-- `ENV_HTTP_PORT`. -/
def envHttpPort : Str := "DIG_DNS_HTTP_PORT".toList

/-- `ENV_HTTP_FALLBACK_PORT`. -/
def envHttpFallbackPort : Str := "DIG_DNS_HTTP_FALLBACK_PORT".toList

/-- `ENV_TLD`. -/
def envTld : Str := "DIG_DNS_TLD".toList

/-- `ENV_DNS_TTL`. -/
def envDnsTtl : Str := "DIG_DNS_TTL".toList

/-- `ENV_DIG_LOCAL_IP`. -/
def envDigLocalIp : Str := "DIG_DNS_LOCAL_IP".toList

/-- `ENV_DIG_LOCAL_PORT`. -/
def envDigLocalPort : Str := "DIG_DNS_LOCAL_PORT".toList

/-- `ENV_SECURE_UPSTREAM`. -/
def envSecureUpstream : Str := "DIG_DNS_SECURE_UPSTREAM".toList

/-- A resolved configuration. -/
structure Config where
  loopbackIp : Ipv4Addr
  dnsPort : UInt16
  httpPort : UInt16
  httpFallbackPort : UInt16
  tld : Str
  dnsTtlSecs : UInt32
  nodeUrl : Option Str
  digLocalIp : Ipv4Addr
  digLocalPort : UInt16
  secureUpstream : Bool
deriving DecidableEq

/-- Errors from building or validating a configuration. -/
inductive ConfigError
  | invalidIp (key value : Str)
  | invalidPort (key value : Str)
  | invalidInt (key value : Str)
  | notLoopback (ip : Ipv4Addr)
  | emptyTld
  | invalidTldCharset (tld : Str)
  | invalidNodeUrl (url : Str)
  | invalidToggle (value : Str)
deriving DecidableEq

/-- `Display` of a `ConfigError`. -/
def ConfigError.message : ConfigError → Str
  | invalidIp key value =>
      key ++ ": '".toList ++ value ++ "' is not a valid IPv4 address".toList
  | invalidPort key value =>
      key ++ ": '".toList ++ value ++ "' is not a valid port (1-65535)".toList
  | invalidInt key value =>
      key ++ ": '".toList ++ value ++ "' is not a valid integer".toList
  | notLoopback ip =>
      "bind IP ".toList ++ ip.fmt ++
        " is not a loopback address (must be in 127.0.0.0/8)".toList
  | emptyTld => "TLD must not be empty".toList
  | invalidTldCharset tld =>
      "TLD '".toList ++ tld ++
        "' must contain only lowercase letters, digits, and hyphens ([a-z0-9-])".toList
  | invalidNodeUrl url =>
      "node URL '".toList ++ url ++ "' must not contain control characters or newlines".toList
  | invalidToggle value =>
      "DIG_DNS_SECURE_UPSTREAM: '".toList ++ value ++ "' is not 'on' or 'off'".toList

/-- `Config::default`. -/
def Config.default : Config where
  loopbackIp := defaultLoopbackIp
  dnsPort := defaultDnsPort
  httpPort := defaultHttpPort
  httpFallbackPort := defaultHttpFallbackPort
  tld := defaultTld
  dnsTtlSecs := defaultDnsTtlSecs
  nodeUrl := none
  digLocalIp := defaultDigLocalIp
  digLocalPort := defaultDigLocalPort
  secureUpstream := true

/-! ## Validation -/

/-- `normalize_tld` -/
def normalizeTld (raw : Str) : Str :=
  toAsciiLowercase ((stripPrefix ['.'] (trim raw)).getD (trim raw))

/-- `is_safe_tld` -/
def isSafeTld (tld : Str) : Bool :=
  tld ≠ [] && (utf8 tld).all fun b =>
    (97 ≤ b.toNat && b.toNat ≤ 122) || (48 ≤ b.toNat && b.toNat ≤ 57) || b == 45

/-- Every character of a safe TLD is a small letter, a digit or a hyphen. -/
theorem range_of_isSafeTld {tld : Str} (h : isSafeTld tld = true) {c : Char} (hc : c ∈ tld) :
    (97 ≤ c.toNat ∧ c.toNat ≤ 122) ∨ (48 ≤ c.toNat ∧ c.toNat ≤ 57) ∨ c = '-' := by
  simp only [isSafeTld, Bool.and_eq_true, List.all_eq_true, Bool.or_eq_true, decide_eq_true_eq,
    beq_iff_eq] at h
  have hbytes := h.2
  have hascii : ∀ c ∈ tld, c.toNat < 128 := by
    refine ascii_of_utf8 fun b hb => ?_
    rcases hbytes b hb with (hrange | hrange) | rfl
    · omega
    · omega
    · decide
  rw [utf8_of_ascii hascii] at hbytes
  have hlt := hascii c hc
  have hnat : (UInt8.ofNat c.toNat).toNat = c.toNat := by
    rw [UInt8.toNat_ofNat', Nat.mod_eq_of_lt (by omega)]
  rcases hbytes _ (List.mem_map_of_mem hc) with (hrange | hrange) | hhyphen
  · exact Or.inl (by omega)
  · exact Or.inr (Or.inl (by omega))
  · refine Or.inr (Or.inr (Char.toNat_inj.mp ?_))
    rw [← hnat, hhyphen]
    rfl

/-- The characters of a TLD. -/
def tldChars : Str := "abcdefghijklmnopqrstuvwxyz0123456789-".toList

/-- What holds of each of them holds of every character of a safe TLD. -/
theorem forall_mem_of_isSafeTld {tld : Str} {P : Char → Prop} (h : isSafeTld tld = true)
    (hchars : ∀ c ∈ tldChars, P c) : ∀ c ∈ tld, P c := by
  intro c hc
  apply hchars
  have hmem : ∀ n : Fin 123, (97 ≤ n.val ∨ (48 ≤ n.val ∧ n.val ≤ 57)) →
      Char.ofNat n.val ∈ tldChars := by
    decide
  rcases range_of_isSafeTld h hc with hrange | hrange | rfl
  · have hfound := hmem ⟨c.toNat, by omega⟩ (Or.inl hrange.1)
    rwa [Char.ofNat_toNat] at hfound
  · have hfound := hmem ⟨c.toNat, by omega⟩ (Or.inr hrange)
    rwa [Char.ofNat_toNat] at hfound
  · decide

theorem ne_nil_of_isSafeTld {tld : Str} (h : isSafeTld tld = true) : tld ≠ [] := by
  rintro rfl
  cases h

/-- A safe TLD is its own normal form. -/
theorem normalizeTld_of_isSafeTld {tld : Str} (h : isSafeTld tld = true) :
    normalizeTld tld = tld := by
  have htrim : trim tld = tld := by
    apply trim_of_no_whitespace
    intro c hc
    simp only [isWhitespace, Bool.or_eq_false_iff, Bool.and_eq_false_iff,
      decide_eq_false_iff_not, beq_eq_false_iff_ne]
    rcases range_of_isSafeTld h hc with hrange | hrange | rfl
    · omega
    · omega
    · decide
  have hdot : stripPrefix ['.'] tld = none := by
    cases tld with
    | nil => rfl
    | cons c s =>
        have hne : '.' ≠ c := by
          rintro rfl
          rcases range_of_isSafeTld h List.mem_cons_self with hrange | hrange | heq
          · exact absurd hrange (by decide)
          · exact absurd hrange (by decide)
          · exact absurd heq (by decide)
        simp [stripPrefix, List.isPrefixOf, hne]
  rw [normalizeTld, htrim, hdot, Option.getD_none]
  apply toAsciiLowercase_of_no_upper
  intro c hc
  rcases range_of_isSafeTld h hc with hrange | hrange | rfl
  · omega
  · omega
  · decide

/-- `is_safe_node_url` -/
def isSafeNodeUrl (url : Str) : Bool :=
  !(utf8 url).any fun b => b.toNat < 0x20 || b == 0x7f

/-- The ports that `validate` looks at, with their keys. -/
def Config.ports (cfg : Config) : List (Str × UInt16) :=
  [(envDnsPort, cfg.dnsPort), (envHttpPort, cfg.httpPort),
    (envHttpFallbackPort, cfg.httpFallbackPort), (envDigLocalPort, cfg.digLocalPort)]

/-- `Config::validate` -/
def Config.validate (cfg : Config) : Except ConfigError Unit :=
  if !cfg.loopbackIp.isLoopback then .error (.notLoopback cfg.loopbackIp)
  else if !cfg.digLocalIp.isLoopback then .error (.notLoopback cfg.digLocalIp)
  else
    match cfg.ports.find? fun p => p.2 == 0 with
    | some (key, _) => .error (.invalidPort key "0".toList)
    | none =>
        if cfg.tld = [] then .error .emptyTld
        else if !isSafeTld cfg.tld then .error (.invalidTldCharset cfg.tld)
        else
          match cfg.nodeUrl with
          | some url => if !isSafeNodeUrl url then .error (.invalidNodeUrl url) else .ok ()
          | none => .ok ()

/-- What `validate` asks of a configuration. -/
structure Config.Valid (cfg : Config) : Prop where
  loopbackIp : cfg.loopbackIp.isLoopback = true
  digLocalIp : cfg.digLocalIp.isLoopback = true
  ports : ∀ p ∈ cfg.ports, p.2 ≠ 0
  tld : isSafeTld cfg.tld = true
  nodeUrl : ∀ url ∈ cfg.nodeUrl, isSafeNodeUrl url = true

theorem Config.validate_eq_ok_iff (cfg : Config) : cfg.validate = .ok () ↔ cfg.Valid := by
  constructor
  · intro h
    have hip : cfg.loopbackIp.isLoopback = true := by
      rw [← Bool.not_eq_false]
      intro hip
      simp [validate, hip] at h
    have hlocal : cfg.digLocalIp.isLoopback = true := by
      rw [← Bool.not_eq_false]
      intro hlocal
      simp [validate, hip, hlocal] at h
    have hports : cfg.ports.find? (fun p => p.2 == 0) = none := by
      cases hfind : cfg.ports.find? fun p => p.2 == 0 with
      | none => rfl
      | some p => simp [validate, hip, hlocal, hfind] at h
    have hempty : cfg.tld ≠ [] := by
      intro hempty
      simp [validate, hip, hlocal, hports, hempty] at h
    have htld : isSafeTld cfg.tld = true := by
      rw [← Bool.not_eq_false]
      intro htld
      simp [validate, hip, hlocal, hports, hempty, htld] at h
    refine ⟨hip, hlocal, by simpa using hports, htld, ?_⟩
    intro url hurl
    rw [← Bool.not_eq_false]
    intro hbad
    rw [Option.mem_def] at hurl
    simp [validate, hip, hlocal, hports, hempty, htld, hurl, hbad] at h
  · rintro ⟨hip, hlocal, hports, htld, hurl⟩
    have hfind : cfg.ports.find? (fun p => p.2 == 0) = none := by
      simpa using hports
    have hempty := ne_nil_of_isSafeTld htld
    rw [validate, hfind]
    simp only [hip, hlocal, Bool.not_true, Bool.false_eq_true, if_false, hempty, htld]
    cases h : cfg.nodeUrl with
    | none => rfl
    | some url => simp [hurl url h]

/-! ## From the environment -/

/-- `resolve_node_override` -/
def resolveNodeOverride (flag env file : Option Str) : Option Str :=
  (([flag, env, file].filterMap id).map trim).find? fun v => v ≠ []

/-- `parse_port` -/
def parsePort (key value : Str) : Except ConfigError UInt16 :=
  match parseU16 (trim value) with
  | some p => if p ≠ 0 then .ok p else .error (.invalidPort key value)
  | none => .error (.invalidPort key value)

/-- `parse_secure_upstream` -/
def parseSecureUpstream (value : Str) : Except ConfigError Bool :=
  if toAsciiLowercase (trim value) = "on".toList then .ok true
  else if toAsciiLowercase (trim value) = "off".toList then .ok false
  else .error (.invalidToggle value)

/-- The address parser that `from_env` applies to the two address variables. -/
def parseIp (key value : Str) : Except ConfigError Ipv4Addr :=
  match Ipv4Addr.parse (trim value) with
  | some ip => .ok ip
  | none => .error (.invalidIp key value)

/-- The integer parser that `from_env` applies to the TTL variable. -/
def parseTtl (key value : Str) : Except ConfigError UInt32 :=
  match parseU32 (trim value) with
  | some n => .ok n
  | none => .error (.invalidInt key value)

/-- `if let Some(v) = get(key) { field = parse(key, &v)? }`: a variable that is
not set leaves the default. -/
def overlay {α : Type} (get : Str → Option Str) (key : Str) (field : α)
    (parse : Str → Str → Except ConfigError α) : Except ConfigError α :=
  match get key with
  | none => .ok field
  | some v => parse key v

/-- `from_env` -/
def fromEnv (get : Str → Option Str) : Except ConfigError Config := do
  let cfg := Config.default
  let loopbackIp ← overlay get envIp cfg.loopbackIp parseIp
  let dnsPort ← overlay get envDnsPort cfg.dnsPort parsePort
  let httpPort ← overlay get envHttpPort cfg.httpPort parsePort
  let httpFallbackPort ← overlay get envHttpFallbackPort cfg.httpFallbackPort parsePort
  let tld := ((get envTld).map normalizeTld).getD cfg.tld
  let dnsTtlSecs ← overlay get envDnsTtl cfg.dnsTtlSecs parseTtl
  let nodeUrl := resolveNodeOverride none (get envNodeUrl) none
  let digLocalIp ← overlay get envDigLocalIp cfg.digLocalIp parseIp
  let digLocalPort ← overlay get envDigLocalPort cfg.digLocalPort parsePort
  let secureUpstream ← overlay get envSecureUpstream cfg.secureUpstream
    fun _ v => parseSecureUpstream v
  let cfg : Config := ⟨loopbackIp, dnsPort, httpPort, httpFallbackPort, tld, dnsTtlSecs,
    nodeUrl, digLocalIp, digLocalPort, secureUpstream⟩
  cfg.validate
  return cfg

/-- `load_config` of `cli.rs`, over the process environment. -/
def loadConfig (env : Str → Option Str) (nodeFlag : Option Str) : Except Str Config := do
  let cfg ← (fromEnv env).mapError ConfigError.message
  let cfg :=
    match nodeFlag with
    | some url => if trim url ≠ [] then { cfg with nodeUrl := some (trim url) } else cfg
    | none => cfg
  cfg.validate.mapError ConfigError.message
  return cfg

/-- The settings that an environment gives, before they are validated. -/
structure Resolves (get : Str → Option Str) (cfg : Config) : Prop where
  loopbackIp : overlay get envIp defaultLoopbackIp parseIp = .ok cfg.loopbackIp
  dnsPort : overlay get envDnsPort defaultDnsPort parsePort = .ok cfg.dnsPort
  httpPort : overlay get envHttpPort defaultHttpPort parsePort = .ok cfg.httpPort
  httpFallbackPort :
    overlay get envHttpFallbackPort defaultHttpFallbackPort parsePort = .ok cfg.httpFallbackPort
  tld : ((get envTld).map normalizeTld).getD defaultTld = cfg.tld
  dnsTtlSecs : overlay get envDnsTtl defaultDnsTtlSecs parseTtl = .ok cfg.dnsTtlSecs
  nodeUrl : resolveNodeOverride none (get envNodeUrl) none = cfg.nodeUrl
  digLocalIp : overlay get envDigLocalIp defaultDigLocalIp parseIp = .ok cfg.digLocalIp
  digLocalPort : overlay get envDigLocalPort defaultDigLocalPort parsePort = .ok cfg.digLocalPort
  secureUpstream :
    overlay get envSecureUpstream true (fun _ v => parseSecureUpstream v) =
      .ok cfg.secureUpstream

/-- `from_env` succeeds with a configuration exactly when every variable
resolves to its field and the whole is valid. -/
theorem fromEnv_eq_ok_iff (get : Str → Option Str) (cfg : Config) :
    fromEnv get = .ok cfg ↔ Resolves get cfg ∧ cfg.Valid := by
  simp only [fromEnv, bind_eq_ok_iff]
  constructor
  · rintro ⟨ip, hip, dns, hdns, http, hhttp, fallback, hfallback, ttl, httl, localIp, hlocalIp,
      localPort, hlocalPort, secure, hsecure, ⟨⟩, hvalid, hcfg⟩
    cases hcfg
    exact ⟨⟨hip, hdns, hhttp, hfallback, rfl, httl, rfl, hlocalIp, hlocalPort, hsecure⟩,
      (Config.validate_eq_ok_iff _).mp hvalid⟩
  · rintro ⟨⟨hip, hdns, hhttp, hfallback, htld, httl, hurl, hlocalIp, hlocalPort, hsecure⟩, hvalid⟩
    refine ⟨_, hip, _, hdns, _, hhttp, _, hfallback, _, httl, _, hlocalIp, _, hlocalPort, _,
      hsecure, (), ?_, ?_⟩
    · have : Config.default.tld = defaultTld := rfl
      rw [this, htld, hurl]
      exact (Config.validate_eq_ok_iff cfg).mpr hvalid
    · have : Config.default.tld = defaultTld := rfl
      rw [this, htld, hurl]
      rfl

end DigDns
