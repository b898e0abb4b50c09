import DigDns.Doctor

/-!
# The verdict

Nine checks are made in every run of the diagnosis, and three of the observations decide:
whether the loopback address can be bound, what the OS resolver says, and which port
answers the liveness probe.  Nothing that another probe finds changes the outcome.
-/

namespace DigDns.Doctor

open Rust Http Interaction
open OsConfig (IpAddr Os)
open SecureDns (Tier)

/-! ## Checks -/

/-- A check has its id, passes exactly if its link works, and says what to do if it is
not good. -/
structure Tells (id : String) (works : Prop) (c : Check) : Prop where
  id_eq : c.id = id.toList
  pass : c.status = .pass ↔ works
  helpful : c.status = .fail ∨ c.status = .warn → c.fix.isSome = true

section Evaluators

variable {id name : String} {works : Prop} {status : CheckStatus} {detail fix : Str}

theorem tells_pass (hworks : works) : Tells id works (.new id name .pass detail) where
  id_eq := rfl
  pass := iff_of_true rfl hworks
  helpful := by simp [Check.new]

theorem tells_info (hworks : ¬works) : Tells id works (.new id name .info detail) where
  id_eq := rfl
  pass := iff_of_false (by simp [Check.new]) hworks
  helpful := by simp [Check.new]

/-- A check with a fix is helpful, whatever its status. -/
theorem tells_withFix (hpass : status = .pass ↔ works) :
    Tells id works ((Check.new id name status detail).withFix fix) where
  id_eq := rfl
  pass := hpass
  helpful := fun _ => rfl

theorem tells_broken (hne : status ≠ .pass) (hworks : ¬works) :
    Tells id works ((Check.new id name status detail).withFix fix) :=
  tells_withFix (iff_of_false hne hworks)

theorem tells_loopback (ip : Ipv4Addr) (bindable : Bool) :
    Tells "loopback_ip" (bindable = true) (evaluateLoopback ip bindable) := by
  cases bindable with
  | true => exact tells_pass rfl
  | false => exact tells_broken (by decide) (by decide)

theorem tells_dnsDirect (expected : Ipv4Addr) (answered : Option Ipv4Addr) :
    Tells "dns_direct" (answered = some expected) (evaluateDnsDirect expected answered) := by
  cases answered with
  | none => exact tells_broken (by decide) (by simp)
  | some ip =>
      rw [evaluateDnsDirect]
      split_ifs with hsame
      · exact tells_pass (congrArg some hsame)
      · exact tells_broken (by decide) (by simpa using hsame)

theorem tells_osRouting (expected : Ipv4Addr) (resolved : List IpAddr) :
    Tells "os_routing" (.v4 expected ∈ resolved) (evaluateOsRouting expected resolved) := by
  rw [evaluateOsRouting]
  split_ifs with hmem
  · exact tells_pass (by simpa using hmem)
  · exact tells_broken (by decide) (by simpa using hmem)

theorem tells_osConfig (present : Option Bool) :
    Tells "os_config" False (evaluateOsConfig present) := by
  rcases present with _ | _ | _
  · exact tells_info id
  · exact tells_broken (by decide) id
  · exact tells_info id

theorem tells_gateway (primary fallback : UInt16) (answeredPort : Option UInt16) :
    Tells "gateway_port" (answeredPort.isSome = true)
      (evaluateGateway primary fallback answeredPort) := by
  cases answeredPort with
  | none => exact tells_broken (by decide) (by decide)
  | some port =>
      rw [evaluateGateway]
      split_ifs with hprimary
      · exact tells_pass rfl
      · exact tells_withFix (iff_of_true rfl rfl)

theorem tells_node (reachable : Option Bool) :
    Tells "node_reachable" (reachable = some true) (evaluateNode reachable) := by
  rcases reachable with _ | _ | _
  · exact tells_info (by decide)
  · exact tells_broken (by decide) (by decide)
  · exact tells_pass rfl

theorem tells_browserDoh (found : List Str) :
    Tells "browser_doh" False (evaluateBrowserDoh found) := by
  rw [evaluateBrowserDoh]
  split_ifs with hnone
  · exact tells_info id
  · exact tells_info id

end Evaluators

/-- The checks of a report, each with its id and what it tells. -/
abbrev TellsAll (spec : List (String × Prop)) (checks : List Check) : Prop :=
  List.Forall₂ (fun told c => Tells told.1 told.2 c) spec checks

section TellsAll

variable {spec : List (String × Prop)} {checks : List Check}

/-- A check with an id has passed exactly if a link of that id works. -/
theorem passed_iff (h : TellsAll spec checks) (id : String) :
    passed checks id = true ↔ ∃ told ∈ spec, told.1 = id ∧ told.2 := by
  induction h with
  | nil => simp [passed]
  | @cons told c spec checks htold _ ih =>
      have hhead : (c.id = id.toList ∧ c.status = .pass) ↔ told.1 = id ∧ told.2 := by
        rw [htold.id_eq, htold.pass, String.toList_inj]
      rw [List.exists_mem_cons_iff, ← ih, ← hhead]
      simp [passed]

end TellsAll

/-! ## Events -/

section Events

variable {t : List DoctorEvent}

/-- A lookup in the diagnosis. -/
def liftDns (event : SecureDns.DnsEvent) : DoctorEvent := ⟨.dns event.1, event.2⟩

/-- A run of a lookup in the diagnosis is one of the lookup. -/
theorem runs_onDns_iff {α : Type} {p : SecureDns.DnsProg α} {a : α} :
    Runs (onDns p) t a ↔ ∃ s, Runs p s a ∧ t = s.map liftDns := by
  induction p generalizing t with
  | ret b =>
      constructor
      · intro h
        obtain ⟨rfl, rfl⟩ := runs_ret_iff.mp h
        exact ⟨[], .ret _, rfl⟩
      · rintro ⟨s, hs, rfl⟩
        obtain ⟨rfl, rfl⟩ := runs_ret_iff.mp hs
        exact .ret _
  | ask q k ih =>
      constructor
      · intro h
        obtain ⟨r, t', rfl, hrest⟩ := runs_ask_iff.mp h
        obtain ⟨s, hs, rfl⟩ := (ih r).mp hrest
        exact ⟨⟨q, r⟩ :: s, .ask hs, rfl⟩
      · rintro ⟨s, hs, rfl⟩
        obtain ⟨r, s', rfl, hrest⟩ := runs_ask_iff.mp hs
        exact .ask ((ih r).mpr ⟨s', hrest, rfl⟩)

/-- A call that the verdict does not rest on: it neither asks the OS resolver nor the
network. -/
def Minor : DoctorCall → Prop
  | .os (.toSocketAddrs _) => False
  | .os _ => True
  | _ => False

/-- Such a call of the configuration. -/
def MinorOs (q : OsConfig.Call) : Prop := Minor (.os q)

theorem asks_onOs {α : Type} {p : OsConfig.OsProg α} (h : p.Asks MinorOs) :
    (onOs p).Asks Minor := by
  refine Prog.asks_interpret ?_ h
  intro q hq
  exact Prog.asks_query hq

theorem asks_fileIsOurs (path : Str) (ip : Ipv4Addr) :
    (OsConfig.fileIsOurs path ip).Asks MinorOs :=
  ⟨trivial, fun _ => trivial⟩

theorem asks_isConfigured (os : Os) (config : Config) :
    (OsConfig.isConfigured os config).Asks MinorOs := by
  cases os with
  | linux =>
      refine Prog.asks_bind (asks_fileIsOurs _ _) fun first => ?_
      cases first with
      | true => trivial
      | false => exact Prog.asks_bind (asks_fileIsOurs _ _) fun _ => trivial
  | macos => exact ⟨trivial, fun _ => trivial⟩
  | windows => trivial
  | other name => trivial

theorem asks_spawn (program : Str) (args : List Str) :
    (onOs (OsConfig.call (.spawn program args))).Asks Minor :=
  asks_onOs ⟨trivial, fun _ => trivial⟩

theorem asks_scanJsonFiles (json : JsonText) (dir key : Str) (names : List Str) :
    (scanJsonFiles json dir key names).Asks Minor := by
  induction names with
  | nil => trivial
  | cons name names ih =>
      refine Prog.asks_bind (asks_onOs ⟨trivial, fun _ => trivial⟩) fun text => ?_
      cases text with
      | error e => exact ih
      | ok text =>
          dsimp only
          cases (json.fromStr text).bind (Serde.Value.get key) with
          | none => exact ih
          | some v => trivial

theorem asks_collectFound {look : Str → DoctorProg (Option Str)}
    (h : ∀ place, (look place).Asks Minor) (places : List (Str × Str)) :
    (collectFound look places).Asks Minor := by
  induction places with
  | nil => trivial
  | cons place places ih =>
      exact Prog.asks_bind (h _) fun _ => Prog.asks_bind ih fun _ => trivial

theorem asks_readBrowserDohPolicy (json : JsonText) (os : Os) :
    (readBrowserDohPolicy json os).Asks Minor := by
  have hreg : ∀ key, (regQuery key dohMode).Asks Minor := by
    intro key
    refine Prog.asks_bind (asks_spawn _ _) fun exit => ?_
    cases exit with
    | error e => trivial
    | ok exit => trivial
  have hdefaults : ∀ domain, (defaultsRead domain dohMode).Asks Minor := by
    intro domain
    refine Prog.asks_bind (asks_spawn _ _) fun exit => ?_
    cases exit with
    | error e => trivial
    | ok exit => trivial
  have hscan : ∀ dir, (scanJsonDirFor json dir dohMode).Asks Minor := by
    intro dir
    refine Prog.asks_bind (asks_onOs ⟨trivial, fun _ => trivial⟩) fun entries => ?_
    cases entries with
    | error e => trivial
    | ok entries => exact asks_scanJsonFiles json dir dohMode entries
  cases os with
  | windows => exact asks_collectFound hreg _
  | macos => exact asks_collectFound hdefaults _
  | linux => exact asks_collectFound hscan _
  | other name => exact asks_collectFound hscan _

theorem asks_portHolder (os : Os) (port : UInt16) : (portHolder os port).Asks Minor := by
  refine Prog.asks_bind (asks_spawn _ _) fun exit => ?_
  cases exit with
  | error e => trivial
  | ok exit => trivial

/-! ## Runs of the probes -/

/-- The loop asks the ports in order, and finds the one that answers `204`. -/
theorem of_runs_firstAnswering {ports : List UInt16} {found : Option UInt16}
    (h : Runs (firstAnswering ports) t found) :
    (∀ e ∈ t, ∃ port ∈ ports, ∃ answer, e = ⟨.get port resolveProbePath, answer⟩) ∧
      ∀ port, found = some port ↔
        ∃ r, (⟨.get port resolveProbePath, some r⟩ : DoctorEvent) ∈ t ∧ r.status = 204 := by
  induction ports generalizing t with
  | nil =>
      obtain ⟨rfl, rfl⟩ := runs_ret_iff.mp h
      simp
  | cons port ports ih =>
      obtain ⟨answer, t', rfl, hrest⟩ := runs_ask_iff.mp h
      have hskip : (∀ r, answer = some r → r.status ≠ 204) → Runs (firstAnswering ports) t' found →
          (∀ e ∈ (⟨.get port resolveProbePath, answer⟩ : DoctorEvent) :: t',
            ∃ port' ∈ port :: ports, ∃ answer, e = ⟨.get port' resolveProbePath, answer⟩) ∧
          ∀ port', found = some port' ↔ ∃ r, (⟨.get port' resolveProbePath, some r⟩ : DoctorEvent) ∈
            ⟨.get port resolveProbePath, answer⟩ :: t' ∧ r.status = 204 := by
        intro hother htail
        obtain ⟨hports, hfound⟩ := ih htail
        constructor
        · refine List.forall_mem_cons.mpr ⟨⟨port, List.mem_cons_self, answer, rfl⟩, fun e he => ?_⟩
          obtain ⟨port', hport', answer', rfl⟩ := hports e he
          exact ⟨port', List.mem_cons_of_mem _ hport', answer', rfl⟩
        · intro port'
          rw [hfound port']
          constructor
          · rintro ⟨r, hr, hstatus⟩
            exact ⟨r, List.mem_cons_of_mem _ hr, hstatus⟩
          · rintro ⟨r, hr, hstatus⟩
            rcases List.mem_cons.mp hr with heq | hr
            · cases heq
              exact absurd hstatus (hother r rfl)
            · exact ⟨r, hr, hstatus⟩
      cases answer with
      | none => exact hskip (by simp) hrest
      | some r =>
          change Runs (if r.status = 204 then .ret (some port) else firstAnswering ports) _ _ at hrest
          split_ifs at hrest with hstatus
          · obtain ⟨rfl, rfl⟩ := runs_ret_iff.mp hrest
            constructor
            · intro e he
              obtain rfl := List.mem_singleton.mp he
              exact ⟨port, List.mem_cons_self, some r, rfl⟩
            · intro port'
              constructor
              · rintro ⟨⟩
                exact ⟨r, List.mem_cons_self, hstatus⟩
              · rintro ⟨r', hr', -⟩
                cases List.mem_singleton.mp hr'
                rfl
          · refine hskip ?_ hrest
            rintro r' ⟨⟩
            exact hstatus

/-- Where the ports answer as `Ports` says, the loop is the one of `firstNoContent`. -/
theorem found_of_runs_firstAnswering {ports : Ports} {rest : List UInt16} {found : Option UInt16}
    (hports : ∀ port answer, (⟨.get port resolveProbePath, answer⟩ : DoctorEvent) ∈ t →
      answer = ports.get port resolveProbePath)
    (h : Runs (firstAnswering rest) t found) : found = rest.find? fun port =>
      (ports.get port resolveProbePath).any fun r => r.status = 204 := by
  induction rest generalizing t with
  | nil => exact (runs_ret_iff.mp h).2
  | cons port rest ih =>
      obtain ⟨answer, t', rfl, hrest⟩ := runs_ask_iff.mp h
      have hlater := @ih t' fun port answer hmem => hports port answer (List.mem_cons_of_mem _ hmem)
      rw [List.find?_cons, ← hports port answer List.mem_cons_self]
      cases answer with
      | none => exact hlater hrest
      | some r =>
          change Runs (if r.status = 204 then .ret (some port) else firstAnswering rest) _ _ at hrest
          split_ifs at hrest with hstatus
          · rw [(runs_ret_iff.mp hrest).2]
            simp [hstatus]
          · rw [hlater hrest]
            simp [hstatus]

/-- The two readings of `probe_gateway` agree. -/
theorem found_of_runs_probeGateway {ports : Ports} {primary fallback : UInt16}
    {found : Option UInt16}
    (hports : ∀ port answer, (⟨.get port resolveProbePath, answer⟩ : DoctorEvent) ∈ t →
      answer = ports.get port resolveProbePath)
    (h : Runs (probeGateway primary fallback) t found) :
    found = DigDns.probeGateway ports primary fallback :=
  found_of_runs_firstAnswering hports h

theorem runs_probeNode_iff {json : JsonText} {port : UInt16} {reachable : Option Bool} :
    Runs (probeNode json port) t reachable ↔
      ∃ answer : Option Reply, t = [⟨.get port healthPath, answer⟩] ∧
        reachable = answer.bind fun r => (json.fromSlice r.body).bind nodeReachable := by
  constructor
  · intro h
    obtain ⟨answer, t', rfl, hrest⟩ := runs_ask_iff.mp h
    cases answer with
    | none =>
        obtain ⟨rfl, rfl⟩ := runs_ret_iff.mp hrest
        exact ⟨none, rfl, rfl⟩
    | some r =>
        obtain ⟨rfl, rfl⟩ := runs_ret_iff.mp hrest
        exact ⟨some r, rfl, rfl⟩
  · rintro ⟨answer, rfl, rfl⟩
    cases answer with
    | none => exact .ask (.ret _)
    | some r => exact .ask (.ret _)

/-- The check of a lookup. -/
def upstreamCheck : Except Str (Option Tier × List IpAddr) → Check
  | .ok answer => evaluateSecureUpstream true answer.1 none
  | .error e => evaluateSecureUpstream true none (some e)

/-- A run of the last probe: nothing is looked up where the chain is off or cannot be
built. -/
theorem of_runs_probeSecureUpstream {build : SecureDns.TokioResolver → Except Str Unit}
    {config : Config} {check : Check} (h : Runs (probeSecureUpstream build config) t check) :
    (config.secureUpstream = false ∧ t = [] ∧ check = evaluateSecureUpstream false none none) ∨
      config.secureUpstream = true ∧
        ((∃ e, SecureDns.SecureResolver.new build = .error e ∧ t = [] ∧
          check = evaluateSecureUpstream true none (some e)) ∨
        ∃ resolver s out, SecureDns.SecureResolver.new build = .ok resolver ∧
          Runs (SecureDns.resolveScoped resolver SecureDns.upstreamHost) s out ∧
          t = s.map liftDns ∧ check = upstreamCheck out) := by
  rw [probeSecureUpstream] at h
  cases hsecure : config.secureUpstream with
  | false =>
      rw [hsecure] at h
      obtain ⟨rfl, rfl⟩ := runs_ret_iff.mp h
      exact Or.inl ⟨rfl, rfl, rfl⟩
  | true =>
      rw [hsecure] at h
      refine Or.inr ⟨rfl, ?_⟩
      cases hnew : SecureDns.SecureResolver.new build with
      | error e =>
          rw [hnew] at h
          obtain ⟨rfl, rfl⟩ := runs_ret_iff.mp h
          exact Or.inl ⟨e, rfl, rfl, rfl⟩
      | ok resolver =>
          rw [hnew] at h
          obtain ⟨t₁, out, t₂, rfl, hlookup, hrest⟩ := runs_bind_iff.mp h
          obtain ⟨s, hs, rfl⟩ := runs_onDns_iff.mp hlookup
          refine Or.inr ⟨resolver, s, out, rfl, hs, ?_⟩
          cases out with
          | error e =>
              obtain ⟨rfl, rfl⟩ := runs_ret_iff.mp hrest
              exact ⟨List.append_nil _, rfl⟩
          | ok answer =>
              obtain ⟨rfl, rfl⟩ := runs_ret_iff.mp hrest
              exact ⟨List.append_nil _, rfl⟩

theorem status_upstreamCheck_warn_iff {out : Except Str (Option Tier × List IpAddr)} :
    (upstreamCheck out).status = .warn ↔ ∃ addrs, out = .ok (none, addrs) := by
  rcases out with e | ⟨_ | tier, addrs⟩
  · exact iff_of_false (fun h : CheckStatus.fail = .warn => by cases h) (by simp)
  · exact iff_of_true rfl ⟨addrs, rfl⟩
  · exact iff_of_false (fun h : CheckStatus.pass = .warn => by cases h) (by simp)

theorem status_upstreamCheck_ne_info {out : Except Str (Option Tier × List IpAddr)} :
    (upstreamCheck out).status ≠ .info := by
  rcases out with e | ⟨_ | tier, addrs⟩
  · exact fun h : CheckStatus.fail = .info => by cases h
  · exact fun h : CheckStatus.warn = .info => by cases h
  · exact fun h : CheckStatus.pass = .info => by cases h

theorem of_runs_checkPortHolder {os : Os} {primary : UInt16} {answeredPort : Option UInt16}
    {check : Check} (h : Runs (checkPortHolder os primary answeredPort) t check) :
    (Tells "port80_holder" False check ∧ check.status = .info) ∧ ∀ e ∈ t, Minor e.1 := by
  rw [checkPortHolder] at h
  split_ifs at h with hprimary
  · obtain ⟨rfl, rfl⟩ := runs_ret_iff.mp h
    exact ⟨⟨tells_info id, rfl⟩, by simp⟩
  · obtain ⟨t₁, holder, t₂, rfl, hholder, hrest⟩ := runs_bind_iff.mp h
    obtain ⟨rfl, rfl⟩ := runs_ret_iff.mp hrest
    refine ⟨⟨tells_broken (by decide) id, rfl⟩, ?_⟩
    rw [List.append_nil]
    exact hholder.of_asks (asks_portHolder os primary)

theorem runs_probeDns_iff {ip : Ipv4Addr} {port : UInt16} {tld : Str}
    {answered : Option Ipv4Addr} :
    Runs (probeDns ip port tld) t answered ↔ ∃ answer : Option (List UInt8),
      t = [⟨.exchangeUdp (ip, port) (Dns.buildAQuery (probeName tld)), answer⟩] ∧
        answered = answer.bind Dns.parseFirstAIpv4 := by
  constructor
  · intro h
    obtain ⟨answer, t', rfl, hrest⟩ := runs_ask_iff.mp h
    cases answer with
    | none =>
        obtain ⟨rfl, rfl⟩ := runs_ret_iff.mp hrest
        exact ⟨none, rfl, rfl⟩
    | some bytes =>
        obtain ⟨rfl, rfl⟩ := runs_ret_iff.mp hrest
        exact ⟨some bytes, rfl, rfl⟩
  · rintro ⟨answer, rfl, rfl⟩
    cases answer with
    | none => exact .ask (.ret _)
    | some bytes => exact .ask (.ret _)

/-- The question to the responder. -/
def responderQuestion (config : Config) : DoctorCall :=
  .exchangeUdp (config.loopbackIp, config.dnsPort) (Dns.buildAQuery (probeName config.tld))

/-- The question to the resolver of the OS. -/
def osQuestion (config : Config) : DoctorCall :=
  .os (.toSocketAddrs (probeName config.tld ++ ":0".toList))

/-- A call that asks for the address of a name. -/
def AsksName : DoctorCall → Prop
  | .exchangeUdp _ _ => True
  | .os (.toSocketAddrs _) => True
  | .dns _ => True
  | _ => False

theorem not_asksName_of_minor {q : DoctorCall} (h : Minor q) : ¬ AsksName q := by
  cases q with
  | os call =>
      cases call with
      | toSocketAddrs host => exact h.elim
      | _ => exact id
  | _ => exact h.elim

theorem of_runs_probeOsRouting {config : Config} {resolved : List IpAddr}
    (h : Runs (probeOsRouting config.tld) t resolved) :
    ∃ answer : Except Str (List IpAddr), t = [⟨osQuestion config, answer⟩] ∧
      resolved = answer.toOption.getD [] := by
  obtain ⟨answer, t', rfl, hrest⟩ := runs_ask_iff.mp h
  obtain ⟨rfl, rfl⟩ := runs_ret_iff.mp hrest
  exact ⟨answer, rfl, rfl⟩

end Events

/-! ## Which probe asked -/

/-- The probes of a run, up to the minor ones. -/
inductive Stage
  | loopback
  | responder
  | routing
  | minor
  | gateway
  | node
  | upstream
deriving DecidableEq

/-- The probe that makes a call. -/
def stageOf : DoctorCall → Stage
  | .bindUdp _ => .loopback
  | .exchangeUdp _ _ => .responder
  | .os (.toSocketAddrs _) => .routing
  | .os _ => .minor
  | .get _ path => if path = resolveProbePath then .gateway else .node
  | .dns _ => .upstream

theorem stageOf_resolve (port : UInt16) : stageOf (.get port resolveProbePath) = .gateway := by
  simp [stageOf]

theorem stageOf_health (port : UInt16) : stageOf (.get port healthPath) = .node := by
  have hne : healthPath ≠ resolveProbePath := by decide
  simp [stageOf, hne]

theorem stageOf_of_minor {q : DoctorCall} (h : Minor q) : stageOf q = .minor := by
  cases q with
  | os call =>
      cases call with
      | toSocketAddrs host => exact h.elim
      | _ => rfl
  | _ => exact h.elim

/-! ## The whole run -/

/-- What a run observes. -/
structure Observation where
  bindable : Bool
  answer : Option (List UInt8)
  resolved : Except Str (List IpAddr)
  present : Option Bool
  answeredPort : Option UInt16
  reachable : Option Bool
  found : List Str
  holder : Check
  upstream : Check

/-- The checks that are made of it. -/
def Observation.checks (o : Observation) (config : Config) : List Check := [
  evaluateLoopback config.loopbackIp o.bindable,
  evaluateDnsDirect config.loopbackIp (o.answer.bind Dns.parseFirstAIpv4),
  evaluateOsRouting config.loopbackIp (o.resolved.toOption.getD []),
  evaluateOsConfig o.present,
  evaluateGateway config.httpPort config.httpFallbackPort o.answeredPort,
  evaluateNode o.reachable,
  evaluateBrowserDoh o.found,
  o.holder,
  o.upstream]

/-- The parts of a run, and what is observed in them. -/
structure Observes (json : JsonText) (build : SecureDns.TokioResolver → Except Str Unit)
    (config : Config) (o : Observation) (part : Stage → List DoctorEvent) : Prop where
  loopback : part .loopback = [⟨.bindUdp config.loopbackIp, o.bindable⟩]
  responder : part .responder = [⟨responderQuestion config, o.answer⟩]
  routing : part .routing = [⟨osQuestion config, o.resolved⟩]
  minor : ∀ e ∈ part .minor, Minor e.1
  gateway : Runs (probeGateway config.httpPort config.httpFallbackPort) (part .gateway)
    o.answeredPort
  /-- The node is asked about only behind a port that answered. -/
  node : (o.answeredPort = none ∧ part .node = [] ∧ o.reachable = none) ∨
    ∃ port, o.answeredPort = some port ∧ Runs (probeNode json port) (part .node) o.reachable
  holder : Tells "port80_holder" False o.holder ∧ o.holder.status = .info
  upstream : Runs (probeSecureUpstream build config) (part .upstream) o.upstream

section Run

variable {json : JsonText} {build : SecureDns.TokioResolver → Except Str Unit} {os : Os}
  {config : Config} {t : List DoctorEvent} {report : Report}

/-- The parts of a run, from those of its probes that ask more than once. -/
def partsOf (loopback responder routing minor gateway node upstream : List DoctorEvent) :
    Stage → List DoctorEvent
  | .loopback => loopback
  | .responder => responder
  | .routing => routing
  | .minor => minor
  | .gateway => gateway
  | .node => node
  | .upstream => upstream

theorem observes_of_runs (h : Runs (run json build os config) t report) :
    ∃ (o : Observation) (part : Stage → List DoctorEvent),
      (∀ e, e ∈ t ↔ ∃ stage, e ∈ part stage) ∧ Observes json build config o part ∧
        report = .build (o.checks config) := by
  obtain ⟨bound, bindable, t₁, rfl, hbound, h₁⟩ := runs_bind_iff.mp h
  obtain rfl := runs_query_iff.mp hbound
  obtain ⟨dns, answered, t₂, rfl, hdns, h₂⟩ := runs_bind_iff.mp h₁
  obtain ⟨answer, rfl, rfl⟩ := runs_probeDns_iff.mp hdns
  obtain ⟨routing, resolved, t₃, rfl, hrouting, h₃⟩ := runs_bind_iff.mp h₂
  obtain ⟨osAnswer, rfl, rfl⟩ := of_runs_probeOsRouting hrouting
  obtain ⟨minor, present, t₄, rfl, hpresent, h₄⟩ := runs_bind_iff.mp h₃
  obtain ⟨gateway, answeredPort, t₅, rfl, hgateway, h₅⟩ := runs_bind_iff.mp h₄
  obtain ⟨node, reachable, t₆, rfl, hnode, h₆⟩ := runs_bind_iff.mp h₅
  obtain ⟨doh, doh', t₇, rfl, hdoh, h₇⟩ := runs_bind_iff.mp h₆
  obtain ⟨holder, holder', t₈, rfl, hholder, h₈⟩ := runs_bind_iff.mp h₇
  obtain ⟨upstream, upstream', t₉, rfl, hupstream, h₉⟩ := runs_bind_iff.mp h₈
  obtain ⟨rfl, rfl⟩ := runs_ret_iff.mp h₉
  obtain ⟨policy, found, t₁₀, rfl, hpolicy, hret⟩ := runs_bind_iff.mp hdoh
  obtain ⟨rfl, rfl⟩ := runs_ret_iff.mp hret
  obtain ⟨htells, hminor⟩ := of_runs_checkPortHolder hholder
  refine ⟨⟨bindable, answer, osAnswer, present, answeredPort, reachable, found, holder', upstream'⟩,
    partsOf _ [⟨.exchangeUdp _ _, answer⟩] _ (minor ++ (policy ++ holder)) gateway node upstream, ?_,
    ⟨rfl, rfl, rfl, ?_, hgateway, ?_, htells, hupstream⟩, rfl⟩
  · intro e
    constructor
    · intro he
      simp only [List.mem_append, List.mem_singleton, List.not_mem_nil, or_false] at he
      rcases he with he | he | he | he | he | he | he | he | he
      · exact ⟨.loopback, List.mem_singleton.mpr he⟩
      · exact ⟨.responder, List.mem_singleton.mpr he⟩
      · exact ⟨.routing, List.mem_singleton.mpr he⟩
      · exact ⟨.minor, List.mem_append_left _ he⟩
      · exact ⟨.gateway, he⟩
      · exact ⟨.node, he⟩
      · exact ⟨.minor, List.mem_append_right _ (List.mem_append_left _ he)⟩
      · exact ⟨.minor, List.mem_append_right _ (List.mem_append_right _ he)⟩
      · exact ⟨.upstream, he⟩
    · rintro ⟨stage, he⟩
      simp only [List.mem_append, List.mem_singleton]
      cases stage <;> simp only [partsOf, List.mem_append, List.mem_singleton] at he <;> grind
  · refine List.forall_mem_append.mpr ⟨?_, List.forall_mem_append.mpr ⟨?_, hminor⟩⟩
    · exact hpresent.of_asks (asks_onOs (asks_isConfigured os config))
    · exact hpolicy.of_asks (asks_readBrowserDohPolicy json os)
  · cases answeredPort with
    | none =>
        obtain ⟨rfl, rfl⟩ := runs_ret_iff.mp hnode
        exact Or.inl ⟨rfl, rfl, rfl⟩
    | some port => exact Or.inr ⟨port, rfl, hnode⟩

end Run

/-! ## The lookup of the public node -/

section Upstream

variable {build : SecureDns.TokioResolver → Except Str Unit} {config : Config}
  {t : List DoctorEvent}

/-- The lookups of a diagnosis. -/
def dnsEvents (t : List DoctorEvent) : List SecureDns.DnsEvent :=
  t.filterMap fun
    | ⟨.dns q, answer⟩ => some ⟨q, answer⟩
    | _ => none

/-- An encrypted resolver gave an address of the public node. -/
def Encrypted (t : List DoctorEvent) : Prop :=
  SecureDns.Encrypted SecureDns.upstreamHost (dnsEvents t)

/-- The OS gave one. -/
def Plain (t : List DoctorEvent) : Prop :=
  SecureDns.Plain SecureDns.upstreamHost (dnsEvents t)

theorem dnsEvents_map_liftDns (s : List SecureDns.DnsEvent) : dnsEvents (s.map liftDns) = s := by
  rw [dnsEvents, List.filterMap_map]
  exact List.filterMap_some

theorem mem_dnsEvents_iff {e : SecureDns.DnsEvent} : e ∈ dnsEvents t ↔ liftDns e ∈ t := by
  rw [dnsEvents, List.mem_filterMap]
  constructor
  · rintro ⟨⟨q, answer⟩, hmem, hevent⟩
    cases q with
    | dns q =>
        obtain rfl := Option.some.inj hevent
        exact hmem
    | _ => cases hevent
  · exact fun hmem => ⟨liftDns e, hmem, rfl⟩

/-- A lookup of the public node, where the configuration allows it. -/
def UpstreamLookup (config : Config) (q : DoctorCall) : Prop :=
  config.secureUpstream = true ∧ (q = .dns (.lookupHost SecureDns.upstreamHost) ∨
    ∃ tier ∈ SecureDns.providerChain,
      q = .dns (.lookupIp (SecureDns.tierResolver tier) SecureDns.upstreamHost))

/-- The last check passes exactly if the lookup was encrypted, and warns exactly if the OS
had to be asked. -/
theorem of_runs_upstream {check : Check} (h : Runs (probeSecureUpstream build config) t check) :
    Tells "secure_upstream" (Encrypted t) check ∧ (check.status = .warn ↔ Plain t) ∧
      (check.status = .info ↔ config.secureUpstream = false) ∧
      ∀ e ∈ t, UpstreamLookup config e.1 := by
  have hnil : ¬Encrypted [] := by
    rintro ⟨resolver, addrs, hmem, -⟩
    cases hmem
  have hnil' : ¬Plain [] := by
    rintro ⟨addrs, hmem, -⟩
    cases hmem
  rcases of_runs_probeSecureUpstream h with ⟨hsecure, rfl, rfl⟩ |
    ⟨hsecure, ⟨e, -, rfl, rfl⟩ | ⟨resolver, s, out, hnew, hruns, rfl, rfl⟩⟩
  · exact ⟨tells_info hnil, iff_of_false (by decide) hnil', iff_of_true rfl hsecure, by simp⟩
  · have hon : ¬config.secureUpstream = false := by simp [hsecure]
    refine ⟨tells_broken (by decide) hnil, iff_of_false ?_ hnil', iff_of_false ?_ hon, by simp⟩
    · exact fun hwarn : CheckStatus.fail = .warn => by cases hwarn
    · exact fun hinfo : CheckStatus.fail = .info => by cases hinfo
  · have hon : ¬config.secureUpstream = false := by simp [hsecure]
    obtain ⟨hencrypted, hplain, hasked⟩ := SecureDns.of_runs_resolveScoped hruns
    rw [Encrypted, Plain, dnsEvents_map_liftDns, ← hencrypted, ← hplain]
    refine ⟨?_, status_upstreamCheck_warn_iff, iff_of_false status_upstreamCheck_ne_info hon, ?_⟩
    · rcases out with e | ⟨_ | tier, addrs⟩
      · exact tells_broken (by decide) (by simp)
      · exact tells_broken (by decide) (by simp)
      · exact tells_pass ⟨tier, addrs, rfl⟩
    · intro e he
      obtain ⟨event, hevent, rfl⟩ := List.mem_map.mp he
      refine ⟨hsecure, ?_⟩
      rcases hasked event hevent with hhost | ⟨candidate, hcandidate, hhost⟩
      · exact Or.inl (congrArg DoctorCall.dns hhost)
      · rw [SecureDns.tiers_of_new hnew] at hcandidate
        obtain ⟨tier, htier, rfl⟩ := List.mem_map.mp hcandidate
        exact Or.inr ⟨tier, htier, congrArg DoctorCall.dns hhost⟩

end Upstream

/-! ## The verdict -/

/-- The address could be bound. -/
def Bound (config : Config) (t : List DoctorEvent) : Prop :=
  (⟨.bindUdp config.loopbackIp, true⟩ : DoctorEvent) ∈ t

/-- The responder gave the loopback address, at its own port. -/
def Responded (config : Config) (t : List DoctorEvent) : Prop :=
  ∃ bytes, (⟨responderQuestion config, some bytes⟩ : DoctorEvent) ∈ t ∧
    Dns.parseFirstAIpv4 bytes = some config.loopbackIp

/-- The resolver of the OS gave the loopback address. -/
def OsRouted (config : Config) (t : List DoctorEvent) : Prop :=
  ∃ addrs, (⟨osQuestion config, .ok addrs⟩ : DoctorEvent) ∈ t ∧ .v4 config.loopbackIp ∈ addrs

/-- A port answered the liveness probe with `204`. -/
def Answered (port : UInt16) (t : List DoctorEvent) : Prop :=
  ∃ r, (⟨.get port resolveProbePath, some r⟩ : DoctorEvent) ∈ t ∧ r.status = 204

/-- One of the two ports did. -/
def GatewayAnswered (config : Config) (t : List DoctorEvent) : Prop :=
  Answered config.httpPort t ∨ Answered config.httpFallbackPort t

/-- The node behind the gateway was reported to be reachable. -/
def NodeAnswered (json : JsonText) (t : List DoctorEvent) : Prop :=
  ∃ port r, (⟨.get port healthPath, some r⟩ : DoctorEvent) ∈ t ∧
    (json.fromSlice r.body).bind nodeReachable = some true

/-- The checks of a report, and the links that they stand for. -/
def links (json : JsonText) (config : Config) (t : List DoctorEvent) : List (String × Prop) := [
  ("loopback_ip", Bound config t),
  ("dns_direct", Responded config t),
  ("os_routing", OsRouted config t),
  ("os_config", False),
  ("gateway_port", GatewayAnswered config t),
  ("node_reachable", NodeAnswered json t),
  ("browser_doh", False),
  ("port80_holder", False),
  ("secure_upstream", Encrypted t)]

/-- The checks that only inform: no link is behind them. -/
def informational : List Str :=
  ["os_config".toList, "browser_doh".toList, "port80_holder".toList]

/-- What a report says about the run that it comes from. -/
structure Diagnosed (json : JsonText) (config : Config) (t : List DoctorEvent)
    (report : Report) : Prop where
  /-- One check for each link, in order; it passes exactly if the link works, and has a fix
  if it fails or warns. -/
  checks : TellsAll (links json config t) report.checks
  informs : ∀ check ∈ report.checks, check.id ∈ informational → check.status = .info
  pathA : report.pathA = true ↔ OsRouted config t
  pathB : report.pathB = true ↔ GatewayAnswered config t
  /-- The verdict rests on three of the links only. -/
  ok : report.ok = true ↔ Bound config t ∧ (OsRouted config t ∨ GatewayAnswered config t)
  /-- The health report is asked for only behind a port that is alive. -/
  behind : ∀ port answer, (⟨.get port healthPath, answer⟩ : DoctorEvent) ∈ t → Answered port t
  /-- The last check warns exactly if the lookup of the public node was not encrypted. -/
  upstream : ∃ check ∈ report.checks, check.id = "secure_upstream".toList ∧
    (check.status = .warn ↔ Plain t) ∧ (check.status = .info ↔ config.secureUpstream = false)
  /-- The name of the probe is asked for, of the responder and of the OS. -/
  probed : (∃ e ∈ t, e.1 = responderQuestion config) ∧ ∃ e ∈ t, e.1 = osQuestion config
  /-- No other name is but that of the public node, and that one only where the chain is on. -/
  lookups : ∀ e ∈ t, AsksName e.1 →
    e.1 = responderQuestion config ∨ e.1 = osQuestion config ∨ UpstreamLookup config e.1

section Verdict

variable {json : JsonText} {build : SecureDns.TokioResolver → Except Str Unit} {os : Os}
  {config : Config} {t : List DoctorEvent} {report : Report}

/-- What the calls of a probe can be. -/
def Stage.Asks (config : Config) : Stage → DoctorCall → Prop
  | .loopback, q => q = .bindUdp config.loopbackIp
  | .responder, q => q = responderQuestion config
  | .routing, q => q = osQuestion config
  | .minor, q => Minor q
  | .gateway, q => ∃ port, q = .get port resolveProbePath
  | .node, q => ∃ port, q = .get port healthPath
  | .upstream, q => UpstreamLookup config q

/-- Each probe asks its own questions. -/
theorem asks_of_mem_part {o : Observation} {part : Stage → List DoctorEvent}
    (h : Observes json build config o part) {stage : Stage} {e : DoctorEvent}
    (he : e ∈ part stage) : stage.Asks config e.1 := by
  cases stage with
  | loopback =>
      rw [h.loopback, List.mem_singleton] at he
      exact congrArg Sigma.fst he
  | responder =>
      rw [h.responder, List.mem_singleton] at he
      exact congrArg Sigma.fst he
  | routing =>
      rw [h.routing, List.mem_singleton] at he
      exact congrArg Sigma.fst he
  | minor => exact h.minor e he
  | gateway =>
      obtain ⟨port, -, answer, rfl⟩ := (of_runs_firstAnswering h.gateway).1 e he
      exact ⟨port, rfl⟩
  | node =>
      rcases h.node with ⟨-, hnil, -⟩ | ⟨port, -, hnode⟩
      · rw [hnil] at he
        cases he
      · obtain ⟨answer, hpart, -⟩ := runs_probeNode_iff.mp hnode
        rw [hpart, List.mem_singleton] at he
        exact ⟨port, congrArg Sigma.fst he⟩
  | upstream =>
      obtain ⟨-, -, -, hlookups⟩ := of_runs_upstream h.upstream
      exact hlookups e he

/-- So a call tells which probe makes it, -/
theorem Stage.Asks.stageOf_eq {stage : Stage} {q : DoctorCall} (h : stage.Asks config q) :
    stageOf q = stage := by
  cases stage with
  | loopback =>
      obtain rfl := h
      rfl
  | responder =>
      obtain rfl := h
      rfl
  | routing =>
      obtain rfl := h
      rfl
  | minor => exact stageOf_of_minor h
  | gateway =>
      obtain ⟨port, rfl⟩ := h
      exact stageOf_resolve port
  | node =>
      obtain ⟨port, rfl⟩ := h
      exact stageOf_health port
  | upstream =>
      obtain ⟨-, rfl | ⟨tier, -, rfl⟩⟩ := h
      · rfl
      · rfl

/-- and a name is asked for by three of them. -/
theorem Stage.Asks.of_asksName {stage : Stage} {q : DoctorCall} (h : stage.Asks config q)
    (hasks : AsksName q) :
    q = responderQuestion config ∨ q = osQuestion config ∨ UpstreamLookup config q := by
  cases stage with
  | loopback =>
      obtain rfl := h
      exact hasks.elim
  | responder => exact Or.inl h
  | routing => exact Or.inr (Or.inl h)
  | minor => exact absurd hasks (not_asksName_of_minor h)
  | gateway =>
      obtain ⟨port, rfl⟩ := h
      exact hasks.elim
  | node =>
      obtain ⟨port, rfl⟩ := h
      exact hasks.elim
  | upstream => exact Or.inr (Or.inr h)

/-- So an event of a run is found in the part of its own probe. -/
theorem mem_part_iff {o : Observation} {part : Stage → List DoctorEvent}
    (h : Observes json build config o part) (hparts : ∀ e, e ∈ t ↔ ∃ stage, e ∈ part stage)
    {e : DoctorEvent} {stage : Stage} (hstage : stageOf e.1 = stage) :
    e ∈ t ↔ e ∈ part stage := by
  rw [hparts e]
  constructor
  · rintro ⟨stage', he⟩
    rw [(asks_of_mem_part h he).stageOf_eq] at hstage
    rwa [← hstage]
  · exact fun he => ⟨stage, he⟩

theorem gatewayAnswered_iff {o : Observation} {part : Stage → List DoctorEvent}
    (h : Observes json build config o part) (hparts : ∀ e, e ∈ t ↔ ∃ stage, e ∈ part stage) :
    (o.answeredPort.isSome = true ↔ GatewayAnswered config t) ∧
      ∀ port, o.answeredPort = some port → Answered port t := by
  obtain ⟨hports, hfound⟩ := of_runs_firstAnswering h.gateway
  have hmem : ∀ port answer, (⟨.get port resolveProbePath, answer⟩ : DoctorEvent) ∈ t ↔
      ⟨.get port resolveProbePath, answer⟩ ∈ part .gateway := by
    intro port answer
    exact mem_part_iff h hparts (stageOf_resolve port)
  have hanswered : ∀ port, o.answeredPort = some port ↔ Answered port t := by
    intro port
    rw [hfound port]
    exact exists_congr fun r => and_congr_left fun _ => (hmem port (some r)).symm
  refine ⟨?_, fun port => (hanswered port).mp⟩
  rw [Option.isSome_iff_exists]
  constructor
  · rintro ⟨port, hport⟩
    obtain ⟨r, hr, hstatus⟩ := (hfound port).mp hport
    obtain ⟨port', hport', answer', heq⟩ := hports _ hr
    cases heq
    rw [List.mem_pair] at hport'
    rcases hport' with rfl | rfl
    · exact Or.inl ((hanswered _).mp hport)
    · exact Or.inr ((hanswered _).mp hport)
  · rintro (hport | hport)
    · exact ⟨_, (hanswered _).mpr hport⟩
    · exact ⟨_, (hanswered _).mpr hport⟩

theorem nodeAnswered_iff {o : Observation} {part : Stage → List DoctorEvent}
    (h : Observes json build config o part) (hparts : ∀ e, e ∈ t ↔ ∃ stage, e ∈ part stage) :
    (o.reachable = some true ↔ NodeAnswered json t) ∧
      ∀ port answer, (⟨.get port healthPath, answer⟩ : DoctorEvent) ∈ t →
        o.answeredPort = some port := by
  have hmem : ∀ port answer, (⟨.get port healthPath, answer⟩ : DoctorEvent) ∈ t ↔
      ⟨.get port healthPath, answer⟩ ∈ part .node := by
    intro port answer
    exact mem_part_iff h hparts (stageOf_health port)
  rcases h.node with ⟨-, hnil, hreachable⟩ | ⟨port, hport, hnode⟩
  · have hnone : ∀ port answer, (⟨.get port healthPath, answer⟩ : DoctorEvent) ∉ t := by
      intro port answer he
      rw [hmem, hnil] at he
      cases he
    refine ⟨iff_of_false (by simp [hreachable]) ?_, fun port answer he => (hnone _ _ he).elim⟩
    rintro ⟨port, r, he, -⟩
    exact hnone _ _ he
  · obtain ⟨answer, hpart, hreachable⟩ := runs_probeNode_iff.mp hnode
    constructor
    · rw [hreachable]
      constructor
      · intro hsome
        cases answer with
        | none => cases hsome
        | some r =>
            refine ⟨port, r, (hmem _ _).mpr ?_, hsome⟩
            rw [hpart]
            exact List.mem_singleton_self _
      · rintro ⟨port', r, he, hr⟩
        rw [hmem, hpart, List.mem_singleton] at he
        cases he
        exact hr
    · intro port' answer' he
      rw [hmem, hpart, List.mem_singleton] at he
      cases he
      exact hport

theorem upstream_iff {o : Observation} {part : Stage → List DoctorEvent}
    (h : Observes json build config o part) (hparts : ∀ e, e ∈ t ↔ ∃ stage, e ∈ part stage) :
    Tells "secure_upstream" (Encrypted t) o.upstream ∧ (o.upstream.status = .warn ↔ Plain t) ∧
      (o.upstream.status = .info ↔ config.secureUpstream = false) := by
  have hmem : ∀ q answer, (⟨.dns q, answer⟩ : DoctorEvent) ∈ t ↔
      ⟨.dns q, answer⟩ ∈ part .upstream := by
    intro q answer
    exact mem_part_iff h hparts rfl
  have hencrypted : Encrypted (part .upstream) ↔ Encrypted t := by
    simp only [Encrypted, SecureDns.Encrypted, mem_dnsEvents_iff, liftDns, hmem]
  have hplain : Plain (part .upstream) ↔ Plain t := by
    simp only [Plain, SecureDns.Plain, mem_dnsEvents_iff, liftDns, hmem]
  obtain ⟨htells, hwarn, hinfo, -⟩ := of_runs_upstream h.upstream
  rw [hencrypted] at htells
  exact ⟨htells, hwarn.trans hplain, hinfo⟩

/-- The three informational checks are `info` whatever was observed. -/
theorem informs_of_observes {o : Observation} {part : Stage → List DoctorEvent}
    (h : Observes json build config o part) :
    ∀ check ∈ o.checks config, check.id ∈ informational → check.status = .info := by
  have hother : ∀ {id : String} {works : Prop} {c : Check}, Tells id works c →
      id.toList ∉ informational → c.id ∈ informational → c.status = .info := by
    intro id works c htells hnot hmem
    rw [htells.id_eq] at hmem
    exact absurd hmem hnot
  have hconfig : (evaluateOsConfig o.present).status = .info := by
    rcases o.present with _ | _ | _ <;> rfl
  have hbrowser : (evaluateBrowserDoh o.found).status = .info := by
    rw [evaluateBrowserDoh]
    split_ifs <;> rfl
  obtain ⟨hupstream, -⟩ := of_runs_upstream h.upstream
  simp only [Observation.checks, List.forall_mem_cons]
  refine ⟨hother (tells_loopback _ _) (by decide), hother (tells_dnsDirect _ _) (by decide),
    hother (tells_osRouting _ _) (by decide), fun _ => hconfig,
    hother (tells_gateway _ _ _) (by decide), hother (tells_node _) (by decide),
    fun _ => hbrowser, fun _ => h.holder.2, hother hupstream (by decide), ?_⟩
  intro check hcheck
  cases hcheck

/-- The first three observations are each a single answer. -/
theorem direct_iff {o : Observation} {part : Stage → List DoctorEvent}
    (h : Observes json build config o part) (hparts : ∀ e, e ∈ t ↔ ∃ stage, e ∈ part stage) :
    (o.bindable = true ↔ Bound config t) ∧
      (o.answer.bind Dns.parseFirstAIpv4 = some config.loopbackIp ↔ Responded config t) ∧
      (.v4 config.loopbackIp ∈ o.resolved.toOption.getD [] ↔ OsRouted config t) := by
  have hsingle : ∀ (q : DoctorCall) (r r' : DoctorAnswer q), part (stageOf q) = [⟨q, r⟩] →
      ((⟨q, r'⟩ : DoctorEvent) ∈ t ↔ r = r') := by
    intro q r r' hpart
    rw [mem_part_iff h hparts rfl, hpart, List.mem_singleton, Sigma.mk.injEq]
    simp [eq_comm]
  refine ⟨(hsingle (.bindUdp config.loopbackIp) _ true h.loopback).symm, ?_, ?_⟩
  · have hanswer : ∀ bytes, (⟨responderQuestion config, some bytes⟩ : DoctorEvent) ∈ t ↔
        o.answer = some bytes :=
      fun bytes => hsingle (responderQuestion config) _ _ h.responder
    simp only [Responded, hanswer, Option.bind_eq_some_iff]
  · have hanswer : ∀ addrs, (⟨osQuestion config, .ok addrs⟩ : DoctorEvent) ∈ t ↔
        o.resolved = .ok addrs :=
      fun addrs => hsingle (osQuestion config) _ _ h.routing
    simp only [OsRouted, hanswer]
    cases o.resolved with
    | error e => simp [Except.toOption]
    | ok addrs => simp [Except.toOption]

theorem diagnosed_of_runs (h : Runs (run json build os config) t report) :
    Diagnosed json config t report := by
  obtain ⟨o, part, hparts, hobserves, rfl⟩ := observes_of_runs h
  obtain ⟨hbound, hresponded, hrouted⟩ := direct_iff hobserves hparts
  obtain ⟨hgateway, hport⟩ := gatewayAnswered_iff hobserves hparts
  obtain ⟨hnode, hbehind⟩ := nodeAnswered_iff hobserves hparts
  obtain ⟨hupstream, hwarn, hinfo⟩ := upstream_iff hobserves hparts
  have hchecks : TellsAll (links json config t) (o.checks config) := by
    rw [links, ← hbound, ← hresponded, ← hrouted, ← hgateway, ← hnode]
    exact .cons (tells_loopback _ _) (.cons (tells_dnsDirect _ _) (.cons (tells_osRouting _ _)
      (.cons (tells_osConfig _) (.cons (tells_gateway _ _ _) (.cons (tells_node _)
      (.cons (tells_browserDoh _) (.cons hobserves.holder.1 (.cons hupstream .nil))))))))
  have hpathA : passed (o.checks config) "os_routing" = true ↔ OsRouted config t := by
    rw [passed_iff hchecks]
    simp [links]
  have hpathB : passed (o.checks config) "gateway_port" = true ↔ GatewayAnswered config t := by
    rw [passed_iff hchecks]
    simp [links]
  have hloopback : passed (o.checks config) "loopback_ip" = true ↔ Bound config t := by
    rw [passed_iff hchecks]
    simp [links]
  refine ⟨hchecks, informs_of_observes hobserves, hpathA, hpathB, ?_, ?_, ?_, ⟨?_, ?_⟩, ?_⟩
  · rw [← hpathA, ← hpathB, ← hloopback]
    simp [Report.build, overallOk]
  · intro port answer he
    exact hport port (hbehind port answer he)
  · exact ⟨o.upstream, by simp [Report.build, Observation.checks], hupstream.id_eq, hwarn, hinfo⟩
  · exact ⟨_, (hparts _).mpr ⟨.responder, hobserves.responder ▸ List.mem_singleton_self _⟩, rfl⟩
  · exact ⟨_, (hparts _).mpr ⟨.routing, hobserves.routing ▸ List.mem_singleton_self _⟩, rfl⟩
  · intro e he hasks
    obtain ⟨stage, he⟩ := (hparts e).mp he
    exact (asks_of_mem_part hobserves he).of_asksName hasks

/-- So it is for whatever the machine answers. -/
theorem run_diagnosed (json : JsonText) (build : SecureDns.TokioResolver → Except Str Unit)
    (os : Os) (config : Config) (machine : Behaviour DoctorAnswer) :
    Diagnosed json config ((run json build os config).run machine).1
      ((run json build os config).run machine).2 :=
  diagnosed_of_runs (Prog.runs_run machine (run json build os config))

end Verdict

end DigDns.Doctor
