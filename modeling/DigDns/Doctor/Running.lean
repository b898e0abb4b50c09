import DigDns.Dns.RoundTrip
import DigDns.Dns.Transports
import DigDns.Doctor.Verdict

/-!
# The diagnosis of a running service

The responder, the gateway and the diagnosis are three programs of one machine.  Where
the first two run as a configuration says, the third one says so, whatever the rest of
the machine answers: the probe's own question is one that the responder answers, and its
own path one that the gateway serves.
-/

namespace DigDns.Doctor

open Rust Http Interaction
open OsConfig (Os)

/-! ## The question of the probe -/

section Question

variable {tld : Str}

theorem splitOn_probeName (htld : isSafeTld tld = true) :
    (probeName tld).splitOn '.' = ["doctor-probe".toList, tld] := by
  have hdot : '.' ∉ tld := by
    intro hmem
    exact forall_mem_of_isSafeTld (P := (· ≠ '.')) htld (by decide) '.' hmem rfl
  have hprobe : '.' ∉ "doctor-probe".toList := by decide
  have hname : probeName tld = "doctor-probe".toList ++ '.' :: tld := rfl
  rw [hname, List.splitOn_append_cons_self_of_not_mem hprobe, List.splitOn_eq_singleton hdot]

theorem shortLabel_probeName (htld : isSafeTld tld = true) (hlen : tld.length ≤ 63) :
    ∀ l ∈ (probeName tld).splitOn '.', Dns.ShortLabel l := by
  rw [splitOn_probeName htld]
  refine List.forall_mem_cons.mpr ⟨?_, List.forall_mem_singleton.mpr ?_⟩
  · exact ⟨by decide, by decide, by decide⟩
  · refine ⟨List.length_pos_of_ne_nil (ne_nil_of_isSafeTld htld), hlen, ?_⟩
    exact forall_mem_of_isSafeTld htld (by decide)

/-- The responder gives the probe its address, in a datagram that the probe reads whole. -/
theorem exists_respond_probe (htld : isSafeTld tld = true) (hlen : tld.length ≤ 63)
    (ip : Ipv4Addr) (ttl : UInt32) :
    ∃ response, Dns.respond (Dns.buildAQuery (probeName tld)) ip tld ttl .udp = some response ∧
      response.length ≤ 512 ∧ Dns.parseFirstAIpv4 response = some ip := by
  have hshort := shortLabel_probeName htld hlen
  have hsplit := splitOn_probeName htld
  have hquery := Dns.buildAQuery_eq hshort
  have hsize : (Dns.buildAQuery (probeName tld)).length ≤ 484 := by
    have hlength := Dns.length_buildAQuery_le (probeName tld)
    rw [hsplit, List.length_cons, List.length_singleton] at hlength
    omega
  have hcut := Dns.isCut_questionFor hshort hsize tld .udp
  have hunder : Dns.isUnderTld (Dns.questionFor (probeName tld) hshort) tld = true := by
    rw [Dns.isUnderTld_questionFor hshort, hsplit]
    exact ⟨tld, rfl, eqIgnoreAsciiCase_iff.mpr rfl⟩
  have hrespond := Dns.respond_question Dns.queryHeader ip tld ttl .udp
    (Dns.questionFor (probeName tld) hshort) [] (by decide)
  rw [← hquery, show Dns.foundOpt Dns.queryHeader [] = none from rfl, hcut] at hrespond
  refine ⟨_, hrespond, ?_, ?_⟩
  · rw [Dns.length_replyTo_false]
    exact Dns.isCut_udp_eq_false_iff.mp hcut
  · rw [Dns.parseFirstAIpv4_replyTo]
    exact if_pos ⟨hunder, rfl, rfl⟩

end Question

/-! ## The machine -/

/-- `serde_json` prints a value, and reads the text as the value that its maps make of it. -/
def ReadsBack (crates : Crates) (json : JsonText) (v : Serde.Value) : Prop :=
  ∃ bytes, crates.jsonToVec v = some bytes ∧ json.fromSlice bytes = some v.sorted

/-- The doctor finds what the gateway reported. -/
theorem nodeReachable_healthBody (ctx : Ctx) (baseUrl : Str) (reachable : Bool) :
    nodeReachable (healthBody ctx baseUrl reachable) = some reachable := rfl

/-- The order of the members does not matter to it. -/
theorem nodeReachable_sorted (v : Serde.Value) : nodeReachable v.sorted = nodeReachable v := by
  have hget : ∀ key (w : Serde.Value), w.sorted.get key = (w.get key).map Serde.Value.sorted :=
    Serde.Value.get_sorted
  change (v.sorted.get "node".toList).bind (fun node =>
      (node.get "reachable".toList).bind Serde.Value.asBool) =
    (v.get "node".toList).bind fun node =>
      (node.get "reachable".toList).bind Serde.Value.asBool
  simp only [hget, Option.bind_map, Function.comp_def, Serde.Value.asBool_sorted]

/-- The service of a configuration runs, with its gateway on a port; `up` says whether
that gateway reaches a node.  Nothing is said about the other answers. -/
structure Serves (crates : Crates) (json : JsonText) (config : Config) (port : UInt16) (up : Bool)
    (machine : Behaviour DoctorAnswer) : Prop where
  loopback : ∀ history, machine history (.bindUdp config.loopbackIp) = true
  responder : ∀ history query,
    machine history (.exchangeUdp (config.loopbackIp, config.dnsPort) query) =
      (Dns.respond query config.loopbackIp config.tld config.dnsTtlSecs .udp).map (List.take 1500)
  /-- What the port answers to a control path is what the gateway does with it. -/
  gateway : ∃ (ctx : Ctx) (baseUrl : Str), ctx.config = config ∧ ctx.boundPort = port ∧
    (∀ history path, (controlEndpointFor path).isSome = true → ∃ t response r,
      Runs (handle crates ctx "GET".toList ⟨none, none, path⟩
        (some (address config.loopbackIp.fmt port.toNat)) none) t response ∧
      (∀ b, (⟨.healthy, b⟩ : NodeEvent) ∈ t → b = up) ∧
      (∀ url, (⟨.baseUrl, url⟩ : NodeEvent) ∈ t → url = baseUrl) ∧
      machine history (.get port path) = some r ∧
      r.status = response.status ∧ r.body = response.body) ∧
    ReadsBack crates json (healthBody ctx baseUrl up)
  /-- The gateway is where the configuration puts it: on the fallback port only where the
  primary one is not another gateway. -/
  placed : port = config.httpPort ∨ port = config.httpFallbackPort ∧
    ∀ history r, machine history (.get config.httpPort resolveProbePath) = some r → r.status ≠ 204

section Serves

variable {crates : Crates} {json : JsonText} {config : Config} {port : UInt16} {up : Bool}
  {machine : Behaviour DoctorAnswer}

theorem Serves.resolve (h : Serves crates json config port up machine) (history : List DoctorEvent) :
    ∃ r, machine history (.get port resolveProbePath) = some r ∧ r.status = 204 := by
  obtain ⟨ctx, baseUrl, -, -, hpaths, -⟩ := h.gateway
  obtain ⟨t, response, r, hruns, -, -, hget, hstatus, -⟩ :=
    hpaths history resolveProbePath (by decide)
  have hprobe : controlEndpointFor resolveProbePath = some .resolveProbe := by decide
  rw [handle_control hprobe] at hruns
  obtain ⟨-, rfl⟩ := runs_ret_iff.mp hruns
  exact ⟨r, hget, hstatus⟩

theorem Serves.health (h : Serves crates json config port up machine) (history : List DoctorEvent) :
    ∃ r, machine history (.get port healthPath) = some r ∧
      (json.fromSlice r.body).bind nodeReachable = some up := by
  obtain ⟨ctx, baseUrl, -, -, hpaths, bytes, hprint, hread⟩ := h.gateway
  obtain ⟨t, response, r, hruns, hnode, hurl, hget, -, hbody⟩ :=
    hpaths history healthPath (by decide)
  have hhealth : controlEndpointFor healthPath = some .health := by decide
  rw [handle_control hhealth] at hruns
  obtain ⟨reachable, t', rfl, hasked⟩ := runs_ask_iff.mp hruns
  obtain ⟨url, t'', rfl, hprinted⟩ := runs_ask_iff.mp hasked
  obtain ⟨-, rfl⟩ := runs_ret_iff.mp hprinted
  obtain rfl := hnode reachable List.mem_cons_self
  obtain rfl := hurl url (List.mem_cons_of_mem _ List.mem_cons_self)
  have hreport : r.body = bytes := by
    refine hbody.trans ?_
    change healthJson crates ctx url reachable = bytes
    rw [healthJson, hprint, Option.getD_some]
  refine ⟨r, hget, ?_⟩
  rw [hreport, hread, Option.bind_some, nodeReachable_sorted, nodeReachable_healthBody]

/-- The loop of the probe finds the gateway. -/
theorem Serves.answeredPort (h : Serves crates json config port up machine)
    {t : List DoctorEvent} {found : Option UInt16}
    (hanswers : ∀ e ∈ t, ∃ history, e.2 = machine history e.1)
    (hruns : Runs (probeGateway config.httpPort config.httpFallbackPort) t found) :
    found = some port := by
  have hport : ∀ (ports : List UInt16) {s : List DoctorEvent},
      (∀ e ∈ s, ∃ history, e.2 = machine history e.1) →
        Runs (firstAnswering (port :: ports)) s found → found = some port := by
    intro ports s hs hfirst
    obtain ⟨answer, s', rfl, hrest⟩ := runs_ask_iff.mp hfirst
    obtain ⟨history, hanswer⟩ := hs _ List.mem_cons_self
    obtain ⟨r, hget, hstatus⟩ := h.resolve history
    obtain rfl : answer = some r := hanswer.trans hget
    change Runs (if r.status = 204 then .ret (some port) else firstAnswering ports) _ _ at hrest
    rw [if_pos hstatus] at hrest
    exact (runs_ret_iff.mp hrest).2
  rcases h.placed with rfl | ⟨rfl, hprimary⟩
  · exact hport _ hanswers hruns
  · obtain ⟨answer, s, rfl, hrest⟩ := runs_ask_iff.mp hruns
    obtain ⟨hfirst, hothers⟩ := List.forall_mem_cons.mp hanswers
    refine hport [] hothers ?_
    cases answer with
    | none => exact hrest
    | some r =>
        obtain ⟨history, hanswer⟩ := hfirst
        have hstatus := hprimary history r hanswer.symm
        change Runs (if r.status = 204 then .ret (some config.httpPort)
          else firstAnswering [config.httpFallbackPort]) _ _ at hrest
        rwa [if_neg hstatus] at hrest

end Serves

/-! ## The report -/

/-- What the report says of a service that runs. -/
structure Healthy (config : Config) (port : UInt16) (up : Bool) (report : Report) : Prop where
  ok : report.ok = true
  pathB : report.pathB = true
  responder : passed report.checks "dns_direct" = true
  /-- It names the port of the gateway. -/
  gateway : evaluateGateway config.httpPort config.httpFallbackPort (some port) ∈ report.checks
  node : passed report.checks "node_reachable" = up

/-- The diagnosis of a running service finds it, and says whether it reaches a node. -/
theorem run_healthy {crates : Crates} {json : JsonText}
    (build : SecureDns.TokioResolver → Except Str Unit) (os : Os) {config : Config}
    (hvalid : config.Valid) (hlen : config.tld.length ≤ 63) {port : UInt16} {up : Bool}
    {machine : Behaviour DoctorAnswer} (h : Serves crates json config port up machine) :
    Healthy config port up ((run json build os config).run machine).2 := by
  have hanswers : ∀ e ∈ ((run json build os config).run machine).1,
      ∃ history, e.2 = machine history e.1 :=
    fun e he => Prog.exists_of_mem_runFrom he
  have hruns := Prog.runs_run machine (run json build os config)
  generalize ((run json build os config).run machine).1 = t at hanswers hruns
  generalize ((run json build os config).run machine).2 = report at hruns ⊢
  obtain ⟨o, part, hparts, hobserves, rfl⟩ := observes_of_runs hruns
  have hmem : ∀ stage, ∀ e ∈ part stage, ∃ history, e.2 = machine history e.1 :=
    fun stage e he => hanswers e ((hparts e).mpr ⟨stage, he⟩)
  have hbound : o.bindable = true := by
    obtain ⟨history, hbind⟩ := hmem .loopback _ (hobserves.loopback ▸ List.mem_singleton_self _)
    exact hbind.trans (h.loopback history)
  have hresponded : o.answer.bind Dns.parseFirstAIpv4 = some config.loopbackIp := by
    obtain ⟨history, hanswer⟩ := hmem .responder _ (hobserves.responder ▸ List.mem_singleton_self _)
    obtain ⟨response, hrespond, hsize, hparse⟩ := exists_respond_probe hvalid.tld hlen
      config.loopbackIp config.dnsTtlSecs
    have hwhole : o.answer = some response := by
      refine hanswer.trans ((h.responder history _).trans ?_)
      rw [hrespond, Option.map_some, List.take_of_length_le (by omega)]
    rw [hwhole]
    exact hparse
  have hgateway := h.answeredPort (hmem .gateway) hobserves.gateway
  have hreachable : o.reachable = some up := by
    rcases hobserves.node with ⟨hnone, -, -⟩ | ⟨port', hport', hnode⟩
    · rw [hgateway] at hnone
      cases hnone
    · obtain rfl := Option.some.inj (hgateway.symm.trans hport')
      obtain ⟨answer, hpart, hread⟩ := runs_probeNode_iff.mp hnode
      obtain ⟨history, hanswer⟩ := hmem .node _ (hpart ▸ List.mem_singleton_self _)
      obtain ⟨r, hget, hhealth⟩ := h.health history
      obtain rfl : answer = some r := hanswer.trans hget
      exact hread.trans hhealth
  obtain ⟨hbound_iff, hresponded_iff, -⟩ := direct_iff hobserves hparts
  obtain ⟨hgateway_iff, -⟩ := gatewayAnswered_iff hobserves hparts
  obtain ⟨hnode_iff, -⟩ := nodeAnswered_iff hobserves hparts
  have hlive : GatewayAnswered config t := hgateway_iff.mp (by rw [hgateway]; rfl)
  have hdiagnosed := diagnosed_of_runs hruns
  have hdirect : passed (Report.build (o.checks config)).checks "dns_direct" = true := by
    rw [passed_iff hdiagnosed.checks]
    simpa [links] using hresponded_iff.mp hresponded
  have hnode : passed (Report.build (o.checks config)).checks "node_reachable" = true ↔
      up = true := by
    rw [passed_iff hdiagnosed.checks, ← Option.some_inj, ← hreachable, hnode_iff]
    simp [links]
  refine ⟨?_, hdiagnosed.pathB.mpr hlive, hdirect, ?_, Bool.eq_iff_iff.mpr hnode⟩
  · exact hdiagnosed.ok.mpr ⟨hbound_iff.mp hbound, Or.inr hlive⟩
  · rw [← hgateway]
    simp [Report.build, Observation.checks]

/-! ## A machine with the gateway on the fallback port -/

/-- A machine without its system calls. -/
def failing : (q : OsConfig.Call) → OsConfig.Answer q
  | .spawn _ _ => .error []
  | .powershell _ => .error []
  | .readToString _ => .error []
  | .createDirAll _ => .error []
  | .createNew _ => .error []
  | .writeAll _ _ => .error []
  | .syncAll _ => .error []
  | .fsWrite _ _ => .error []
  | .rename _ _ => .error []
  | .removeFile _ => .error []
  | .pathExists _ => false
  | .isDir _ => false
  | .readLink _ => .error []
  | .readDir _ => .error []
  | .processId => 0
  | .toSocketAddrs _ => .error []

mutual

/-- The text of a value without doubles, where no string needs escapes. -/
def jsonText : Serde.Value → Str
  | .null => "null".toList
  | .bool b => fmtBool b
  | .number n => fmtInt n
  | .float _ => []
  | .string s => '"' :: s ++ ['"']
  | .array items => '[' :: List.intercalate [','] (itemTexts items) ++ [']']
  | .object members => '\x7b' :: List.intercalate [','] (memberTexts members) ++ ['\x7d']

def itemTexts : List Serde.Value → List Str
  | [] => []
  | v :: items => jsonText v :: itemTexts items

def memberTexts : List (Str × Serde.Value) → List Str
  | [] => []
  | (key, v) :: members => ('"' :: key ++ "\":".toList ++ jsonText v) :: memberTexts members

end

/-- A gateway that prints its reports. -/
def printingCrates : Crates := { sampleCrates with
  jsonToVec := fun v => some (utf8 (jsonText v.sorted)) }

/-- What this gateway does with a path. -/
def printingProg (path : Str) : NodeProg GatewayResponse :=
  handle printingCrates fallbackCtx "GET".toList ⟨none, none, path⟩
    (some (address fallbackCtx.config.loopbackIp.fmt (8053 : UInt16).toNat)) none

/-- Nothing listens on the primary port, and no name is resolved. -/
def fallbackMachine : Behaviour DoctorAnswer
  | _, .bindUdp _ => true
  | _, .exchangeUdp _ query =>
      (Dns.respond query defaultLoopbackIp defaultTld defaultDnsTtlSecs .udp).map (List.take 1500)
  | _, .get port path =>
      if port = 8053 then some (replyOf ((printingProg path).run sampleNode).2) else none
  | _, .os call => failing call
  | _, .dns (.lookupIp _ _) => .error []
  | _, .dns (.lookupHost _) => .error []

/-- `serde_json` on the health report of that gateway. -/
def fallbackJson : JsonText where
  fromStr _ := none
  fromSlice bytes := if bytes = utf8 fallbackHealthText then some fallbackHealth else none
  print _ := []

theorem sorted_healthBody_fallback :
    (healthBody fallbackCtx [] true).sorted = fallbackHealth := by
  rfl

theorem jsonText_fallbackHealth : jsonText fallbackHealth = fallbackHealthText := by
  unfold fallbackHealthText
  decide +kernel

theorem readsBack_fallback :
    ReadsBack printingCrates fallbackJson (healthBody fallbackCtx [] true) := by
  refine ⟨utf8 fallbackHealthText, ?_, ?_⟩
  · change some (utf8 (jsonText (healthBody fallbackCtx [] true).sorted)) = _
    rw [sorted_healthBody_fallback, jsonText_fallbackHealth]
  · rw [sorted_healthBody_fallback]
    exact if_pos rfl

theorem serves_fallback :
    Serves printingCrates fallbackJson Config.default 8053 true fallbackMachine where
  loopback _ := rfl
  responder _ _ := rfl
  gateway := by
    refine ⟨fallbackCtx, [], rfl, rfl, fun history path _ => ?_, readsBack_fallback⟩
    refine ⟨_, ((printingProg path).run sampleNode).2,
      replyOf ((printingProg path).run sampleNode).2,
      Prog.runs_run sampleNode (printingProg path), ?_, ?_, ?_, rfl, rfl⟩
    · intro b hb
      obtain ⟨before, hanswer⟩ := Prog.exists_of_mem_runFrom hb
      exact hanswer
    · intro url hurl
      obtain ⟨before, hanswer⟩ := Prog.exists_of_mem_runFrom hurl
      exact hanswer
    · change (if (8053 : UInt16) = 8053 then some (replyOf ((printingProg path).run sampleNode).2)
        else none) = _
      exact if_pos rfl
  placed := Or.inr ⟨rfl, fun _ _ hget => by cases hget⟩

theorem run_healthy_fallback :
    Healthy Config.default 8053 true
      ((run fallbackJson (fun _ => .ok ()) .linux Config.default).run fallbackMachine).2 :=
  run_healthy _ _ ((Config.validate_eq_ok_iff _).mp (by decide)) (by decide) serves_fallback

end DigDns.Doctor
