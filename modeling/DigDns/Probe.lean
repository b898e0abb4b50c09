import DigDns.Gateway.Integrity
import DigDns.Service
import DigDns.State
import DigDns.Support.Http

/-!
# Looking for a running gateway

`status` and `health` of `service.rs`, `probe_gateway_port` of `server.rs` and
`probe_gateway` of `doctor.rs` ask the primary and the fallback port.  What a port
answers is not theirs to choose: another server may hold it.
-/

namespace DigDns

open Rust Http Interaction

/-- `/.dig/health` -/
def healthPath : Str := "/.dig/health".toList

/-- `/.dig/resolve-probe` -/
def resolveProbePath : Str := "/.dig/resolve-probe".toList

/-- What the ports of the loopback address do on a `GET`. -/
structure Ports where
  /-- The answer to a path, if one comes in time. -/
  answer : UInt16 → Str → Option Reply
  /-- What a client ends up with that goes where the answer sends it. -/
  followed : UInt16 → Str → Option Reply

/-- What `reqwest` gets, which follows redirects. -/
def Ports.get (ports : Ports) (port : UInt16) (path : Str) : Option Reply :=
  match ports.answer port path with
  | some r => if r.IsRedirect then ports.followed port path else some r
  | none => none

/-! ## Reading a response by hand -/

/-- `is_2xx_status_line` -/
def is2xxStatusLine (responseHead : Str) : Bool :=
  let first := firstLine responseHead
  if !"HTTP/".toList.isPrefixOf first then false
  else
    match (splitWhitespace first)[1]?.bind parseU16 with
    | some code => 200 ≤ code.toNat && code.toNat < 300
    | none => false

/-- `split_http_message` -/
def splitHttpMessage (response : Str) : Option (Str × Str) :=
  match splitAround ['\r', '\n', '\r', '\n'] response with
  | some parts => some parts
  | none => splitAround ['\n', '\n'] response

/-- `probe_resolve`, which reads once into 256 bytes. -/
def probeResolve (ports : Ports) (port : UInt16) : Bool :=
  match ports.answer port resolveProbePath with
  | none => false
  | some r => is2xxStatusLine (fromUtf8Lossy (r.wire.take 256))

/-- `fetch_control_body` -/
def fetchControlBody (ports : Ports) (port : UInt16) (path : Str) : Option Str := do
  let r ← ports.answer port path
  let parts ← splitHttpMessage (fromUtf8Lossy r.wire)
  if is2xxStatusLine parts.1 then some parts.2 else none

/-! ## The four probes -/

/-- `ServiceOutcome` -/
structure ServiceOutcome where
  summary : Str
  json : Serde.Value

/-- `probe_serving` -/
def probeServing (ports : Ports) (config : Config) : Bool :=
  probeResolve ports config.httpPort || probeResolve ports config.httpFallbackPort

/-- `<ip>:<port>` -/
def address (ip : Str) (port : Nat) : Str := ip ++ ':' :: fmtNat port

/-- `true` and `false` as `{}` prints them. -/
def fmtBool (b : Bool) : Str := if b then "true".toList else "false".toList

/-- `status`, where the service manager and the runtime file have answered. -/
def status (ports : Ports) (config : Config) (registered : Bool) (runtime : Option RuntimeInfo)
    (stateDir : Str) : ServiceOutcome :=
  let serving := probeServing ports config
  let primary := address config.loopbackIp.fmt config.httpPort.toNat
  let bound := (runtime.map fun r => address r.loopbackIp r.httpPort.toNat).getD primary
  let pidNote := (runtime.map fun r => ", pid ".toList ++ fmtNat r.pid.toNat).getD []
  let where_ := bound ++ " (registered: ".toList ++ fmtBool registered ++ pidNote ++ ")".toList
  let summary :=
    if serving then "dig-dns: SERVING on http://".toList ++ where_
    else "dig-dns: NOT responding on http://".toList ++ where_ ++
      " — the service may be stopped or not installed".toList
  let recorded :=
    match runtime with
    | none => []
    | some r => [("pid".toList, .number r.pid.toNat),
        ("bound_port".toList, .number r.httpPort.toNat),
        ("dns_active".toList, .bool r.dnsActive)]
  { summary
    json := .object ([
      ("serving".toList, .bool serving),
      ("registered".toList, .bool registered),
      ("label".toList, .string serviceLabel),
      ("addr".toList, .string bound),
      ("state_dir".toList, .string stateDir)] ++ recorded) }

/-- `health`, where `fromStr` is `serde_json::from_str`. -/
def health (fromStr : Str → Option Serde.Value) (ports : Ports) (config : Config) :
    ServiceOutcome :=
  let ip := config.loopbackIp.fmt
  let fetched := (fetchControlBody ports config.httpPort healthPath).or
    (fetchControlBody ports config.httpFallbackPort healthPath)
  match fetched.bind fromStr with
  | some health =>
      let bound := (((health.get "bound_port".toList).bind Serde.Value.asU64).map fun p =>
        address ip p.toNat).getD (address ip config.httpPort.toNat)
      let nodeReachable := (((health.get "node".toList).bind fun n =>
        n.get "reachable".toList).bind Serde.Value.asBool).getD false
      { summary := "dig-dns: SERVING on http://".toList ++ bound ++
          " (node reachable: ".toList ++ fmtBool nodeReachable ++ ")".toList
        json := .object [("serving".toList, .bool true), ("health".toList, health)] }
  | none =>
      { summary := "dig-dns: NOT responding on http://".toList ++
          address ip config.httpPort.toNat ++
          " — the service may be stopped or not installed (see: dig-dns status)".toList
        json := .object [("serving".toList, .bool false),
          ("label".toList, .string serviceLabel)] }

/-- The loop of `probe_gateway_port` and of `probe_gateway`: the first port that answers
`204`. -/
def firstNoContent (ports : Ports) (primary fallback : UInt16) : Option UInt16 :=
  [primary, fallback].find? fun port =>
    (ports.get port resolveProbePath).any fun r => r.status = 204

/-- `probe_gateway_port`, where `built` says whether its client could be built. -/
def probeGatewayPort (built : Bool) (ports : Ports) (primary fallback : UInt16) :
    Option UInt16 :=
  if built then firstNoContent ports primary fallback else none

/-- `probe_gateway` of the doctor. -/
def probeGateway (ports : Ports) (primary fallback : UInt16) : Option UInt16 :=
  firstNoContent ports primary fallback

/-! ## What a probe sees -/

/-- The status line gives the status, however it goes on. -/
theorem is2xxStatusLine_statusText (r : Reply) (text : Str) :
    is2xxStatusLine (r.statusText ++ text) = decide r.IsSuccess := by
  have hpre : "HTTP/".toList <+: "HTTP/1.".toList := ⟨"1.".toList, by decide⟩
  have hversion : "HTTP/1.".toList <+: r.version := List.prefix_append _ _
  have hstatus : r.version <+: r.statusText := List.prefix_append _ _
  have hhttp : "HTTP/".toList.isPrefixOf (r.statusText ++ firstLine text) = true :=
    List.isPrefixOf_iff_prefix.mpr
      (((hpre.trans hversion).trans hstatus).trans (List.prefix_append _ _))
  unfold is2xxStatusLine
  rw [r.firstLine_statusText]
  dsimp only
  rw [hhttp, r.splitWhitespace_statusText]
  change (match parseU16 (fmtNat r.status.toNat) with
    | some code => 200 ≤ code.toNat && code.toNat < 300
    | none => false) = _
  rw [parseU16_fmtNat]
  exact (Bool.decide_and _ _).symm

theorem probeResolve_eq (ports : Ports) (port : UInt16) :
    probeResolve ports port =
      (ports.answer port resolveProbePath).any fun r => decide r.IsSuccess := by
  unfold probeResolve
  cases ports.answer port resolveProbePath with
  | none => rfl
  | some r =>
      obtain ⟨text, htext⟩ := r.exists_fromUtf8Lossy_take
      change is2xxStatusLine (fromUtf8Lossy (r.wire.take 256)) = decide r.IsSuccess
      rw [htext, is2xxStatusLine_statusText]

/-- The text of a successful answer. -/
def successText (answer : Option Reply) : Option Str :=
  answer.bind fun r => if r.IsSuccess then some (fromUtf8Lossy r.body) else none

theorem fetchControlBody_eq (ports : Ports) (port : UInt16) (path : Str) :
    fetchControlBody ports port path = successText (ports.answer port path) := by
  unfold fetchControlBody successText
  cases ports.answer port path with
  | none => rfl
  | some r =>
      have hsplit : splitHttpMessage (fromUtf8Lossy r.wire) =
          some (r.head, fromUtf8Lossy r.body) := by
        have hhead := r.splitAround_head (fromUtf8Lossy r.body)
        rw [← r.fromUtf8Lossy_wire] at hhead
        unfold splitHttpMessage
        change (match splitAround Reply.blankLine (fromUtf8Lossy r.wire) with
          | some parts => some parts
          | none => splitAround ['\n', '\n'] (fromUtf8Lossy r.wire)) = _
        rw [hhead]
      have hstatus : is2xxStatusLine r.head = decide r.IsSuccess :=
        is2xxStatusLine_statusText r _
      dsimp only [bind, Option.bind]
      rw [hsplit]
      dsimp only
      rw [hstatus]
      simp only [decide_eq_true_eq]

/-! ## Gateways -/

section Gateways

variable (crates : Crates) (fromStr : Str → Option Serde.Value) (ports : Ports)

/-- A port where the gateway answers the control endpoints. -/
def IsGateway (port : UInt16) : Prop :=
  ∃ ctx : Ctx, ctx.boundPort = port ∧
    ∀ path, (controlEndpointFor path).isSome = true →
      ∃ t response r,
        Runs (handle crates ctx "GET".toList ⟨none, none, path⟩
          (some (address ctx.config.loopbackIp.fmt port.toNat)) none) t response ∧
        ports.answer port path = some r ∧ r.status = response.status ∧ r.body = response.body

/-- `serde_json` reads the health report that it writes. -/
def ReadsHealth : Prop :=
  ∀ ctx baseUrl reachable, ∃ text v,
    healthJson crates ctx baseUrl reachable = utf8 text ∧ fromStr text = some v

/-- The object that the health endpoint of a port serves. -/
def healthObject (port : UInt16) : Option Serde.Value :=
  (successText (ports.answer port healthPath)).bind fromStr

/-- A port answers the liveness probe itself with `204`. -/
def AnswersNoContent (port : UInt16) : Prop :=
  ∃ r, ports.answer port resolveProbePath = some r ∧ r.status = 204

/-- A `GET` of the liveness probe ends with `204`. -/
def LeadsToNoContent (port : UInt16) : Prop :=
  ∃ r, ports.get port resolveProbePath = some r ∧ r.status = 204

/-- A port answers the liveness probe with success. -/
def AnswersSuccess (port : UInt16) : Prop :=
  ∃ r, ports.answer port resolveProbePath = some r ∧ r.IsSuccess

variable {crates fromStr ports} {port : UInt16}

theorem handle_control {ctx : Ctx} {path : Str} {ep : ControlEndpoint} {host : Option Str}
    (hpath : controlEndpointFor path = some ep) :
    handle crates ctx "GET".toList ⟨none, none, path⟩ host none =
      controlResponse crates ep ctx := by
  have hclassify : classify crates.codecs ⟨none, none, path⟩ host ctx.config.tld =
      .control ep := by
    unfold classify
    dsimp only [Uri.isProxy]
    rw [hpath]
    rfl
  unfold handle
  rw [hclassify]
  rfl

/-- A gateway answers the liveness probe with `204`. -/
theorem IsGateway.answersNoContent (h : IsGateway crates ports port) :
    AnswersNoContent ports port := by
  obtain ⟨ctx, -, hpaths⟩ := h
  obtain ⟨t, response, r, hruns, hanswer, hstatus, -⟩ := hpaths resolveProbePath (by decide)
  have hprobe : controlEndpointFor resolveProbePath = some .resolveProbe := by decide
  rw [handle_control hprobe] at hruns
  obtain ⟨-, rfl⟩ := runs_ret_iff.mp hruns
  exact ⟨r, hanswer, hstatus⟩

/-- A gateway serves a health object. -/
theorem IsGateway.exists_healthObject (hjson : ReadsHealth crates fromStr)
    (h : IsGateway crates ports port) :
    ∃ text v, successText (ports.answer port healthPath) = some text ∧
      fromStr text = some v := by
  obtain ⟨ctx, -, hpaths⟩ := h
  obtain ⟨t, response, r, hruns, hanswer, hstatus, hbody⟩ := hpaths healthPath (by decide)
  have hhealth : controlEndpointFor healthPath = some .health := by decide
  rw [handle_control hhealth] at hruns
  obtain ⟨reachable, t', -, hruns⟩ := runs_ask_iff.mp hruns
  obtain ⟨baseUrl, t'', -, hruns⟩ := runs_ask_iff.mp hruns
  obtain ⟨-, rfl⟩ := runs_ret_iff.mp hruns
  obtain ⟨text, v, htext, hv⟩ := hjson ctx baseUrl reachable
  have hok : r.status = 200 := hstatus
  have hsuccess : r.IsSuccess := by
    rw [Reply.IsSuccess, hok]
    decide
  refine ⟨text, v, ?_, hv⟩
  rw [successText, hanswer, Option.bind_some, if_pos hsuccess, hbody]
  change some (fromUtf8Lossy (healthJson crates ctx baseUrl reachable)) = some text
  rw [htext, fromUtf8Lossy_utf8]

theorem answersSuccess_of_answersNoContent (h : AnswersNoContent ports port) :
    AnswersSuccess ports port := by
  obtain ⟨r, hanswer, hstatus⟩ := h
  refine ⟨r, hanswer, ?_⟩
  rw [Reply.IsSuccess, hstatus]
  decide

/-- `204` is no redirect. -/
theorem leadsToNoContent_of_answersNoContent (h : AnswersNoContent ports port) :
    LeadsToNoContent ports port := by
  obtain ⟨r, hanswer, hstatus⟩ := h
  refine ⟨r, ?_, hstatus⟩
  have hredirect : ¬ r.IsRedirect := by
    rw [Reply.IsRedirect, hstatus]
    decide
  unfold Ports.get
  rw [hanswer]
  exact if_neg hredirect

/-! ## What the probes report -/

theorem probeServing_iff {config : Config} :
    probeServing ports config = true ↔
      AnswersSuccess ports config.httpPort ∨ AnswersSuccess ports config.httpFallbackPort := by
  have hport : ∀ port, probeResolve ports port = true ↔ AnswersSuccess ports port := by
    intro port
    rw [probeResolve_eq, Option.any_eq_true]
    simp only [decide_eq_true_eq]
    rfl
  rw [probeServing, Bool.or_eq_true, hport, hport]

theorem firstNoContent_eq_some_iff {primary fallback : UInt16} :
    firstNoContent ports primary fallback = some port ↔
      LeadsToNoContent ports primary ∧ port = primary ∨
        ¬ LeadsToNoContent ports primary ∧ LeadsToNoContent ports fallback ∧ port = fallback := by
  have hfound : ∀ port, ((ports.get port resolveProbePath).any fun r => r.status = 204) = true ↔
      LeadsToNoContent ports port := by
    intro port
    rw [Option.any_eq_true]
    simp only [decide_eq_true_eq]
    rfl
  rw [firstNoContent, List.find?_cons]
  by_cases hprimary : LeadsToNoContent ports primary
  · rw [(hfound primary).mpr hprimary]
    simp only [hprimary, true_and, not_true_eq_false, false_and, or_false, Option.some.injEq,
      eq_comm]
  · rw [Bool.not_eq_true _ |>.mp (mt (hfound primary).mp hprimary), List.find?_cons]
    by_cases hfallback : LeadsToNoContent ports fallback
    · rw [(hfound fallback).mpr hfallback]
      simp only [hprimary, hfallback, true_and, not_false_eq_true, false_and, false_or,
        Option.some.injEq, eq_comm]
    · rw [Bool.not_eq_true _ |>.mp (mt (hfound fallback).mp hfallback)]
      simp only [hprimary, hfallback, false_and, and_false, or_false, List.find?_nil, reduceCtorEq]

/-- The report of `health`, from what it read. -/
def healthReport : Option Serde.Value → Serde.Value
  | some v => .object [("serving".toList, .bool true), ("health".toList, v)]
  | none => .object [("serving".toList, .bool false), ("label".toList, .string serviceLabel)]

theorem health_json (config : Config) :
    (health fromStr ports config).json =
      healthReport (((successText (ports.answer config.httpPort healthPath)).or
        (successText (ports.answer config.httpFallbackPort healthPath))).bind fromStr) := by
  unfold health
  rw [fetchControlBody_eq, fetchControlBody_eq]
  dsimp only
  cases ((successText (ports.answer config.httpPort healthPath)).or
    (successText (ports.answer config.httpFallbackPort healthPath))).bind fromStr with
  | none => rfl
  | some v => rfl

theorem healthReport_eq_some_iff {v : Serde.Value} {read : Option Serde.Value} :
    healthReport read = healthReport (some v) ↔ read = some v := by
  constructor
  · intro h
    cases read with
    | none => cases h
    | some w =>
        cases h
        rfl
  · exact fun h => congrArg healthReport h

/-- The four reports on a running gateway. -/
structure Found (crates : Crates) (fromStr : Str → Option Serde.Value) (ports : Ports)
    (config : Config) : Prop where
  status : ∀ registered runtime stateDir,
    (status ports config registered runtime stateDir).json.get "serving".toList =
      some (.bool true)
  /-- The report has the health object of a gateway. -/
  health : ∃ port v, (port = config.httpPort ∨ port = config.httpFallbackPort) ∧
    IsGateway crates ports port ∧ healthObject fromStr ports port = some v ∧
    (health fromStr ports config).json = healthReport (some v)
  pac : ∃ port, probeGatewayPort true ports config.httpPort config.httpFallbackPort = some port ∧
    IsGateway crates ports port
  doctor : ∃ port, probeGateway ports config.httpPort config.httpFallbackPort = some port ∧
    IsGateway crates ports port

/-- The four reports when there is nothing to find. -/
structure NotFound (fromStr : Str → Option Serde.Value) (ports : Ports) (config : Config) :
    Prop where
  status : ∀ registered runtime stateDir,
    (status ports config registered runtime stateDir).json.get "serving".toList =
      some (.bool false)
  health : (health fromStr ports config).json = healthReport none
  pac : probeGatewayPort true ports config.httpPort config.httpFallbackPort = none
  doctor : probeGateway ports config.httpPort config.httpFallbackPort = none

/-- All probes agree on a gateway, and on there being none. -/
structure ProbesAgree (crates : Crates) (fromStr : Str → Option Serde.Value) (ports : Ports)
    (config : Config) : Prop where
  found : IsGateway crates ports config.httpPort ∨ IsGateway crates ports config.httpFallbackPort →
    Found crates fromStr ports config
  notFound : ¬ IsGateway crates ports config.httpPort →
    ¬ IsGateway crates ports config.httpFallbackPort →
      ¬ AnswersNoContent ports config.httpPort → ¬ AnswersNoContent ports config.httpFallbackPort →
        NotFound fromStr ports config

/-- No other server gets in the way. -/
structure Undisturbed (crates : Crates) (fromStr : Str → Option Serde.Value) (ports : Ports)
    (config : Config) : Prop where
  /-- The primary port does not hide a gateway on the fallback port: its health endpoint gives
  no success, or the object of that gateway, and its liveness probe does not end with
  `204`. -/
  fallback : ¬ IsGateway crates ports config.httpPort →
    IsGateway crates ports config.httpFallbackPort →
      (∀ text, successText (ports.answer config.httpPort healthPath) = some text →
        fromStr text = healthObject fromStr ports config.httpFallbackPort) ∧
      ¬ LeadsToNoContent ports config.httpPort
  /-- Where there is no gateway and no `204`, neither port answers the liveness probe with
  success or leads it to a `204`, and what is read as health is no JSON. -/
  nothing : ¬ IsGateway crates ports config.httpPort →
    ¬ IsGateway crates ports config.httpFallbackPort →
      ¬ AnswersNoContent ports config.httpPort → ¬ AnswersNoContent ports config.httpFallbackPort →
        (∀ port ∈ [config.httpPort, config.httpFallbackPort],
          ¬ AnswersSuccess ports port ∧ ¬ LeadsToNoContent ports port) ∧
        ∀ text, (successText (ports.answer config.httpPort healthPath) = some text ∨
            successText (ports.answer config.httpPort healthPath) = none ∧
              successText (ports.answer config.httpFallbackPort healthPath) = some text) →
          fromStr text = none

variable {config : Config}

theorem firstNoContent_eq_none_iff {primary fallback : UInt16} :
    firstNoContent ports primary fallback = none ↔
      ¬ LeadsToNoContent ports primary ∧ ¬ LeadsToNoContent ports fallback := by
  rw [← Option.not_isSome_iff_eq_none, Option.isSome_iff_exists]
  simp only [firstNoContent_eq_some_iff]
  constructor
  · intro h
    refine ⟨fun hprimary => h ⟨primary, .inl ⟨hprimary, rfl⟩⟩, fun hfallback => ?_⟩
    by_cases hprimary : LeadsToNoContent ports primary
    · exact h ⟨primary, .inl ⟨hprimary, rfl⟩⟩
    · exact h ⟨fallback, .inr ⟨hprimary, hfallback, rfl⟩⟩
  · rintro ⟨hprimary, hfallback⟩ ⟨port, ⟨h, -⟩ | ⟨-, h, -⟩⟩
    · exact hprimary h
    · exact hfallback h

/-- The status report says whether a port answers with success. -/
theorem status_serving (registered : Bool) (runtime : Option RuntimeInfo) (stateDir : Str) :
    (status ports config registered runtime stateDir).json.get "serving".toList =
      some (.bool (probeServing ports config)) := rfl

/-- A gateway on the primary port is found by every probe. -/
theorem found_of_primary (hjson : ReadsHealth crates fromStr)
    (h : IsGateway crates ports config.httpPort) : Found crates fromStr ports config := by
  obtain ⟨text, v, htext, hv⟩ := h.exists_healthObject hjson
  have hprobe := leadsToNoContent_of_answersNoContent h.answersNoContent
  refine ⟨fun registered runtime stateDir => ?_, ?_, ?_, ?_⟩
  · rw [status_serving, probeServing_iff.mpr
      (.inl (answersSuccess_of_answersNoContent h.answersNoContent))]
  · refine ⟨config.httpPort, v, .inl rfl, h, ?_, ?_⟩
    · rw [healthObject, htext]
      exact hv
    · rw [health_json, htext]
      exact congrArg healthReport hv
  · exact ⟨config.httpPort, firstNoContent_eq_some_iff.mpr (.inl ⟨hprobe, rfl⟩), h⟩
  · exact ⟨config.httpPort, firstNoContent_eq_some_iff.mpr (.inl ⟨hprobe, rfl⟩), h⟩

/-- So is one on the fallback port, when the primary port does not hide it. -/
theorem found_of_fallback (hjson : ReadsHealth crates fromStr)
    (h : IsGateway crates ports config.httpFallbackPort)
    (hhealth : ∀ text, successText (ports.answer config.httpPort healthPath) = some text →
      fromStr text = healthObject fromStr ports config.httpFallbackPort)
    (hprimary : ¬ LeadsToNoContent ports config.httpPort) :
    Found crates fromStr ports config := by
  obtain ⟨text, v, htext, hv⟩ := h.exists_healthObject hjson
  have hobject : healthObject fromStr ports config.httpFallbackPort = some v := by
    rw [healthObject, htext]
    exact hv
  have hprobe := leadsToNoContent_of_answersNoContent h.answersNoContent
  have hport : firstNoContent ports config.httpPort config.httpFallbackPort =
      some config.httpFallbackPort :=
    firstNoContent_eq_some_iff.mpr (.inr ⟨hprimary, hprobe, rfl⟩)
  refine ⟨fun registered runtime stateDir => ?_, ?_, ⟨_, hport, h⟩, ⟨_, hport, h⟩⟩
  · rw [status_serving, probeServing_iff.mpr
      (.inr (answersSuccess_of_answersNoContent h.answersNoContent))]
  · refine ⟨config.httpFallbackPort, v, .inr rfl, h, hobject, ?_⟩
    rw [health_json]
    apply congrArg healthReport
    cases hread : successText (ports.answer config.httpPort healthPath) with
    | none =>
        rw [Option.none_or, htext]
        exact hv
    | some other => exact (hhealth other hread).trans hobject

/-- What is read as health: the primary port's success, else the fallback port's. -/
theorem or_successText_eq_some_iff {text : Str} :
    (successText (ports.answer config.httpPort healthPath)).or
        (successText (ports.answer config.httpFallbackPort healthPath)) = some text ↔
      successText (ports.answer config.httpPort healthPath) = some text ∨
        successText (ports.answer config.httpPort healthPath) = none ∧
          successText (ports.answer config.httpFallbackPort healthPath) = some text := by
  cases successText (ports.answer config.httpPort healthPath) with
  | none => simp
  | some other => simp

/-- The probes agree exactly where no other server gets in the way. -/
theorem probesAgree_iff (hjson : ReadsHealth crates fromStr) :
    ProbesAgree crates fromStr ports config ↔ Undisturbed crates fromStr ports config := by
  constructor
  · intro hagree
    refine ⟨fun hprimary hfallback => ?_, fun hprimary hfallback hno hno' => ?_⟩
    · have hfound := hagree.found (.inr hfallback)
      obtain ⟨port, v, hport, hgateway, hobject, hreport⟩ := hfound.health
      obtain rfl : port = config.httpFallbackPort :=
        hport.resolve_left fun heq => hprimary (heq ▸ hgateway)
      refine ⟨fun text htext => ?_, fun hleads => ?_⟩
      · rw [health_json, htext, Option.some_or, Option.bind_some, healthReport_eq_some_iff]
          at hreport
        rw [hreport, hobject]
      · obtain ⟨port', hprobe, hgateway'⟩ := hfound.pac
        rcases firstNoContent_eq_some_iff.mp hprobe with ⟨-, rfl⟩ | ⟨hnot, -⟩
        · exact hprimary hgateway'
        · exact hnot hleads
    · have hsilent := hagree.notFound hprimary hfallback hno hno'
      have hserving : ¬ probeServing ports config = true := by
        intro hserving
        have hstatus := hsilent.status false none []
        rw [status_serving, hserving] at hstatus
        cases hstatus
      have hleads := firstNoContent_eq_none_iff.mp hsilent.doctor
      rw [probeServing_iff, not_or] at hserving
      refine ⟨?_, fun text htext => ?_⟩
      · exact List.forall_mem_cons.mpr ⟨⟨hserving.1, hleads.1⟩,
          List.forall_mem_singleton.mpr ⟨hserving.2, hleads.2⟩⟩
      · have hreport := hsilent.health
        rw [health_json, or_successText_eq_some_iff.mpr htext, Option.bind_some] at hreport
        cases hread : fromStr text with
        | none => rfl
        | some v =>
            rw [hread] at hreport
            cases hreport
  · intro h
    refine ⟨fun hgateway => ?_, fun hprimary hfallback hno hno' => ?_⟩
    · by_cases hprimary : IsGateway crates ports config.httpPort
      · exact found_of_primary hjson hprimary
      · have hfallback := hgateway.resolve_left hprimary
        obtain ⟨hhealth, hleads⟩ := h.fallback hprimary hfallback
        exact found_of_fallback hjson hfallback hhealth hleads
    · obtain ⟨hports, hread⟩ := h.nothing hprimary hfallback hno hno'
      obtain ⟨hfirst, hrest⟩ := List.forall_mem_cons.mp hports
      have hsecond := List.forall_mem_singleton.mp hrest
      have hnone := firstNoContent_eq_none_iff.mpr ⟨hfirst.2, hsecond.2⟩
      have hserving : probeServing ports config = false := by
        rw [← Bool.not_eq_true, probeServing_iff, not_or]
        exact ⟨hfirst.1, hsecond.1⟩
      refine ⟨fun registered runtime stateDir => ?_, ?_, hnone, hnone⟩
      · rw [status_serving, hserving]
      · rw [health_json]
        apply congrArg healthReport
        cases htext : (successText (ports.answer config.httpPort healthPath)).or
            (successText (ports.answer config.httpFallbackPort healthPath)) with
        | none => rfl
        | some text => exact hread text (or_successText_eq_some_iff.mp htext)

end Gateways

/-! ## A gateway on the fallback port -/

/-- The health report of a gateway with the default settings on the fallback port. -/
@[irreducible] def fallbackHealthText : Str :=
  '\x7b' :: ("\"bound_port\":8053,\"fallback_port\":8053,\"listeners\":".toList ++
    "\x7b\"dns\":\x7b\"ip\":\"127.0.0.5\",\"port\":53,\"transport\":\"udp+tcp\"\x7d,".toList ++
    "\"gateway\":\x7b\"ip\":\"127.0.0.5\",\"port\":8053\x7d\x7d,".toList ++
    "\"loopback_ip\":\"127.0.0.5\",\"node\":\x7b\"base_url\":\"\",\"reachable\":true\x7d,".toList ++
    "\"paths\":\x7b\"dns\":true,\"gateway\":true\x7d,\"primary_port\":80,".toList ++
    "\"status\":\"ok\",\"tld\":\"dig\",\"uptime_secs\":0,\"using_fallback\":true,".toList ++
    "\"version\":\"0.16.3\"\x7d".toList)

/-- The value of that text. -/
def fallbackHealth : Serde.Value :=
  .object [("bound_port".toList, .number 8053), ("fallback_port".toList, .number 8053),
    ("listeners".toList, .object [
      ("dns".toList, .object [("ip".toList, .string "127.0.0.5".toList),
        ("port".toList, .number 53), ("transport".toList, .string "udp+tcp".toList)]),
      ("gateway".toList, .object [("ip".toList, .string "127.0.0.5".toList),
        ("port".toList, .number 8053)])]),
    ("loopback_ip".toList, .string "127.0.0.5".toList),
    ("node".toList, .object [("base_url".toList, .string []), ("reachable".toList, .bool true)]),
    ("paths".toList, .object [("dns".toList, .bool true), ("gateway".toList, .bool true)]),
    ("primary_port".toList, .number 80), ("status".toList, .string "ok".toList),
    ("tld".toList, .string "dig".toList), ("uptime_secs".toList, .number 0),
    ("using_fallback".toList, .bool true), ("version".toList, .string "0.16.3".toList)]

/-- `serde_json` on that report. -/
def fallbackCrates : Crates := { sampleCrates with
  jsonToVec := fun _ => some (utf8 fallbackHealthText) }

def fallbackFromStr (text : Str) : Option Serde.Value :=
  if text = fallbackHealthText then some fallbackHealth else none

def fallbackCtx : Ctx := { sampleCtx with boundPort := 8053 }

/-- A response on the wire. -/
def replyOf (response : GatewayResponse) : Reply where
  minor := 0
  status := response.status
  reason := []
  headers := []
  body := response.body
  reason_line := nofun
  header_lines := nofun

/-- What the gateway does with a path. -/
def fallbackProg (path : Str) : NodeProg GatewayResponse :=
  handle fallbackCrates fallbackCtx "GET".toList ⟨none, none, path⟩
    (some (address fallbackCtx.config.loopbackIp.fmt (8053 : UInt16).toNat)) none

/-- The gateway on the fallback port, and any server on the primary port. -/
def fallbackPorts (primary : Str → Option Reply) : Ports where
  answer port path :=
    if port = 8053 then some (replyOf ((fallbackProg path).run sampleNode).2)
    else if port = 80 then primary path
    else none
  followed _ _ := none

theorem readsHealth_fallback : ReadsHealth fallbackCrates fallbackFromStr := by
  intro ctx baseUrl reachable
  refine ⟨fallbackHealthText, fallbackHealth, ?_, if_pos rfl⟩
  unfold healthJson
  exact Option.getD_some

theorem isGateway_fallback (primary : Str → Option Reply) :
    IsGateway fallbackCrates (fallbackPorts primary) 8053 := by
  refine ⟨fallbackCtx, rfl, fun path _ => ?_⟩
  refine ⟨_, ((fallbackProg path).run sampleNode).2,
    replyOf ((fallbackProg path).run sampleNode).2, Prog.runs_run sampleNode (fallbackProg path),
    ?_, rfl, rfl⟩
  change (if (8053 : UInt16) = 8053 then some (replyOf ((fallbackProg path).run sampleNode).2)
    else if (8053 : UInt16) = 80 then primary path else none) = _
  exact if_pos rfl

/-- A server that answers everything with a page. -/
def pageServer (_path : Str) : Option Reply :=
  some (replyOf (.withType 200 "text/html".toList (utf8 "<html></html>".toList)))

/-- Such a server on the primary port hides the gateway from `health`. -/
theorem probesAgree_pageServer :
    ¬ ProbesAgree fallbackCrates fallbackFromStr (fallbackPorts pageServer) Config.default := by
  intro hagree
  obtain ⟨port, v, -, -, -, hreport⟩ :=
    (hagree.found (.inr (isGateway_fallback pageServer))).health
  have hpage : successText ((fallbackPorts pageServer).answer 80 healthPath) =
      some "<html></html>".toList := by
    change some (fromUtf8Lossy (utf8 "<html></html>".toList)) = _
    rw [fromUtf8Lossy_utf8]
  have hread : fallbackFromStr "<html></html>".toList = none := by
    refine if_neg fun heq => ?_
    have hbrace : fallbackHealthText.head? = some '\x7b' := by
      unfold fallbackHealthText
      exact List.head?_cons
    rw [← heq] at hbrace
    cases hbrace
  rw [health_json] at hreport
  change healthReport (((successText ((fallbackPorts pageServer).answer 80 healthPath)).or
    _).bind _) = _ at hreport
  rw [hpage, Option.some_or, Option.bind_some, hread] at hreport
  cases hreport

/-- With nothing on the primary port the probes agree. -/
theorem probesAgree_fallback :
    ReadsHealth fallbackCrates fallbackFromStr ∧
      ProbesAgree fallbackCrates fallbackFromStr (fallbackPorts fun _ => none)
        Config.default := by
  refine ⟨readsHealth_fallback, (probesAgree_iff readsHealth_fallback).mpr ?_⟩
  refine ⟨fun _ _ => ⟨nofun, ?_⟩, fun _ hfallback => ?_⟩
  · rintro ⟨r, hget, -⟩
    cases hget
  · exact absurd (isGateway_fallback fun _ => none) hfallback

end DigDns
