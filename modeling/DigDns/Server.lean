import DigDns.DigLocal
import DigDns.Dns.Records
import DigDns.Pac.Reading
import DigDns.Probe

/-!
# The server

`serve_with_shutdown` of `server.rs` up to the point where it serves: it resolves the
node, binds the gateway and the responder, and leaves a task behind that tries to bind
the `dig.local` proxy.  Whatever the environment and the network do, everything it
binds, advertises and answers with is a loopback address.
-/

namespace DigDns

open Rust Interaction

/-- What the server asks of its host. -/
inductive ServeCall
  | host (call : HostCall)
  | bindUdp (ip : Ipv4Addr) (port : UInt16)
  /-- The wait before the next ensure attempt. -/
  | retry

/-- A wait says whether the shutdown came first. -/
abbrev ServeAnswer : ServeCall → Type
  | .host call => HostAnswer call
  | .bindUdp _ _ => Except Str Unit
  | .retry => Bool

/-- A program of the server. -/
abbrev ServeProg := Prog ServeAnswer

/-- A program of a process runs in the server. -/
def onHost {α : Type} (p : HostProg α) : ServeProg α :=
  p.interpret fun call => .ask (.host call) .ret

/-- So does one that talks to the network. -/
def onNetwork {α : Type} (p : HttpProg α) : ServeProg α :=
  p.interpret fun call => .ask (.host (.http call)) .ret

/-- `TcpListener::bind` -/
def bindTcp (ip : Ipv4Addr) (port : UInt16) : ServeProg (Except Str UInt16) :=
  .ask (.host (.bind ip port)) .ret

/-- `<ip>:<port>`, as a `SocketAddr` prints. -/
def socketAddr (ip : Ipv4Addr) (port : UInt16) : Str := address ip.fmt port.toNat

/-- `bind_listener`: the port that is bound, and whether it is the fallback. -/
def bindListener (primary fallback : Ipv4Addr × UInt16) :
    ServeProg (Except Str (UInt16 × Bool)) := do
  match ← bindTcp primary.1 primary.2 with
  | .ok port => return .ok (port, false)
  | .error primaryErr =>
      match ← bindTcp fallback.1 fallback.2 with
      | .ok port => return .ok (port, true)
      | .error fallbackErr =>
          return .error ("could not bind primary ".toList ++
            socketAddr primary.1 primary.2 ++ " (".toList ++ primaryErr ++
            ") nor fallback ".toList ++ socketAddr fallback.1 fallback.2 ++ " (".toList ++
            fallbackErr ++ ")".toList)

/-- `bind_dns` -/
def bindDns (ip : Ipv4Addr) (port : UInt16) : ServeProg (Except Str Unit) := do
  match ← Prog.ask (.bindUdp ip port) .ret with
  | .error e => return .error e
  | .ok () =>
      match ← bindTcp ip port with
      | .error e => return .error e
      | .ok _ => return .ok ()

/-- The first rounds of the loop of `spawn_dig_local_ensure`. -/
def ensureLoop (client : Except NodeError Unit) (config : Config) : Nat → ServeProg Unit
  | 0 => return ()
  | rounds + 1 => do
      match ← onHost (ensureDigLocalMapping client config) with
      | .unavailable _ =>
          if ← Prog.ask .retry .ret then return () else ensureLoop client config rounds
      | .alreadyMapped => return ()
      | .established _ => return ()

/-- What the server works with once it serves. -/
structure Serving where
  /-- The base that the client of the node is bound to. -/
  base : Str
  ctx : Ctx
  usedFallback : Bool

/-- `serve_with_shutdown`, where `client` and `localClient` are what building the clients of
the node and of the `dig.local` proxy gave; its ensure task makes `rounds` attempts. -/
def serveWithShutdown (client localClient : Except NodeError Unit) (config : Config)
    (rounds : Nat) : ServeProg (Except Str Serving) := do
  match ← onNetwork (ReqwestNodeClient.resolve client config) with
  | .error e => return .error e.message
  | .ok base =>
      match ← bindListener (config.loopbackIp, config.httpPort)
        (config.loopbackIp, config.httpFallbackPort) with
      | .error e => return .error e
      | .ok (boundPort, usedFallback) =>
          let dns ← bindDns config.loopbackIp config.dnsPort
          ensureLoop localClient config rounds
          return .ok {
            base
            ctx := { config, boundPort, dnsActive := dns.isOk, uptimeSecs := 0 }
            usedFallback }

/-- The text of `dig-dns pac`, where `built` says whether the client of its probe could be
built. -/
def pacCommand (port : Option UInt16) (built : Bool) (ports : Ports) (config : Config) : Str :=
  let boundPort := port.getD ((probeGatewayPort built ports config.httpPort
    config.httpFallbackPort).getD config.httpPort)
  Pac.generate config.loopbackIp boundPort config.tld

/-! ## What is bound -/

/-- A bind of a loopback address and a port that is not zero. -/
def LoopbackBind : ServeCall → Prop
  | .host (.bind ip port) => ip.isLoopback = true ∧ port ≠ 0
  | .host (.http _) => True
  | .bindUdp ip port => ip.isLoopback = true ∧ port ≠ 0
  | .retry => True

theorem asks_bindTcp {ip : Ipv4Addr} {port : UInt16} (hip : ip.isLoopback = true)
    (hport : port ≠ 0) : (bindTcp ip port).Asks LoopbackBind :=
  ⟨⟨hip, hport⟩, fun _ => trivial⟩

theorem asks_bindListener {primary fallback : Ipv4Addr × UInt16}
    (hprimary : primary.1.isLoopback = true ∧ primary.2 ≠ 0)
    (hfallback : fallback.1.isLoopback = true ∧ fallback.2 ≠ 0) :
    (bindListener primary fallback).Asks LoopbackBind := by
  refine Prog.asks_bind (asks_bindTcp hprimary.1 hprimary.2) fun first => ?_
  cases first with
  | ok port => trivial
  | error primaryErr =>
      refine Prog.asks_bind (asks_bindTcp hfallback.1 hfallback.2) fun second => ?_
      cases second with
      | ok port => trivial
      | error fallbackErr => trivial

theorem asks_bindDns {ip : Ipv4Addr} {port : UInt16} (hip : ip.isLoopback = true)
    (hport : port ≠ 0) : (bindDns ip port).Asks LoopbackBind := by
  refine Prog.asks_bind ⟨⟨hip, hport⟩, fun _ => trivial⟩ fun udp => ?_
  cases udp with
  | error e => trivial
  | ok _ =>
      refine Prog.asks_bind (asks_bindTcp hip hport) fun tcp => ?_
      cases tcp with
      | error e => trivial
      | ok _ => trivial

/-- A call of the host that is fit for the server. -/
def LoopbackHostCall (call : HostCall) : Prop := LoopbackBind (.host call)

theorem asks_ensureDigLocalMapping {config : Config} (hvalid : config.Valid)
    (client : Except NodeError Unit) :
    (ensureDigLocalMapping client config).Asks LoopbackHostCall := by
  have hport : config.digLocalPort ≠ 0 :=
    hvalid.ports (envDigLocalPort, config.digLocalPort) (by simp [Config.ports])
  cases client with
  | error e => trivial
  | ok _ =>
      refine ⟨trivial, fun answered => ?_⟩
      cases answered with
      | true => trivial
      | false =>
          refine ⟨⟨hvalid.digLocalIp, hport⟩, fun bound => ?_⟩
          cases bound with
          | ok port => trivial
          | error reason => trivial

theorem asks_onHost {α : Type} {p : HostProg α} (hp : p.Asks LoopbackHostCall) :
    (onHost p).Asks LoopbackBind := by
  refine Prog.asks_interpret ?_ hp
  intro call hcall
  exact Prog.asks_query hcall

theorem asks_onNetwork {α : Type} (p : HttpProg α) : (onNetwork p).Asks LoopbackBind := by
  refine Prog.asks_interpret (P := fun _ => True) ?_ (Prog.asks_of_forall (fun _ => trivial) p)
  intro call _
  exact Prog.asks_query trivial

theorem asks_ensureLoop {config : Config} (hvalid : config.Valid)
    (client : Except NodeError Unit) (rounds : Nat) :
    (ensureLoop client config rounds).Asks LoopbackBind := by
  induction rounds with
  | zero => trivial
  | succ rounds ih =>
      refine Prog.asks_bind (asks_onHost (asks_ensureDigLocalMapping hvalid client))
        fun outcome => ?_
      cases outcome with
      | alreadyMapped => trivial
      | established boundPort => trivial
      | unavailable reason =>
          refine ⟨trivial, fun stopped => ?_⟩
          cases stopped with
          | true => trivial
          | false => exact ih

theorem ports_ne_zero {config : Config} (hvalid : config.Valid) :
    config.dnsPort ≠ 0 ∧ config.httpPort ≠ 0 ∧ config.httpFallbackPort ≠ 0 := by
  have hports := hvalid.ports
  simp only [Config.ports, List.forall_mem_cons] at hports
  exact ⟨hports.1, hports.2.1, hports.2.2.1⟩

/-- A server with a valid configuration binds nothing but loopback addresses. -/
theorem asks_serveWithShutdown {config : Config} (hvalid : config.Valid)
    (client localClient : Except NodeError Unit) (rounds : Nat) :
    (serveWithShutdown client localClient config rounds).Asks LoopbackBind := by
  obtain ⟨hdns, hhttp, hfallback⟩ := ports_ne_zero hvalid
  refine Prog.asks_bind (asks_onNetwork _) fun base => ?_
  cases base with
  | error e => trivial
  | ok base =>
      refine Prog.asks_bind (asks_bindListener ⟨hvalid.loopbackIp, hhttp⟩
        ⟨hvalid.loopbackIp, hfallback⟩) fun listener => ?_
      cases listener with
      | error e => trivial
      | ok listener =>
          refine Prog.asks_bind (asks_bindDns hvalid.loopbackIp hdns) fun dns => ?_
          exact Prog.asks_bind (asks_ensureLoop hvalid localClient rounds) fun _ => trivial

/-! ## What is advertised -/

/-- A listener is bound to the port it was asked for, unless that is zero. -/
def ListensAsAsked : Event ServeAnswer → Prop
  | ⟨.host (.bind _ port), .ok bound⟩ => port ≠ 0 → bound = port
  | _ => True

theorem boundPort_of_runs {primary fallback : Ipv4Addr × UInt16} {t : List (Event ServeAnswer)}
    {port : UInt16} {used : Bool} (h : Runs (bindListener primary fallback) t (.ok (port, used)))
    (hlisten : ∀ e ∈ t, ListensAsAsked e) (hprimary : primary.2 ≠ 0)
    (hfallback : fallback.2 ≠ 0) : port = primary.2 ∨ port = fallback.2 := by
  obtain ⟨first, t₁, rfl, hrest⟩ := runs_ask_iff.mp h
  have hfirst := hlisten _ List.mem_cons_self
  cases first with
  | ok bound =>
      obtain ⟨-, hport⟩ := runs_ret_iff.mp hrest
      cases hport
      exact .inl (hfirst hprimary)
  | error primaryErr =>
      obtain ⟨second, t₂, rfl, hlast⟩ := runs_ask_iff.mp hrest
      have hsecond := hlisten _ (List.mem_cons_of_mem _ List.mem_cons_self)
      cases second with
      | ok bound =>
          obtain ⟨-, hport⟩ := runs_ret_iff.mp hlast
          cases hport
          exact .inr (hsecond hfallback)
      | error fallbackErr =>
          obtain ⟨-, hport⟩ := runs_ret_iff.mp hlast
          cases hport

/-- A server that serves has bound its gateway. -/
theorem bindListener_of_runs {client localClient : Except NodeError Unit} {config : Config}
    {rounds : Nat} {t : List (Event ServeAnswer)} {serving : Serving}
    (h : Runs (serveWithShutdown client localClient config rounds) t (.ok serving)) :
    serving.ctx.config = config ∧ ∃ t', (∀ e ∈ t', e ∈ t) ∧
      Runs (bindListener (config.loopbackIp, config.httpPort)
        (config.loopbackIp, config.httpFallbackPort)) t'
        (.ok (serving.ctx.boundPort, serving.usedFallback)) := by
  obtain ⟨t₁, base, t₂, rfl, -, hresolved⟩ := runs_bind_iff.mp h
  cases base with
  | error e =>
      obtain ⟨-, hserving⟩ := runs_ret_iff.mp hresolved
      cases hserving
  | ok base =>
      obtain ⟨t₃, listener, t₄, rfl, hbind, hbound⟩ := runs_bind_iff.mp hresolved
      cases listener with
      | error e =>
          obtain ⟨-, hserving⟩ := runs_ret_iff.mp hbound
          cases hserving
      | ok listener =>
          obtain ⟨t₅, dns, t₆, rfl, -, hdns⟩ := runs_bind_iff.mp hbound
          obtain ⟨t₇, ⟨⟩, t₈, rfl, -, hlast⟩ := runs_bind_iff.mp hdns
          obtain ⟨-, hserving⟩ := runs_ret_iff.mp hlast
          cases hserving
          refine ⟨rfl, t₃, fun e he => ?_, hbind⟩
          exact List.mem_append_right t₁ (List.mem_append_left _ he)

/-- Every proxy that a script names is a loopback address with a port that is not zero. -/
def NamesOnlyLoopback (script : Str) : Prop :=
  ∃ marks, Script.marks script = some marks ∧
    ∀ s, Script.Piece.literal s ∈ marks → "PROXY ".toList <+: s →
      ∃ (ip : Ipv4Addr) (port : UInt16), ip.isLoopback = true ∧ port ≠ 0 ∧
        s = Pac.gatewayProxy ip port

theorem namesOnlyLoopback_generate {ip : Ipv4Addr} {port : UInt16} {tld : Str}
    (hip : ip.isLoopback = true) (hport : port ≠ 0) (htld : isSafeTld tld = true) :
    NamesOnlyLoopback (Pac.generate ip port tld) := by
  refine ⟨_, Pac.marks_generate ip port htld, fun s hs hproxy => ?_⟩
  have hhead : ∃ rest, s = 'P' :: rest := by
    obtain ⟨rest, rfl⟩ := hproxy
    exact ⟨_, rfl⟩
  obtain ⟨rest, rfl⟩ := hhead
  simp only [List.mem_cons, List.not_mem_nil, or_false, reduceCtorEq, false_or,
    Script.Piece.literal.injEq] at hs
  rcases hs with hs | hs | hs | hs
  · cases hs
  · refine absurd rfl (forall_mem_of_isSafeTld (P := fun c => c ≠ 'P') htld (by decide) 'P' ?_)
    rw [← hs]
    exact List.mem_cons_self
  · exact ⟨ip, port, hip, hport, hs⟩
  · cases congrArg List.head? hs

/-! ## What is answered -/

/-- Every `A` record of a response carries a loopback address; a response that is no whole
message has no room for a record. -/
def AnswersOnlyLoopback (response : List UInt8) : Prop :=
  response.length = 10 ∨ ∃ m : Rfc1035.Message, response = m.encode ∧
    ∀ r ∈ Dns.records m, r.rtype = Dns.typeA →
      ∃ ip : Ipv4Addr, ip.isLoopback = true ∧ r.rdata = ip.octets

theorem answersOnlyLoopback_respond {request response : List UInt8} {ip : Ipv4Addr} {tld : Str}
    {ttl : UInt32} {transport : Dns.Transport} (hip : ip.isLoopback = true)
    (h : Dns.respond request ip tld ttl transport = some response) :
    AnswersOnlyLoopback response := by
  rcases Dns.respond_cases h with ⟨header, rfl⟩ | ⟨header, q, opt, cut, rfl⟩
  · have hlong := Dns.length_encode_ge (Dns.formErr header)
    refine .inl ?_
    rw [List.length_take]
    omega
  · refine .inr ⟨_, rfl, fun r hr htype => ⟨ip, hip, ?_⟩⟩
    rw [(Dns.eq_aRecord_of_respond h hr htype).1]
    rfl

/-! ## From the configuration to the wire -/

/-- A configuration under which the program stays on the machine. -/
structure LoopbackOnly (config : Config) : Prop where
  /-- The gateway, the responder and the `dig.local` proxy are bound to loopback addresses. -/
  server : ∀ client localClient rounds,
    (serveWithShutdown client localClient config rounds).Asks LoopbackBind
  ensure : ∀ client, (ensureDigLocalMapping client config).Asks LoopbackHostCall
  /-- So is what the PAC endpoint of a running server names. -/
  pacServed : ∀ crates client localClient rounds t serving hostHeader t' response,
    Runs (serveWithShutdown client localClient config rounds) t (.ok serving) →
      (∀ e ∈ t, ListensAsAsked e) →
        Runs (handle crates serving.ctx "GET".toList ⟨none, none, "/.dig/proxy.pac".toList⟩
          hostHeader none) t' response →
          ∃ script, response.body = utf8 script ∧ NamesOnlyLoopback script
  /-- And what `dig-dns pac` prints. -/
  pacPrinted : ∀ built ports, NamesOnlyLoopback (pacCommand none built ports config)
  /-- And what the responder answers. -/
  answers : ∀ request transport response,
    Dns.respond request config.loopbackIp config.tld config.dnsTtlSecs transport =
      some response → AnswersOnlyLoopback response

theorem body_withType (status : UInt16) (contentType : Str) (body : List UInt8) :
    (GatewayResponse.withType status contentType body).body = body := rfl

theorem body_of_runs_proxyPac {crates : Crates} {ctx : Ctx} {t : List NodeEvent}
    {response : GatewayResponse} (h : Runs (controlResponse crates .proxyPac ctx) t response) :
    response.body =
      utf8 (Pac.generate ctx.config.loopbackIp ctx.boundPort ctx.config.tld) := by
  obtain ⟨-, hresponse⟩ := runs_ret_iff.mp h
  rw [hresponse, body_withType]

/-- `dig-dns pac` advertises one of the two ports of the gateway. -/
theorem exists_pacCommand_eq (built : Bool) (ports : Ports) (config : Config) :
    ∃ port, (port = config.httpPort ∨ port = config.httpFallbackPort) ∧
      pacCommand none built ports config = Pac.generate config.loopbackIp port config.tld := by
  cases hprobe : probeGatewayPort built ports config.httpPort config.httpFallbackPort with
  | none =>
      refine ⟨config.httpPort, .inl rfl, ?_⟩
      rw [pacCommand, hprobe]
      rfl
  | some port =>
      have hport : port = config.httpPort ∨ port = config.httpFallbackPort := by
        unfold probeGatewayPort at hprobe
        split_ifs at hprobe
        rcases firstNoContent_eq_some_iff.mp hprobe with ⟨-, hport⟩ | ⟨-, -, hport⟩
        · exact .inl hport
        · exact .inr hport
      refine ⟨port, hport, ?_⟩
      rw [pacCommand, hprobe]
      rfl

/-- Every configuration that loads stays on the machine. -/
theorem loopbackOnly_of_loadConfig {env : Str → Option Str} {nodeFlag : Option Str}
    {config : Config} (h : loadConfig env nodeFlag = .ok config) : LoopbackOnly config := by
  obtain ⟨hvalid, -⟩ := of_loadConfig h
  obtain ⟨-, hhttp, hfallback⟩ := ports_ne_zero hvalid
  refine ⟨asks_serveWithShutdown hvalid, asks_ensureDigLocalMapping hvalid, ?_, ?_, ?_⟩
  · intro crates client localClient rounds t serving hostHeader t' response hserve hlisten hpac
    obtain ⟨hconfig, t₁, hsub, hbind⟩ := bindListener_of_runs hserve
    have hport : serving.ctx.boundPort ≠ 0 := by
      rcases boundPort_of_runs hbind (fun e he => hlisten e (hsub e he)) hhttp hfallback with
        heq | heq
      · rw [heq]
        exact hhttp
      · rw [heq]
        exact hfallback
    have hpath : controlEndpointFor "/.dig/proxy.pac".toList = some .proxyPac := by decide
    rw [handle_control hpath] at hpac
    refine ⟨_, body_of_runs_proxyPac hpac, ?_⟩
    rw [hconfig]
    exact namesOnlyLoopback_generate hvalid.loopbackIp hport hvalid.tld
  · intro built ports
    obtain ⟨port, hport, htext⟩ := exists_pacCommand_eq built ports config
    rw [htext]
    refine namesOnlyLoopback_generate hvalid.loopbackIp ?_ hvalid.tld
    rcases hport with rfl | rfl
    · exact hhttp
    · exact hfallback
  · intro request transport response hresponse
    exact answersOnlyLoopback_respond hvalid.loopbackIp hresponse

/-- Another address, TLD and node, in the environment. -/
theorem loopbackOnly_home :
    loadConfig homeEnv none = .ok homeConfig ∧ LoopbackOnly homeConfig :=
  ⟨loadConfig_homeEnv, loopbackOnly_of_loadConfig loadConfig_homeEnv⟩

end DigDns
