import DigDns.DigLocal
import Mathlib.Data.List.DropRight

/-!
# The target of the relay

The address of the proxy and the base that it forwards to are independent
settings.  Reading a URL and dialling its host is left to the HTTP client, which
enters as a parameter; the endpoint of the target then is the proxy itself in a
few ways that are listed here.
-/

namespace DigDns

open Rust Interaction ReqwestNodeClient

/-! ## Endpoints -/

/-- The schemes that the client takes. -/
inductive Scheme
  | http
  | https
deriving DecidableEq

/-- The port of a scheme. -/
def Scheme.defaultPort : Scheme → UInt16
  | http => 80
  | https => 443

/-- A host of a URL. -/
inductive UrlHost
  | domain (name : Str)
  | ipv4 (ip : Ipv4Addr)
  | ipv6 (segments : List UInt16)
deriving DecidableEq

/-- What a request depends on to reach its server. -/
structure Origin where
  scheme : Scheme
  host : UrlHost
  port : Option UInt16
deriving DecidableEq

/-- The port that is dialled. -/
def Origin.dialled (origin : Origin) : UInt16 := origin.port.getD origin.scheme.defaultPort

/-- How the client reads a URL, and the IPv4 address that it dials for a host. -/
structure Dialler where
  parse : Str → Option Origin
  address : UrlHost → Option Ipv4Addr

/-- The address and port that a URL names. -/
def Dialler.endpoint (dial : Dialler) (url : Str) : Option (Ipv4Addr × UInt16) := do
  let origin ← dial.parse url
  let ip ← dial.address origin.host
  some (ip, origin.dialled)

/-- The address of `localhost`. -/
def localhostIp : Ipv4Addr := ⟨127, 0, 0, 1⟩

/-- What is known of the client on a machine with a given address for `dig.local`. -/
structure Dialler.Documented (dial : Dialler) (digLocalIp : Ipv4Addr) : Prop where
  localNode : dial.parse localhostBase =
    some ⟨.http, .domain "localhost".toList, some defaultLocalNodePort⟩
  /-- A path does not change where a request goes. -/
  path : ∀ base origin p, dial.parse base = some origin →
    dial.parse (base ++ '/' :: p) = some origin
  /-- Slashes at the end do not either. -/
  slashes : ∀ url origin, dial.parse url = some origin →
    dial.parse (url.rdropWhile (· == '/')) = some origin
  ipv4 : ∀ ip, dial.address (.ipv4 ip) = some ip
  digLocal : dial.address (.domain "dig.local".toList) = some digLocalIp
  localhost : dial.address (.domain "localhost".toList) = some localhostIp

section Endpoint

variable {dial : Dialler} {digLocalIp : Ipv4Addr}

theorem Dialler.endpoint_eq_some_iff {url : Str} {ip : Ipv4Addr} {port : UInt16} :
    dial.endpoint url = some (ip, port) ↔ ∃ origin, dial.parse url = some origin ∧
      dial.address origin.host = some ip ∧ origin.dialled = port := by
  simp only [endpoint, Option.bind_eq_bind, Option.bind_eq_some_iff, Option.some.injEq,
    Prod.mk.injEq]
  constructor
  · rintro ⟨origin, hparse, ip', haddress, rfl, hport⟩
    exact ⟨origin, hparse, haddress, hport⟩
  · rintro ⟨origin, hparse, haddress, hport⟩
    exact ⟨origin, hparse, ip, haddress, rfl, hport⟩

theorem exists_rdropWhile_append (url : Str) :
    ∃ slashes, url = url.rdropWhile (· == '/') ++ slashes ∧ ∀ c ∈ slashes, c = '/' := by
  induction url using List.reverseRecOn with
  | nil => exact ⟨[], rfl, by simp⟩
  | append_singleton url c ih =>
      obtain ⟨slashes, hurl, hslashes⟩ := ih
      rw [List.rdropWhile_concat]
      by_cases hc : c = '/'
      · refine ⟨slashes ++ [c], ?_, ?_⟩
        · rw [if_pos (by simpa using hc), ← List.append_assoc, ← hurl]
        · intro d hd
          rcases List.mem_append.mp hd with hd | hd
          · exact hslashes d hd
          · rw [List.mem_singleton.mp hd, hc]
      · exact ⟨[], by rw [if_neg (by simpa using hc), List.append_nil], by simp⟩

/-- A URL names the same origin without the slashes at its end. -/
theorem Dialler.Documented.parse_rdropWhile (hdial : dial.Documented digLocalIp) {url : Str}
    {origin : Origin} :
    dial.parse (url.rdropWhile (· == '/')) = some origin ↔ dial.parse url = some origin := by
  refine ⟨fun htrimmed => ?_, hdial.slashes url origin⟩
  obtain ⟨slashes, hurl, hslashes⟩ := exists_rdropWhile_append url
  cases slashes with
  | nil =>
      rw [List.append_nil] at hurl
      rwa [hurl]
  | cons c rest =>
      obtain rfl := hslashes c List.mem_cons_self
      rw [hurl]
      exact hdial.path _ _ _ htrimmed

/-- Behind a base that names an endpoint, every path goes there. -/
theorem Dialler.Documented.endpoint_path (hdial : dial.Documented digLocalIp) {base : Str}
    {origin : Origin} (hbase : dial.parse base = some origin) (p : Str) :
    dial.endpoint (base ++ '/' :: p) = dial.endpoint base := by
  rw [endpoint, endpoint, hbase, hdial.path _ _ p hbase]

end Endpoint

/-! ## The proxy and its target -/

/-- What the proxy forwards does not arrive where a run has bound it. -/
def AvoidsItself (dial : Dialler) (target : Str) (t : List (Event HostAnswer)) : Prop :=
  ∀ ip port boundPort, (⟨.bind ip port, .ok boundPort⟩ : Event HostAnswer) ∈ t →
    dial.endpoint target ≠ some (ip, port) ∧
      ∀ origin p, dial.parse target = some origin →
        dial.endpoint (target ++ '/' :: p) ≠ some (ip, port)

/-- The settings keep target and proxy apart. -/
def TargetsElsewhere (dial : Dialler) (config : Config) : Prop :=
  match config.nodeUrl with
  | none => config.digLocalIp ≠ localhostIp ∨ config.digLocalPort ≠ defaultLocalNodePort
  | some url => ∀ origin, dial.parse url = some origin → origin.dialled = config.digLocalPort →
      match origin.host with
      | .ipv4 ip => ip ≠ config.digLocalIp
      | .domain name =>
          name ≠ "dig.local".toList ∧
            (name = "localhost".toList → config.digLocalIp ≠ localhostIp) ∧
            (name ≠ "localhost".toList → dial.address (.domain name) ≠ some config.digLocalIp)
      | .ipv6 segments => dial.address (.ipv6 segments) ≠ some config.digLocalIp

section Proxy

variable {dial : Dialler} {config : Config}

/-- A run that establishes the proxy binds it at the configured address, and nothing else. -/
theorem bind_of_runs_ensure {client : Except NodeError Unit} {t : List (Event HostAnswer)}
    {boundPort : UInt16}
    (hrun : Runs (ensureDigLocalMapping client config) t (.established boundPort)) :
    (⟨.bind config.digLocalIp config.digLocalPort, .ok boundPort⟩ : Event HostAnswer) ∈ t ∧
      ∀ ip port bound, (⟨.bind ip port, .ok bound⟩ : Event HostAnswer) ∈ t →
        ip = config.digLocalIp ∧ port = config.digLocalPort := by
  cases client with
  | error e =>
      obtain ⟨-, hreturned⟩ := runs_ret_iff.mp hrun
      cases hreturned
  | ok _ =>
      obtain ⟨answered, rest, rfl, hprobed⟩ := runs_ask_iff.mp hrun
      cases answered with
      | true =>
          obtain ⟨-, hreturned⟩ := runs_ret_iff.mp hprobed
          cases hreturned
      | false =>
          obtain ⟨bound, rest', rfl, hbound⟩ := runs_ask_iff.mp hprobed
          cases bound with
          | error reason =>
              obtain ⟨-, hreturned⟩ := runs_ret_iff.mp hbound
              cases hreturned
          | ok port =>
              obtain ⟨rfl, hreturned⟩ := runs_ret_iff.mp hbound
              cases hreturned
              refine ⟨List.mem_cons_of_mem _ List.mem_cons_self, fun ip port bound hmem => ?_⟩
              rcases List.mem_pair.mp hmem with hprobe | hbind
              · cases hprobe
              · cases hbind
                exact ⟨rfl, rfl⟩

/-- Whether the target names the endpoint of the proxy, setting by setting. -/
theorem endpoint_localNodeTarget_iff (hdial : dial.Documented config.digLocalIp) :
    dial.endpoint (localNodeTarget config) ≠ some (config.digLocalIp, config.digLocalPort) ↔
      TargetsElsewhere dial config := by
  rw [Ne, Dialler.endpoint_eq_some_iff, TargetsElsewhere, localNodeTarget]
  cases config.nodeUrl with
  | none =>
      simp only [hdial.localNode, Option.some.injEq, exists_eq_left', hdial.localhost,
        Origin.dialled, Option.getD_some]
      rw [not_and_or, eq_comm, eq_comm (a := defaultLocalNodePort)]
  | some url =>
      simp only [hdial.parse_rdropWhile]
      constructor
      · rintro haway origin hparse hport
        have hne : dial.address origin.host ≠ some config.digLocalIp :=
          fun haddress => haway ⟨origin, hparse, haddress, hport⟩
        obtain ⟨scheme, host, port⟩ := origin
        cases host with
        | ipv4 ip =>
            rintro rfl
            exact hne (hdial.ipv4 _)
        | domain name =>
            refine ⟨?_, ?_, fun _ => hne⟩
            · rintro rfl
              exact hne hdial.digLocal
            · rintro rfl hlocal
              rw [hlocal] at hne
              exact hne hdial.localhost
        | ipv6 segments => exact hne
      · rintro hsettings ⟨origin, hparse, haddress, hport⟩
        have hhost := hsettings origin hparse hport
        obtain ⟨scheme, host, port⟩ := origin
        cases host with
        | ipv4 ip =>
            rw [hdial.ipv4] at haddress
            exact hhost (Option.some.inj haddress)
        | domain name =>
            by_cases hname : name = "localhost".toList
            · subst hname
              rw [hdial.localhost] at haddress
              exact hhost.2.1 rfl (Option.some.inj haddress).symm
            · exact hhost.2.2 hname haddress
        | ipv6 segments => exact hhost haddress

/-- The proxy never forwards to itself exactly when the settings keep it apart from its target. -/
theorem avoidsItself_iff (hdial : dial.Documented config.digLocalIp)
    {client : Except NodeError Unit} {t : List (Event HostAnswer)} {boundPort : UInt16}
    (hrun : Runs (ensureDigLocalMapping client config) t (.established boundPort)) :
    AvoidsItself dial (localNodeTarget config) t ↔ TargetsElsewhere dial config := by
  obtain ⟨hbound, honly⟩ := bind_of_runs_ensure hrun
  rw [← endpoint_localNodeTarget_iff hdial]
  constructor
  · intro havoids
    exact (havoids _ _ _ hbound).1
  · intro haway ip port bound hmem
    obtain ⟨rfl, rfl⟩ := honly ip port bound hmem
    refine ⟨haway, fun origin p hparse => ?_⟩
    rwa [hdial.endpoint_path hparse]

end Proxy

/-! ## A client for plain URLs -/

/-- Read a host: an address, or else a name. -/
def readHost (host : Str) : Option UrlHost :=
  if host = [] then none
  else
    match Ipv4Addr.parse host with
    | some ip => some (.ipv4 ip)
    | none => some (.domain (toAsciiLowercase host))

/-- Read a host and a port after it. -/
def readAuthority (authority : Str) : Option Origin :=
  match splitOnce ':' authority with
  | none => (readHost authority).map fun host => ⟨.http, host, none⟩
  | some (host, port) => do
      let host ← readHost host
      let port ← parseU16 port
      some ⟨.http, host, some port⟩

/-- Read an `http` URL with a host and perhaps a port. -/
def readUrl (url : Str) : Option Origin :=
  (stripPrefix "http://".toList url).bind fun rest => readAuthority (rest.takeWhile (· ≠ '/'))

/-- A client that reads such URLs, and knows two names. -/
def plainDialler (digLocalIp : Ipv4Addr) : Dialler where
  parse := readUrl
  address
    | .ipv4 ip => some ip
    | .domain name =>
        if name = "dig.local".toList then some digLocalIp
        else if name = "localhost".toList then some localhostIp
        else none
    | .ipv6 _ => none

theorem readUrl_append (rest : Str) :
    readUrl ("http://".toList ++ rest) = readAuthority (rest.takeWhile (· ≠ '/')) := by
  rw [readUrl, stripPrefix_append, Option.bind_some]

/-- A URL that is read has its scheme in front. -/
theorem exists_of_readUrl {url : Str} {origin : Origin} (h : readUrl url = some origin) :
    ∃ rest, url = "http://".toList ++ rest ∧
      readAuthority (rest.takeWhile (· ≠ '/')) = some origin := by
  rw [readUrl] at h
  obtain ⟨rest, hrest, hread⟩ := Option.bind_eq_some_iff.mp h
  exact ⟨rest, stripPrefix_eq_some_iff.mp hrest, hread⟩

theorem takeWhile_append_slash (s p : Str) :
    (s ++ '/' :: p).takeWhile (· ≠ '/') = s.takeWhile (· ≠ '/') := by
  induction s with
  | nil => rfl
  | cons c s ih =>
      rw [List.cons_append, List.takeWhile_cons, List.takeWhile_cons, ih]

theorem takeWhile_rdropWhile (s : Str) :
    (s.rdropWhile (· == '/')).takeWhile (· ≠ '/') = s.takeWhile (· ≠ '/') := by
  obtain ⟨slashes, hs, hslashes⟩ := exists_rdropWhile_append s
  cases slashes with
  | nil =>
      rw [List.append_nil] at hs
      rw [← hs]
  | cons c rest =>
      obtain rfl := hslashes c List.mem_cons_self
      have hfront := takeWhile_append_slash (s.rdropWhile (· == '/')) rest
      rw [← hs] at hfront
      exact hfront.symm

/-- Slashes are dropped from the end of the last part, if it has something else. -/
theorem rdropWhile_append_of_mem {front s : Str} (h : ∃ c ∈ s, c ≠ '/') :
    (front ++ s).rdropWhile (· == '/') = front ++ s.rdropWhile (· == '/') := by
  induction s using List.reverseRecOn with
  | nil =>
      obtain ⟨c, hc, -⟩ := h
      cases hc
  | append_singleton s c ih =>
      rw [← List.append_assoc, List.rdropWhile_concat, List.rdropWhile_concat]
      by_cases hc : c = '/'
      · rw [if_pos (by simpa using hc), if_pos (by simpa using hc)]
        apply ih
        obtain ⟨d, hd, hne⟩ := h
        rcases List.mem_append.mp hd with hd | hd
        · exact ⟨d, hd, hne⟩
        · exact absurd ((List.mem_singleton.mp hd).trans hc) hne
      · rw [if_neg (by simpa using hc), if_neg (by simpa using hc), List.append_assoc]

theorem readUrl_path {base : Str} {origin : Origin} (h : readUrl base = some origin) (p : Str) :
    readUrl (base ++ '/' :: p) = some origin := by
  obtain ⟨rest, rfl, hread⟩ := exists_of_readUrl h
  rw [List.append_assoc, readUrl_append, takeWhile_append_slash]
  exact hread

theorem readUrl_rdropWhile {url : Str} {origin : Origin} (h : readUrl url = some origin) :
    readUrl (url.rdropWhile (· == '/')) = some origin := by
  obtain ⟨rest, rfl, hread⟩ := exists_of_readUrl h
  have hother : ∃ c ∈ rest, c ≠ '/' := by
    by_contra hnone
    have hempty : rest.takeWhile (· ≠ '/') = [] := by
      cases rest with
      | nil => rfl
      | cons c rest =>
          have hc : c = '/' := by_contra fun hc => hnone ⟨c, List.mem_cons_self, hc⟩
          rw [hc]
          rfl
    rw [hempty] at hread
    cases hread
  rw [rdropWhile_append_of_mem hother, readUrl_append, takeWhile_rdropWhile]
  exact hread

theorem plainDialler_documented (digLocalIp : Ipv4Addr) :
    (plainDialler digLocalIp).Documented digLocalIp where
  localNode := by rfl
  path _ _ p hbase := readUrl_path hbase p
  slashes _ _ hurl := readUrl_rdropWhile hurl
  ipv4 _ := rfl
  digLocal := rfl
  localhost := rfl

/-- The run that finds nothing at `dig.local` and binds the proxy. -/
def establishing (config : Config) : List (Event HostAnswer) :=
  [⟨.http (.get (addressBase config.digLocalIp config.digLocalPort ++ "/health".toList)), false⟩,
    ⟨.bind config.digLocalIp config.digLocalPort, .ok config.digLocalPort⟩]

theorem runs_establishing (config : Config) :
    Runs (ensureDigLocalMapping (.ok ()) config) (establishing config)
      (.established config.digLocalPort) :=
  .ask (.ask (.ret _))

/-- A node at the address of `dig.local`, on a port of its own. -/
def besideDigLocal : Config :=
  { Config.default with nodeUrl := some "http://127.0.0.2:9778/".toList }

/-- The proxy and this node are kept apart by their ports. -/
theorem avoidsItself_besideDigLocal :
    AvoidsItself (plainDialler defaultDigLocalIp) (localNodeTarget besideDigLocal)
      (establishing besideDigLocal) := by
  refine (avoidsItself_iff (plainDialler_documented _) (runs_establishing besideDigLocal)).mpr ?_
  have hread : readUrl "http://127.0.0.2:9778/".toList =
      some ⟨.http, .ipv4 ⟨127, 0, 0, 2⟩, some 9778⟩ := by decide +kernel
  intro origin hparse hport
  obtain rfl := Option.some.inj (hread.symm.trans hparse)
  exact absurd hport (by decide)

/-- An override by the name of `dig.local` passes validation and sends every request back. -/
theorem not_avoidsItself_digLocal :
    ({ Config.default with nodeUrl := some "http://dig.local".toList } : Config).validate =
        .ok () ∧
      ¬ AvoidsItself (plainDialler defaultDigLocalIp)
        (localNodeTarget { Config.default with nodeUrl := some "http://dig.local".toList })
        (establishing { Config.default with nodeUrl := some "http://dig.local".toList }) := by
  refine ⟨by decide, fun havoids => ?_⟩
  have haway := (havoids _ _ _ (List.mem_cons_of_mem _ List.mem_cons_self)).1
  exact haway (by decide)

end DigDns
