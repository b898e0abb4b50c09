import DigDns.Node
import DigDns.OsConfig
import DigDns.Support.Layers
import DigDns.Support.Names

/-!
# The lookup of the public node

`secure_dns.rs`: the one public name that the program looks up is asked for from a chain
of encrypted resolvers, and only after all of them from the resolver of the OS.  Every
other name goes to the OS at once.  The resolvers themselves are `hickory`'s; they answer
as they like.
-/

namespace DigDns

namespace SecureDns

open Rust Interaction
open OsConfig (IpAddr)

/-! ## Addresses and resolvers -/

/-- `std::net::Ipv6Addr` -/
structure Ipv6Addr where
  segments : List UInt16
  length_eq : segments.length = 8
deriving DecidableEq

/-- `Ipv6Addr::new` -/
def Ipv6Addr.new (a b c d e f g h : UInt16) : Ipv6Addr := ⟨[a, b, c, d, e, f, g, h], rfl⟩

/-- A name server as `hickory` is given it; without a path, DoH asks at `/dns-query`. -/
inductive NameServerConfig
  | https (ip : IpAddr) (serverName : Str) (path : Option Str)
  | tls (ip : IpAddr) (serverName : Str)
deriving DecidableEq

/-- The name servers of a resolver, in order. -/
abbrev ResolverConfig := List NameServerConfig

/-- `ServerOrderingStrategy` -/
inductive ServerOrderingStrategy
  | queryStatistics
  | userProvidedOrder
deriving DecidableEq

/-- `LookupIpStrategy` -/
inductive LookupIpStrategy
  | ipv4Only
  | ipv6Only
  | ipv4AndIpv6
  | ipv6thenIpv4
  | ipv4thenIpv6
deriving DecidableEq

/-- The options that the program sets. -/
structure ResolverOpts where
  /-- In seconds. -/
  timeout : Nat
  attempts : Nat
  numConcurrentReqs : Nat
  serverOrderingStrategy : ServerOrderingStrategy
  ipStrategy : LookupIpStrategy
deriving DecidableEq

/-- A resolver of `hickory` is what it was built from. -/
structure TokioResolver where
  config : ResolverConfig
  opts : ResolverOpts
deriving DecidableEq

/-! ## The chain -/

/-- `UPSTREAM_HOST` -/
def upstreamHost : Str := "rpc.dig.net".toList

/-- `TIER_TIMEOUT`, in seconds. -/
def tierTimeout : Nat := 3

/-- `Tier` -/
inductive Tier
  | mullvadDoh
  | mullvadDot
  | quad9Dot
deriving DecidableEq

/-- `{}` formatting. -/
def Tier.fmt : Tier → Str
  | mullvadDoh => "Mullvad DoH".toList
  | mullvadDot => "Mullvad DoT".toList
  | quad9Dot => "Quad9 DoT".toList

/-- `EncryptedProtocol` -/
inductive EncryptedProtocol
  | doh
  | dot
deriving DecidableEq

/-- `ProviderTier` -/
structure ProviderTier where
  id : Tier
  ipv6 : Ipv6Addr
  ipv4 : Ipv4Addr
  tlsName : Str
  protocol : EncryptedProtocol

/-- `MULLVAD_DOH` -/
def mullvadDoh : ProviderTier where
  id := .mullvadDoh
  ipv6 := .new 0x2a07 0xe340 0 0 0 0 0 2
  ipv4 := ⟨194, 242, 2, 2⟩
  tlsName := "dns.mullvad.net".toList
  protocol := .doh

/-- `MULLVAD_DOT` -/
def mullvadDot : ProviderTier :=
  { mullvadDoh with
    id := .mullvadDot
    protocol := .dot }

/-- `QUAD9_DOT` -/
def quad9Dot : ProviderTier where
  id := .quad9Dot
  ipv6 := .new 0x2620 0x00fe 0 0 0 0 0 0x0010
  ipv4 := ⟨9, 9, 9, 10⟩
  tlsName := "dns10.quad9.net".toList
  protocol := .dot

/-- `PROVIDER_CHAIN` -/
def providerChain : List ProviderTier := [mullvadDoh, mullvadDot, quad9Dot]

/-- `is_scoped_host` -/
def isScopedHost (host : Str) : Bool :=
  eqIgnoreAsciiCase (host.rdropWhile (· == '.')) upstreamHost

/-- `provider_name_servers` -/
def providerNameServers (tier : ProviderTier) : ResolverConfig :=
  [IpAddr.v6 tier.ipv6.segments, IpAddr.v4 tier.ipv4].map fun ip =>
    match tier.protocol with
    | .doh => .https ip tier.tlsName none
    | .dot => .tls ip tier.tlsName

/-- The resolver of a tier. -/
def tierResolver (tier : ProviderTier) : TokioResolver where
  config := providerNameServers tier
  opts := {
    timeout := tierTimeout
    attempts := 1
    numConcurrentReqs := 1
    serverOrderingStrategy := .userProvidedOrder
    ipStrategy := .ipv6thenIpv4 }

/-- `build_tier_resolver`, where `build` is what building a resolver gives. -/
def buildTierResolver (build : TokioResolver → Except Str Unit) (tier : ProviderTier) :
    Except Str TokioResolver := do
  build (tierResolver tier)
  return tierResolver tier

/-- `SecureResolver` -/
structure SecureResolver where
  tiers : List (Tier × TokioResolver)

/-- `SecureResolver::new` -/
def SecureResolver.new (build : TokioResolver → Except Str Unit) : Except Str SecureResolver := do
  let tiers ← providerChain.mapM fun tier => do
    return (tier.id, ← buildTierResolver build tier)
  return { tiers }

/-! ## Lookups -/

/-- What a lookup asks. -/
inductive DnsCall
  /-- `lookup_ip` of the resolver of a tier. -/
  | lookupIp (resolver : TokioResolver) (host : Str)
  /-- `tokio::net::lookup_host`. -/
  | lookupHost (host : Str)
deriving DecidableEq

/-- An error is its text. -/
abbrev DnsAnswer (_ : DnsCall) : Type := Except Str (List IpAddr)

/-- A program that looks names up. -/
abbrev DnsProg := Prog DnsAnswer

/-- A lookup and its answer. -/
abbrev DnsEvent := Event DnsAnswer

/-- `resolve_with_fallback` -/
def resolveWithFallback {C : Type} (attempt : C → DnsProg (Option (List IpAddr))) :
    List C → DnsProg (Option (C × List IpAddr))
  | [] => return none
  | candidate :: candidates => do
      match ← attempt candidate with
      | some addrs =>
          if !addrs.isEmpty then return some (candidate, addrs)
          else resolveWithFallback attempt candidates
      | none => resolveWithFallback attempt candidates

/-- `os_resolve` -/
def osResolve (host : Str) : DnsProg (Except Str (List IpAddr)) := do
  match ← Prog.ask (.lookupHost host) .ret with
  | .error e => return .error e
  | .ok addrs =>
      if addrs.isEmpty then
        return .error ("the OS resolver returned no addresses for ".toList ++ host)
      else return .ok addrs

/-- The attempt of `resolve_scoped` at one tier. -/
def lookupTier (host : Str) (candidate : Tier × TokioResolver) :
    DnsProg (Option (List IpAddr)) := do
  match ← Prog.ask (.lookupIp candidate.2 host) .ret with
  | .ok addrs => return if !addrs.isEmpty then some addrs else none
  | .error _ => return none

/-- `resolve_scoped` -/
def resolveScoped (resolver : SecureResolver) (host : Str) :
    DnsProg (Except Str (Option Tier × List IpAddr)) := do
  match ← resolveWithFallback (lookupTier host) resolver.tiers with
  | some ((tier, _), addrs) => return .ok (some tier, addrs)
  | none =>
      match ← osResolve host with
      | .error e => return .error e
      | .ok addrs => return .ok (none, addrs)

/-- Addresses as sockets, with the port `0`. -/
def sockets (addrs : List IpAddr) : List (IpAddr × UInt16) := addrs.map fun ip => (ip, 0)

/-- `SecureResolver::resolve` -/
def SecureResolver.resolve (this : SecureResolver) (host : Str) :
    DnsProg (Except Str (List (IpAddr × UInt16))) := do
  let addrs ← (if isScopedHost host then do
      let answer ← resolveScoped this host
      return answer.map Prod.snd
    else osResolve host : DnsProg (Except Str (List IpAddr)))
  return addrs.map sockets

/-! ## The resolver of a client -/

/-- `with_secure_upstream` of `transport.rs`: without a resolver of its own, a client uses
that of the OS. -/
def withSecureUpstream (build : TokioResolver → Except Str Unit) (secureUpstream : Bool) :
    Except NodeError (Option SecureResolver) :=
  if !secureUpstream then .ok none
  else
    match SecureResolver.new build with
    | .error e => .error (.transport ("secure upstream resolver: ".toList ++ e))
    | .ok resolver => .ok (some resolver)

/-- How `reqwest` looks up the host of a URL. -/
def clientResolve (client : Option SecureResolver) (host : Str) :
    DnsProg (Except Str (List (IpAddr × UInt16))) :=
  match client with
  | some resolver => resolver.resolve host
  | none => do
      let answer ← Prog.ask (.lookupHost host) .ret
      return answer.map sockets

/-! ## The chain as a search -/

section Lookups

variable {host : Str} {t : List DnsEvent}

/-- An answer without an address. -/
def NoAddress (answer : Except Str (List IpAddr)) : Prop := ∀ addrs, answer = .ok addrs → addrs = []

/-- The lookups at tiers that gave no address, in order. -/
inductive Declined (host : Str) : List (Tier × TokioResolver) → List DnsEvent → Prop
  | nil : Declined host [] []
  | cons {candidate : Tier × TokioResolver} {tiers : List (Tier × TokioResolver)}
      {answer : Except Str (List IpAddr)} {t : List DnsEvent} (hanswer : NoAddress answer)
      (hrest : Declined host tiers t) :
      Declined host (candidate :: tiers) (⟨.lookupIp candidate.2 host, answer⟩ :: t)

theorem runs_lookupTier_iff {candidate : Tier × TokioResolver} {found : Option (List IpAddr)} :
    Runs (lookupTier host candidate) t found ↔
      ∃ answer, t = [⟨.lookupIp candidate.2 host, answer⟩] ∧
        found = answer.toOption.filter fun addrs => !addrs.isEmpty := by
  constructor
  · intro h
    obtain ⟨answer, t', rfl, hrest⟩ := runs_ask_iff.mp h
    refine ⟨answer, ?_⟩
    cases answer with
    | error e =>
        obtain ⟨rfl, rfl⟩ := runs_ret_iff.mp hrest
        exact ⟨rfl, rfl⟩
    | ok addrs =>
        obtain ⟨rfl, rfl⟩ := runs_ret_iff.mp hrest
        exact ⟨rfl, rfl⟩
  · rintro ⟨answer, rfl, rfl⟩
    cases answer with
    | error e => exact .ask (.ret _)
    | ok addrs => exact .ask (.ret _)

theorem filter_eq_none_iff {answer : Except Str (List IpAddr)} :
    (answer.toOption.filter fun addrs => !addrs.isEmpty) = none ↔ NoAddress answer := by
  cases answer with
  | error e => simp [NoAddress, Except.toOption]
  | ok addrs => simp [NoAddress, Except.toOption]

theorem filter_eq_some_iff {answer : Except Str (List IpAddr)} {addrs : List IpAddr} :
    (answer.toOption.filter fun addrs => !addrs.isEmpty) = some addrs ↔
      answer = .ok addrs ∧ addrs ≠ [] := by
  cases answer with
  | error e => simp [Except.toOption]
  | ok addrs' =>
      simp only [Except.toOption, Option.filter_eq_some_iff, Option.some.injEq, Except.ok.injEq,
        Bool.not_eq_true', List.isEmpty_eq_false_iff]

/-- The fallback is a search for the first candidate with an address. -/
theorem resolveWithFallback_lookupTier (host : Str) (tiers : List (Tier × TokioResolver)) :
    resolveWithFallback (lookupTier host) tiers = Prog.firstSome (lookupTier host) tiers := by
  induction tiers with
  | nil => rfl
  | cons candidate tiers ih =>
      rw [resolveWithFallback, Prog.firstSome, ← ih]
      refine congrArg (Prog.ask _) (funext fun answer => ?_)
      cases answer with
      | error e => rfl
      | ok addrs =>
          cases addrs with
          | nil => rfl
          | cons ip addrs => rfl

theorem declines_lookupTier_iff {tiers : List (Tier × TokioResolver)} :
    Declines (lookupTier host) tiers t ↔ Declined host tiers t := by
  induction tiers generalizing t with
  | nil =>
      constructor
      · rintro ⟨⟩
        exact .nil
      · rintro ⟨⟩
        exact .nil
  | cons candidate tiers ih =>
      constructor
      · rintro (_ | ⟨hfirst, hrest⟩)
        obtain ⟨answer, rfl, hnone⟩ := runs_lookupTier_iff.mp hfirst
        exact .cons (filter_eq_none_iff.mp hnone.symm) (ih.mp hrest)
      · intro h
        cases h with
        | @cons _ _ answer _ hanswer hrest =>
            have hfirst : Runs (lookupTier host candidate)
                [⟨.lookupIp candidate.2 host, answer⟩] none :=
              runs_lookupTier_iff.mpr ⟨answer, rfl, (filter_eq_none_iff.mpr hanswer).symm⟩
            exact Declines.cons hfirst (ih.mpr hrest)

/-! ## What a lookup asks, and what it gives -/

/-- What `os_resolve` makes of the answer of the OS. -/
def osAnswer (host : Str) : Except Str (List IpAddr) → Except Str (List IpAddr)
  | .error e => .error e
  | .ok [] => .error ("the OS resolver returned no addresses for ".toList ++ host)
  | .ok addrs => .ok addrs

theorem runs_osResolve_iff {out : Except Str (List IpAddr)} :
    Runs (osResolve host) t out ↔
      ∃ answer, t = [⟨.lookupHost host, answer⟩] ∧ out = osAnswer host answer := by
  have hret : osResolve host =
      Prog.ask (.lookupHost host) fun answer => .ret (osAnswer host answer) := by
    refine congrArg (Prog.ask _) (funext fun answer => ?_)
    cases answer with
    | error e => rfl
    | ok addrs =>
        cases addrs with
        | nil => rfl
        | cons ip addrs => rfl
  rw [hret]
  constructor
  · intro h
    obtain ⟨answer, t', rfl, hrest⟩ := runs_ask_iff.mp h
    obtain ⟨rfl, rfl⟩ := runs_ret_iff.mp hrest
    exact ⟨answer, rfl, rfl⟩
  · rintro ⟨answer, rfl, rfl⟩
    exact .ask (.ret _)

/-- The lookups of the public node: the tiers in order up to the first one with an address,
and the OS after all of them. -/
theorem runs_resolveScoped_iff {resolver : SecureResolver}
    {out : Except Str (Option Tier × List IpAddr)} :
    Runs (resolveScoped resolver host) t out ↔
      (∃ front candidate back s addrs, resolver.tiers = front ++ candidate :: back ∧
        Declined host front s ∧ addrs ≠ [] ∧
        t = s ++ [⟨.lookupIp candidate.2 host, .ok addrs⟩] ∧
        out = .ok (some candidate.1, addrs)) ∨
      ∃ s answer, Declined host resolver.tiers s ∧ t = s ++ [⟨.lookupHost host, answer⟩] ∧
        out = (osAnswer host answer).map fun addrs => (none, addrs) := by
  rw [resolveScoped, resolveWithFallback_lookupTier]
  constructor
  · intro h
    obtain ⟨s, found, u, rfl, hsearch, hrest⟩ := runs_bind_iff.mp h
    cases found with
    | some found =>
        obtain ⟨⟨tier, resolver'⟩, addrs⟩ := found
        obtain ⟨rfl, rfl⟩ := runs_ret_iff.mp hrest
        obtain ⟨front, back, s, u, htiers, rfl, hdeclines, hfound⟩ :=
          runs_firstSome_some_iff.mp hsearch
        obtain ⟨answer, rfl, hsome⟩ := runs_lookupTier_iff.mp hfound
        obtain ⟨rfl, hne⟩ := filter_eq_some_iff.mp hsome.symm
        exact Or.inl ⟨front, _, back, s, addrs, htiers, declines_lookupTier_iff.mp hdeclines, hne,
          List.append_nil _, rfl⟩
    | none =>
        have hdeclines := declines_lookupTier_iff.mp (runs_firstSome_none_iff.mp hsearch)
        obtain ⟨u, found, u', rfl, hos, hlast⟩ := runs_bind_iff.mp hrest
        obtain ⟨answer, rfl, rfl⟩ := runs_osResolve_iff.mp hos
        refine Or.inr ⟨s, answer, hdeclines, ?_⟩
        cases hout : osAnswer host answer with
        | error e =>
            rw [hout] at hlast
            obtain ⟨rfl, rfl⟩ := runs_ret_iff.mp hlast
            exact ⟨rfl, rfl⟩
        | ok addrs =>
            rw [hout] at hlast
            obtain ⟨rfl, rfl⟩ := runs_ret_iff.mp hlast
            exact ⟨rfl, rfl⟩
  · rintro (⟨front, ⟨tier, resolver'⟩, back, s, addrs, htiers, hdeclined, hne, rfl, rfl⟩ |
      ⟨s, answer, hdeclined, rfl, rfl⟩)
    · refine runs_bind_iff.mpr ⟨_, some ((tier, resolver'), addrs), [], (List.append_nil _).symm, ?_,
        .ret _⟩
      refine runs_firstSome_some_iff.mpr
        ⟨front, back, s, _, htiers, rfl, declines_lookupTier_iff.mpr hdeclined, ?_⟩
      exact runs_lookupTier_iff.mpr ⟨.ok addrs, rfl, (filter_eq_some_iff.mpr ⟨rfl, hne⟩).symm⟩
    · have hsearch := runs_firstSome_none_iff.mpr (declines_lookupTier_iff.mpr hdeclined)
      refine runs_bind_iff.mpr ⟨s, none, _, rfl, hsearch, ?_⟩
      have hos : Runs (osResolve host) [⟨.lookupHost host, answer⟩] (osAnswer host answer) :=
        runs_osResolve_iff.mpr ⟨answer, rfl, rfl⟩
      refine runs_bind_iff.mpr ⟨_, _, [], rfl, hos, ?_⟩
      cases osAnswer host answer with
      | error e => exact .ret _
      | ok addrs => exact .ret _

theorem Declined.forall_mem {tiers : List (Tier × TokioResolver)} (h : Declined host tiers t) :
    ∀ e ∈ t, ∃ candidate ∈ tiers, ∃ answer, NoAddress answer ∧
      e = ⟨.lookupIp candidate.2 host, answer⟩ := by
  induction h with
  | nil => simp
  | cons hanswer _ ih =>
      refine List.forall_mem_cons.mpr ⟨⟨_, List.mem_cons_self, _, hanswer, rfl⟩, fun e he => ?_⟩
      obtain ⟨candidate, hcandidate, answer, hnone, rfl⟩ := ih e he
      exact ⟨candidate, List.mem_cons_of_mem _ hcandidate, answer, hnone, rfl⟩

/-- A resolver of the chain gave an address of a host. -/
def Encrypted (host : Str) (t : List DnsEvent) : Prop :=
  ∃ resolver addrs, (⟨.lookupIp resolver host, .ok addrs⟩ : DnsEvent) ∈ t ∧ addrs ≠ []

/-- The OS gave one. -/
def Plain (host : Str) (t : List DnsEvent) : Prop :=
  ∃ addrs, (⟨.lookupHost host, .ok addrs⟩ : DnsEvent) ∈ t ∧ addrs ≠ []

theorem Declined.not_encrypted {tiers : List (Tier × TokioResolver)} (h : Declined host tiers t) :
    ¬Encrypted host t := by
  rintro ⟨resolver, addrs, hmem, hne⟩
  obtain ⟨candidate, -, answer, hnone, heq⟩ := h.forall_mem _ hmem
  cases heq
  exact hne (hnone addrs rfl)

theorem Declined.not_plain {tiers : List (Tier × TokioResolver)} (h : Declined host tiers t) :
    ¬Plain host t := by
  rintro ⟨addrs, hmem, -⟩
  obtain ⟨candidate, -, answer, -, heq⟩ := h.forall_mem _ hmem
  cases heq

/-- The result names a tier exactly if one gave an address, and has none exactly if the OS
gave it; everything that is asked is asked about the host. -/
theorem of_runs_resolveScoped {resolver : SecureResolver}
    {out : Except Str (Option Tier × List IpAddr)} (h : Runs (resolveScoped resolver host) t out) :
    ((∃ tier addrs, out = .ok (some tier, addrs)) ↔ Encrypted host t) ∧
      ((∃ addrs, out = .ok (none, addrs)) ↔ Plain host t) ∧
      ∀ e ∈ t, e.1 = .lookupHost host ∨ ∃ candidate ∈ resolver.tiers,
        e.1 = .lookupIp candidate.2 host := by
  have hasked : ∀ {tiers : List (Tier × TokioResolver)} {s : List DnsEvent}, Declined host tiers s →
      ∀ e ∈ s, ∃ candidate ∈ tiers, e.1 = .lookupIp candidate.2 host := by
    intro tiers s hdeclined e he
    obtain ⟨candidate, hcandidate, answer, -, rfl⟩ := hdeclined.forall_mem e he
    exact ⟨candidate, hcandidate, rfl⟩
  rcases runs_resolveScoped_iff.mp h with
    ⟨front, candidate, back, s, addrs, htiers, hdeclined, hne, rfl, rfl⟩ |
    ⟨s, answer, hdeclined, rfl, rfl⟩
  · refine ⟨?_, ?_, ?_⟩
    · exact iff_of_true ⟨_, _, rfl⟩
        ⟨candidate.2, addrs, List.mem_append_right _ (List.mem_singleton.mpr rfl), hne⟩
    · refine iff_of_false (by simp) ?_
      rintro ⟨addrs', hmem, hne'⟩
      rcases List.mem_append.mp hmem with hmem | hmem
      · exact hdeclined.not_plain ⟨addrs', hmem, hne'⟩
      · cases List.mem_singleton.mp hmem
    · refine List.forall_mem_append.mpr ⟨fun e he => ?_, fun e he => ?_⟩
      · obtain ⟨other, hother, heq⟩ := hasked hdeclined e he
        exact Or.inr ⟨other, htiers ▸ List.mem_append_left _ hother, heq⟩
      · obtain rfl := List.mem_singleton.mp he
        exact Or.inr ⟨candidate, htiers ▸ List.mem_append_right _ List.mem_cons_self, rfl⟩
  · have hmem_iff : Plain host (s ++ [⟨.lookupHost host, answer⟩]) ↔
        ∃ addrs, answer = .ok addrs ∧ addrs ≠ [] := by
      constructor
      · rintro ⟨addrs, hmem, hne⟩
        rcases List.mem_append.mp hmem with hmem | hmem
        · exact absurd ⟨addrs, hmem, hne⟩ hdeclined.not_plain
        · cases List.mem_singleton.mp hmem
          exact ⟨addrs, rfl, hne⟩
      · rintro ⟨addrs, rfl, hne⟩
        exact ⟨addrs, List.mem_append_right _ (List.mem_singleton.mpr rfl), hne⟩
    refine ⟨?_, ?_, ?_⟩
    · refine iff_of_false ?_ ?_
      · cases osAnswer host answer <;> simp [Except.map]
      · rintro ⟨resolver', addrs, hmem, hne⟩
        rcases List.mem_append.mp hmem with hmem | hmem
        · exact hdeclined.not_encrypted ⟨resolver', addrs, hmem, hne⟩
        · cases List.mem_singleton.mp hmem
    · rw [hmem_iff]
      rcases answer with e | _ | ⟨ip, addrs⟩ <;> simp [osAnswer, Except.map]
    · refine List.forall_mem_append.mpr ⟨fun e he => Or.inr (hasked hdeclined e he), fun e he => ?_⟩
      obtain rfl := List.mem_singleton.mp he
      exact Or.inl rfl

/-! ## Whom a client asks -/

/-- A tier as a resolver that was built holds it. -/
def ProviderTier.candidate (tier : ProviderTier) : Tier × TokioResolver := (tier.id, tierResolver tier)

/-- A resolver that was built has the tiers of the chain. -/
theorem tiers_of_new {build : TokioResolver → Except Str Unit} {resolver : SecureResolver}
    (h : SecureResolver.new build = .ok resolver) :
    resolver.tiers = providerChain.map ProviderTier.candidate := by
  have hbuild : ∀ tier, (do return (tier.id, ← buildTierResolver build tier)) =
      (build (tierResolver tier)).map fun _ => tier.candidate := by
    intro tier
    rw [buildTierResolver]
    cases build (tierResolver tier) with
    | error e => rfl
    | ok _ => rfl
  have hchain : ∀ (chain : List ProviderTier) (tiers : List (Tier × TokioResolver)),
      (chain.mapM fun tier => (build (tierResolver tier)).map fun _ => tier.candidate) =
        .ok tiers → tiers = chain.map ProviderTier.candidate := by
    intro chain
    induction chain with
    | nil =>
        intro tiers htiers
        cases htiers
        rfl
    | cons tier chain ih =>
        intro tiers htiers
        rw [List.mapM_cons] at htiers
        cases hfirst : build (tierResolver tier) with
        | error e =>
            rw [hfirst] at htiers
            cases htiers
        | ok _ =>
            rw [hfirst] at htiers
            cases hrest : chain.mapM fun tier =>
                (build (tierResolver tier)).map fun _ => tier.candidate with
            | error e =>
                rw [hrest] at htiers
                cases htiers
            | ok rest =>
                rw [hrest] at htiers
                cases htiers
                rw [List.map_cons, ← ih rest hrest]
  rw [SecureResolver.new] at h
  simp only [hbuild] at h
  cases hall : providerChain.mapM fun tier =>
      (build (tierResolver tier)).map fun _ => tier.candidate with
  | error e =>
      rw [hall] at h
      cases h
  | ok tiers =>
      rw [hall] at h
      cases h
      exact hchain _ _ hall

/-- What a lookup of a client can be: the names it asks for, whom it asks, and the result. -/
inductive LookupRun (secureUpstream : Bool) (host : Str) :
    List DnsEvent → Except Str (List (IpAddr × UInt16)) → Prop
  /-- A tier has addresses, and those before it have none. -/
  | encrypted {front back : List ProviderTier} {tier : ProviderTier} {s : List DnsEvent}
      {addrs : List IpAddr} (hsecure : secureUpstream = true) (hscoped : isScopedHost host = true)
      (hchain : providerChain = front ++ tier :: back)
      (hdeclined : Declined host (front.map ProviderTier.candidate) s) (hne : addrs ≠ []) :
      LookupRun secureUpstream host (s ++ [⟨.lookupIp (tierResolver tier) host, .ok addrs⟩])
        (.ok (sockets addrs))
  /-- No tier has an address, and the OS is asked. -/
  | degraded {s : List DnsEvent} {answer : Except Str (List IpAddr)}
      (hsecure : secureUpstream = true) (hscoped : isScopedHost host = true)
      (hdeclined : Declined host (providerChain.map ProviderTier.candidate) s) :
      LookupRun secureUpstream host (s ++ [⟨.lookupHost host, answer⟩])
        ((osAnswer host answer).map sockets)
  /-- Another name is the OS's. -/
  | other {answer : Except Str (List IpAddr)} (hsecure : secureUpstream = true)
      (hscoped : isScopedHost host = false) :
      LookupRun secureUpstream host [⟨.lookupHost host, answer⟩]
        ((osAnswer host answer).map sockets)
  /-- Without the chain, every name is. -/
  | plain {answer : Except Str (List IpAddr)} (hsecure : secureUpstream = false) :
      LookupRun secureUpstream host [⟨.lookupHost host, answer⟩] (answer.map sockets)

theorem runs_resolve_iff {resolver : SecureResolver} {out : Except Str (List (IpAddr × UInt16))} :
    Runs (resolver.resolve host) t out ↔
      (isScopedHost host = true ∧ ∃ answer, Runs (resolveScoped resolver host) t answer ∧
        out = (answer.map Prod.snd).map sockets) ∨
      isScopedHost host = false ∧ ∃ answer, t = [⟨.lookupHost host, answer⟩] ∧
        out = (osAnswer host answer).map sockets := by
  rw [SecureResolver.resolve]
  cases hscoped : isScopedHost host with
  | true =>
      simp only [if_true, true_and, reduceCtorEq, false_and, or_false]
      constructor
      · intro h
        obtain ⟨s, addrs, u, rfl, hlookup, hlast⟩ := runs_bind_iff.mp h
        obtain ⟨rfl, rfl⟩ := runs_ret_iff.mp hlast
        obtain ⟨s', answer, u', rfl, hscoped', hret⟩ := runs_bind_iff.mp hlookup
        obtain ⟨rfl, rfl⟩ := runs_ret_iff.mp hret
        refine ⟨answer, ?_, rfl⟩
        rwa [List.append_nil, List.append_nil]
      · rintro ⟨answer, hscoped', rfl⟩
        refine runs_bind_iff.mpr ⟨t, _, [], (List.append_nil t).symm, ?_, .ret _⟩
        exact runs_bind_iff.mpr ⟨t, answer, [], (List.append_nil t).symm, hscoped', .ret _⟩
  | false =>
      simp only [Bool.false_eq_true, if_false, false_and, true_and, false_or]
      constructor
      · intro h
        obtain ⟨s, addrs, u, rfl, hos, hlast⟩ := runs_bind_iff.mp h
        obtain ⟨rfl, rfl⟩ := runs_ret_iff.mp hlast
        obtain ⟨answer, rfl, rfl⟩ := runs_osResolve_iff.mp hos
        exact ⟨answer, rfl, rfl⟩
      · rintro ⟨answer, rfl, rfl⟩
        have hos : Runs (osResolve host) [⟨.lookupHost host, answer⟩] (osAnswer host answer) :=
          runs_osResolve_iff.mpr ⟨answer, rfl, rfl⟩
        exact runs_bind_iff.mpr ⟨_, _, [], (List.append_nil _).symm, hos, .ret _⟩

/-- The chain is asked for the public node only, in order and up to the first tier with an
address; the OS is asked for it only after every tier had none. -/
theorem runs_clientResolve_iff {build : TokioResolver → Except Str Unit} {secureUpstream : Bool}
    {client : Option SecureResolver} (hclient : withSecureUpstream build secureUpstream = .ok client)
    (host : Str) (t : List DnsEvent) (out : Except Str (List (IpAddr × UInt16))) :
    Runs (clientResolve client host) t out ↔ LookupRun secureUpstream host t out := by
  cases secureUpstream with
  | false =>
      cases hclient
      constructor
      · intro h
        obtain ⟨answer, t', rfl, hret⟩ := runs_ask_iff.mp h
        obtain ⟨rfl, rfl⟩ := runs_ret_iff.mp hret
        exact .plain rfl
      · intro h
        cases h with
        | encrypted hsecure => cases hsecure
        | degraded hsecure => cases hsecure
        | other hsecure => cases hsecure
        | plain hsecure => exact .ask (.ret _)
  | true =>
      cases hnew : SecureResolver.new build with
      | error e =>
          simp only [withSecureUpstream, hnew] at hclient
          cases hclient
      | ok resolver =>
          simp only [withSecureUpstream, hnew] at hclient
          cases hclient
          have htiers := tiers_of_new hnew
          change Runs (resolver.resolve host) t out ↔ _
          rw [runs_resolve_iff]
          constructor
          · rintro (⟨hscoped, answer, hruns, rfl⟩ | ⟨hscoped, answer, rfl, rfl⟩)
            · rcases runs_resolveScoped_iff.mp hruns with
                ⟨front, candidate, back, s, addrs, hsplit, hdeclined, hne, rfl, rfl⟩ |
                ⟨s, answer, hdeclined, rfl, rfl⟩
              · rw [htiers] at hsplit
                obtain ⟨front', rest, hchain, rfl, hrest⟩ := List.map_eq_append_iff.mp hsplit
                obtain ⟨tier, back', rfl, rfl, rfl⟩ := List.map_eq_cons_iff.mp hrest
                exact .encrypted rfl hscoped hchain hdeclined hne
              · rw [htiers] at hdeclined
                have hmap : ∀ r : Except Str (List IpAddr),
                    ((r.map fun addrs => ((none : Option Tier), addrs)).map Prod.snd) = r := by
                  intro r
                  cases r with
                  | error e => rfl
                  | ok addrs => rfl
                rw [hmap]
                exact .degraded rfl hscoped hdeclined
            · exact .other rfl hscoped
          · intro h
            cases h with
            | @encrypted front back tier s addrs hsecure hscoped hchain hdeclined hne =>
                refine Or.inl ⟨hscoped, .ok (some tier.id, addrs), ?_, rfl⟩
                refine runs_resolveScoped_iff.mpr (Or.inl
                  ⟨_, tier.candidate, back.map ProviderTier.candidate, s, addrs, ?_, hdeclined, hne,
                    rfl, rfl⟩)
                rw [htiers, hchain, List.map_append, List.map_cons]
            | @degraded s answer hsecure hscoped hdeclined =>
                refine Or.inl ⟨hscoped, (osAnswer host answer).map fun addrs => (none, addrs), ?_, ?_⟩
                · refine runs_resolveScoped_iff.mpr (Or.inr ⟨s, answer, ?_, rfl, rfl⟩)
                  rwa [htiers]
                · cases osAnswer host answer with
                  | error e => rfl
                  | ok addrs => rfl
            | other hsecure hscoped => exact Or.inr ⟨hscoped, _, rfl, rfl⟩
            | plain hsecure => cases hsecure

/-- The first tier does not answer, the second one does. -/
theorem runs_clientResolve_iff_second :
    LookupRun true "RPC.dig.net.".toList
      [⟨.lookupIp (tierResolver mullvadDoh) "RPC.dig.net.".toList, .error "timeout".toList⟩,
        ⟨.lookupIp (tierResolver mullvadDot) "RPC.dig.net.".toList, .ok [.v4 ⟨1, 2, 3, 4⟩]⟩]
      (.ok [(.v4 ⟨1, 2, 3, 4⟩, 0)]) := by
  have hclient : withSecureUpstream (fun _ => .ok ()) true =
      .ok (some ⟨providerChain.map ProviderTier.candidate⟩) := rfl
  refine (runs_clientResolve_iff hclient _ _ _).mp ?_
  exact runs_resolve_iff.mpr (Or.inl ⟨by decide, _, .ask (.ask (.ret _)), rfl⟩)

end Lookups

end SecureDns

end DigDns
