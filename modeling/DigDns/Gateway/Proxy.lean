import DigDns.Gateway.Runs

/-!
# No open proxy

Which requests reach a node, and for which store.  A store is read only for a
`GET` or `HEAD` of an unreserved path on a host that parses; an absolute-form
request is judged by its own authority alone.
-/

namespace DigDns

open Rust Interaction

/-- The store that a call reads, if it reads one. -/
def NodeCall.storeRead : NodeCall → Option Str
  | getAnchoredRoot storeHex => some storeHex
  | getContent storeHex _ _ => some storeHex
  | baseUrl => none
  | healthy => none

/-- The namespace of the control endpoints. -/
def IsReserved (path : Str) : Prop :=
  path = "/.dig".toList ∨ "/.dig/".toList <+: path

theorem controlEndpointFor_eq_none_iff (path : Str) :
    controlEndpointFor path = none ↔ ¬ IsReserved path := by
  have hpre : ∀ s : String, ("/.dig/".toList.isPrefixOf s.toList) = true →
      path = s.toList → IsReserved path := by
    rintro s hs rfl
    exact Or.inr (List.isPrefixOf_iff_prefix.mp hs)
  constructor
  · intro h
    rw [controlEndpointFor] at h
    split_ifs at h with h₁ h₂ h₃ h₄
    simp only [Bool.or_eq_true, decide_eq_true_eq, List.isPrefixOf_iff_prefix] at h₄
    exact h₄
  · intro h
    rw [controlEndpointFor, if_neg fun hp => h (hpre _ (by decide) hp),
      if_neg fun hp => h (hpre _ (by decide) hp),
      if_neg fun hp => h (hpre _ (by decide) hp), if_neg]
    simp only [Bool.or_eq_true, decide_eq_true_eq, List.isPrefixOf_iff_prefix]
    exact h

section Classify

variable {codecs : Codecs} {uri : Uri} {hostHeader : Option Str} {tld : Str}

/-- A store request names a host that parses and a path that is not reserved. -/
theorem of_classify_eq_store {target : HostTarget} {path : Str}
    (h : classify codecs uri hostHeader tld = .store target path) :
    path = uri.path ∧ ¬ IsReserved uri.path ∧
      ∃ host, effectiveHost uri hostHeader = some host ∧
        parseDigHost codecs host tld = .ok target := by
  rw [classify] at h
  split_ifs at h
  cases hcontrol : controlEndpointFor uri.path with
  | some ep =>
      rw [hcontrol] at h
      cases h
  | none =>
      rw [hcontrol] at h
      cases hhost : effectiveHost uri hostHeader with
      | none =>
          rw [hhost] at h
          cases h
      | some host =>
          rw [hhost] at h
          simp only at h
          cases hparse : parseDigHost codecs host tld with
          | error e =>
              rw [hparse] at h
              cases h
          | ok target' =>
              rw [hparse] at h
              cases h
              exact ⟨rfl, (controlEndpointFor_eq_none_iff _).mp hcontrol, host, rfl, hparse⟩

/-- An absolute-form request to a foreign authority is refused before its path
is looked at. -/
theorem classify_eq_nonDigProxy (hproxy : uri.isProxy = true)
    (hforeign : ∀ host, uri.authorityHost = some host → hostIsUnderTld host tld = false) :
    classify codecs uri hostHeader tld = .nonDigProxy := by
  have hany : (effectiveHost uri hostHeader).any (fun h => hostIsUnderTld h tld) = false := by
    rw [effectiveHost, if_pos hproxy]
    cases hhost : uri.authorityHost with
    | none => rfl
    | some host => exact hforeign host hhost
  rw [classify, hproxy, hany]
  rfl

end Classify

section Crates

variable (crates : Crates)

/-- Every call of a store request reads the store of its target. -/
theorem storeRead_of_serveRun {storeHex trustedRoot : Str} {pinned : Bool}
    {resourceKey path : Str} {range : Option Str} {t : List NodeEvent} {r : GatewayResponse}
    (h : ServeRun crates storeHex trustedRoot pinned resourceKey path range t r)
    {event : NodeEvent} (hevent : event ∈ t) :
    event.1.storeRead = some storeHex := by
  cases h with
  | noKey => cases hevent
  | hit => rw [List.mem_singleton.mp hevent]; rfl
  | failed => rw [List.mem_singleton.mp hevent]; rfl
  | miss => rw [List.mem_singleton.mp hevent]; rfl
  | index => rcases List.mem_pair.mp hevent with rfl | rfl <;> rfl

theorem storeRead_of_storeRun {target : HostTarget} {path : Str} {range : Option Str}
    {t : List NodeEvent} {r : GatewayResponse} (h : StoreRun crates path range target t r)
    {event : NodeEvent} (hevent : event ∈ t) :
    event.1.storeRead = some target.storeHex ∧
      ∃ key, resourceKeyForPath crates path = .ok key := by
  cases h with
  | badPath => cases hevent
  | rootFailed hpath =>
      rw [List.mem_singleton.mp hevent]
      exact ⟨rfl, _, hpath⟩
  | latest hpath hserve =>
      rcases List.mem_cons.mp hevent with rfl | hevent
      · exact ⟨rfl, _, hpath⟩
      · exact ⟨storeRead_of_serveRun crates hserve hevent, _, hpath⟩
  | pinned hpath hserve => exact ⟨storeRead_of_serveRun crates hserve hevent, _, hpath⟩

/-- The control endpoints read no store. -/
theorem storeRead_of_controlResponse {ep : ControlEndpoint} {ctx : Ctx} {t : List NodeEvent}
    {r : GatewayResponse} (h : Runs (controlResponse crates ep ctx) t r) {event : NodeEvent}
    (hevent : event ∈ t) :
    event.1.storeRead = none := by
  cases ep with
  | health =>
      obtain ⟨reachable, t₁, rfl, h₁⟩ := runs_ask_iff.mp h
      obtain ⟨baseUrl, t₂, rfl, h₂⟩ := runs_ask_iff.mp h₁
      obtain ⟨rfl, -⟩ := runs_ret_iff.mp h₂
      rcases List.mem_pair.mp hevent with rfl | rfl <;> rfl
  | proxyPac =>
      obtain ⟨rfl, -⟩ := runs_ret_iff.mp h
      cases hevent
  | resolveProbe =>
      obtain ⟨rfl, -⟩ := runs_ret_iff.mp h
      cases hevent
  | unknown =>
      obtain ⟨rfl, -⟩ := runs_ret_iff.mp h
      cases hevent

/-- Which requests read which store. -/
theorem of_storeRead {ctx : Ctx} {method : Str} {uri : Uri} {hostHeader range : Option Str}
    {t : List NodeEvent} {r : GatewayResponse}
    (h : Runs (handle crates ctx method uri hostHeader range) t r) {event : NodeEvent}
    (hevent : event ∈ t) {storeHex : Str} (hstore : event.1.storeRead = some storeHex) :
    isRead method = true ∧ ¬ IsReserved uri.path ∧
      ∃ host target key, effectiveHost uri hostHeader = some host ∧
        parseDigHost crates.codecs host ctx.config.tld = .ok target ∧
        storeHex = target.storeHex ∧ resourceKeyForPath crates uri.path = .ok key := by
  have hno : ∀ {r' : GatewayResponse}, ¬ Runs (.ret r') t r := by
    intro r' hret
    obtain ⟨rfl, -⟩ := runs_ret_iff.mp hret
    cases hevent
  by_cases hconnect : eqIgnoreAsciiCase method "CONNECT".toList = true
  · rw [handle, if_pos hconnect] at h
    exact absurd h hno
  rw [handle, if_neg hconnect] at h
  cases hclass : classify crates.codecs uri hostHeader ctx.config.tld with
  | nonDigProxy =>
      rw [hclass] at h
      exact absurd h hno
  | badHost =>
      rw [hclass] at h
      exact absurd h hno
  | control ep =>
      simp only [hclass] at h
      cases hread : isRead method with
      | false =>
          simp only [hread, Bool.not_false, if_true] at h
          exact absurd h hno
      | true =>
          simp only [hread, Bool.not_true, Bool.false_eq_true, if_false] at h
          rw [storeRead_of_controlResponse crates h hevent] at hstore
          cases hstore
  | store target path =>
      simp only [hclass] at h
      cases hread : isRead method with
      | false =>
          simp only [hread, Bool.not_false, if_true] at h
          exact absurd h hno
      | true =>
          simp only [hread, Bool.not_true, Bool.false_eq_true, if_false] at h
          obtain ⟨hpath, hfree, host, hhost, hparse⟩ := of_classify_eq_store hclass
          obtain ⟨hread', key, hkey⟩ :=
            storeRead_of_storeRun crates (storeRun_of_runs crates h) hevent
          rw [hstore] at hread'
          exact ⟨rfl, hfree, host, target, key, hhost, hparse, Option.some.inj hread',
            hpath ▸ hkey⟩

/-- The gateway is no open proxy: what reaches a node, what a foreign or
tunnelled request gets, and what the `Host` header of an absolute-form request
is worth. -/
theorem handle_never_openProxy (node : NodeBehaviour) (ctx : Ctx) (method : Str) (uri : Uri)
    (hostHeader range : Option Str) :
    (∀ event ∈ ((handle crates ctx method uri hostHeader range).run node).1,
      ∀ storeHex, event.1.storeRead = some storeHex →
        isRead method = true ∧ ¬ IsReserved uri.path ∧
          ∃ host target key, effectiveHost uri hostHeader = some host ∧
            parseDigHost crates.codecs host ctx.config.tld = .ok target ∧
            storeHex = target.storeHex ∧ resourceKeyForPath crates uri.path = .ok key) ∧
    (eqIgnoreAsciiCase method "CONNECT".toList = false → uri.isProxy = true →
      (∀ host, uri.authorityHost = some host → hostIsUnderTld host ctx.config.tld = false) →
      ((handle crates ctx method uri hostHeader range).run node).1 = [] ∧
        ((handle crates ctx method uri hostHeader range).run node).2.status = 403) ∧
    (eqIgnoreAsciiCase method "CONNECT".toList = true →
      ((handle crates ctx method uri hostHeader range).run node).1 = [] ∧
        ((handle crates ctx method uri hostHeader range).run node).2.status = 405) ∧
    (uri.isProxy = true → ∀ hostHeader' : Option Str,
      (handle crates ctx method uri hostHeader' range).run node =
        (handle crates ctx method uri hostHeader range).run node) := by
  refine ⟨?_, ?_, ?_, ?_⟩
  · intro event hevent storeHex hstore
    exact of_storeRead crates (Prog.runs_run node _) hevent hstore
  · intro hconnect hproxy hforeign
    have hclass : classify crates.codecs uri hostHeader ctx.config.tld = .nonDigProxy :=
      classify_eq_nonDigProxy hproxy hforeign
    simp only [handle, hconnect, hclass, Bool.false_eq_true, if_false]
    exact ⟨rfl, rfl⟩
  · intro hconnect
    simp only [handle, hconnect, if_true]
    exact ⟨rfl, rfl⟩
  · intro hproxy hostHeader'
    have hhost : effectiveHost uri hostHeader' = effectiveHost uri hostHeader := by
      rw [effectiveHost, effectiveHost, if_pos hproxy, if_pos hproxy]
    simp only [handle, classify, hhost]

end Crates

end DigDns
