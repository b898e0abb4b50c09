import DigDns.Gateway

/-!
# The runs of a store request

A store request makes at most three calls, in a fixed order: the root of a
one-label host, the resource, and the index page.  `StoreRun` lists what can
happen at each of them and the response it leads to; every run of `handle` on
a store request is one of these.
-/

namespace DigDns

open Rust Interaction

/-- A call of `get_anchored_root` and its answer. -/
def rootEvent (storeHex : Str) (answer : Except NodeError Str) : NodeEvent :=
  ⟨.getAnchoredRoot storeHex, answer⟩

/-- A call of `get_content` at a root and its answer. -/
def contentEvent (storeHex rk rootHex : Str) (answer : Except NodeError FetchedContent) :
    NodeEvent :=
  ⟨.getContent storeHex rk (some rootHex), answer⟩

section Crates

variable (crates : Crates)

/-! ## What an answer is worth -/

/-- A definite miss: a not-found error, or content that passed every check and
does not decrypt. -/
def IsMiss (storeHex resourceKey trustedRoot : Str)
    (answer : Except NodeError FetchedContent) : Prop :=
  (∃ e, answer = .error e ∧ e.isNotFound = true) ∨
    ∃ f, answer = .ok f ∧ PassesChecks crates storeHex trustedRoot f ∧
      openChunks crates storeHex resourceKey f = none

/-- A failure: another error, or content that fails a check. -/
def IsFailure (storeHex trustedRoot : Str) (answer : Except NodeError FetchedContent) : Prop :=
  (∃ e, answer = .error e ∧ e.isNotFound = false) ∨
    ∃ f, answer = .ok f ∧ ¬ PassesChecks crates storeHex trustedRoot f

variable {storeHex resourceKey trustedRoot : Str} {answer : Except NodeError FetchedContent}

theorem judge_eq_ok_iff {bytes : List UInt8} :
    judge crates storeHex resourceKey trustedRoot answer = .ok bytes ↔
      ∃ f, answer = .ok f ∧
        verifyFetched crates storeHex resourceKey trustedRoot f = .ok bytes := by
  cases answer with
  | error e =>
      rw [judge]
      split_ifs <;> simp
  | ok f =>
      rw [judge]
      cases h : verifyFetched crates storeHex resourceKey trustedRoot f with
      | ok plaintext => simp [h]
      | error e => cases e <;> simp [h]

theorem judge_eq_notFound_iff :
    judge crates storeHex resourceKey trustedRoot answer = .notFound ↔
      IsMiss crates storeHex resourceKey trustedRoot answer := by
  cases answer with
  | error e =>
      rw [judge]
      cases h : e.isNotFound <;> simp [IsMiss, h]
  | ok f =>
      have hmiss : IsMiss crates storeHex resourceKey trustedRoot (.ok f) ↔
          verifyFetched crates storeHex resourceKey trustedRoot f = .error .decrypt := by
        simp [IsMiss, verifyFetched_eq_decrypt_iff]
      rw [hmiss, judge]
      cases h : verifyFetched crates storeHex resourceKey trustedRoot f with
      | ok plaintext => simp
      | error e => cases e <;> simp

theorem judge_eq_failed_iff :
    (judge crates storeHex resourceKey trustedRoot answer = .nodeUnreachable ∨
      judge crates storeHex resourceKey trustedRoot answer = .integrityFail) ↔
      IsFailure crates storeHex trustedRoot answer := by
  cases answer with
  | error e =>
      rw [judge]
      cases h : e.isNotFound <;> simp [IsFailure, h]
  | ok f =>
      have hfailure : IsFailure crates storeHex trustedRoot (.ok f) ↔
          ¬ PassesChecks crates storeHex trustedRoot f := by
        simp [IsFailure]
      rw [hfailure, judge]
      by_cases hpasses : PassesChecks crates storeHex trustedRoot f
      · rw [verifyFetched_of_passesChecks crates hpasses]
        cases openChunks crates storeHex resourceKey f <;> simp [hpasses]
      · obtain ⟨e, he, hne⟩ := verifyFetched_of_not_passesChecks crates hpasses resourceKey
        rw [he]
        cases e <;> simp_all

/-! ## The order of the calls -/

theorem runs_fetchAndDecrypt_iff {t : List NodeEvent} {out : Fetched} :
    Runs (fetchAndDecrypt crates storeHex resourceKey trustedRoot) t out ↔
      (∃ e, retrievalKeyHex crates storeHex resourceKey = .error e ∧ t = [] ∧
        out = .integrityFail) ∨
      ∃ rk answer, retrievalKeyHex crates storeHex resourceKey = .ok rk ∧
        t = [contentEvent storeHex rk trustedRoot answer] ∧
        out = judge crates storeHex resourceKey trustedRoot answer := by
  rw [fetchAndDecrypt]
  cases retrievalKeyHex crates storeHex resourceKey with
  | error e => simp
  | ok rk =>
      simp only [NodeClient.getContent, Prog.ask_bind, Prog.ret_bind, Prog.pure_eq_ret,
        runs_ask_iff, runs_ret_iff]
      constructor
      · rintro ⟨answer, t', rfl, rfl, rfl⟩
        exact Or.inr ⟨rk, answer, rfl, rfl, rfl⟩
      · rintro (⟨e, he, -⟩ | ⟨rk', answer, hrk, rfl, rfl⟩)
        · cases he
        · cases hrk
          exact ⟨answer, [], rfl, rfl, rfl⟩

/-- A store id that has a retrieval key has one for every resource. -/
theorem retrievalKeyHex_ok {rk : Str}
    (h : retrievalKeyHex crates storeHex resourceKey = .ok rk) (resourceKey' : Str) :
    ∃ rk', retrievalKeyHex crates storeHex resourceKey' = .ok rk' := by
  rw [retrievalKeyHex] at h ⊢
  cases hstore : crates.core.bytes32FromHex storeHex with
  | none =>
      rw [hstore] at h
      cases h
  | some storeId => exact ⟨_, rfl⟩

/-- The response to the outcome of the index page. -/
def IndexResponse (pinned : Bool) (out : Fetched) (r : GatewayResponse) : Prop :=
  match out with
  | .ok bytes => r = okBodyResponse "index.html".toList bytes none pinned
  | .notFound => r.status = 404
  | .nodeUnreachable => r.status = 502
  | .integrityFail => r.status = 502

/-- What can happen from the trusted root on. -/
inductive ServeRun (storeHex trustedRoot : Str) (pinned : Bool) (resourceKey path : Str)
    (range : Option Str) : List NodeEvent → GatewayResponse → Prop
  | noKey {e : ContentError} {r : GatewayResponse}
      (hkey : retrievalKeyHex crates storeHex resourceKey = .error e) (hr : r.status = 502) :
      ServeRun storeHex trustedRoot pinned resourceKey path range [] r
  | hit {rk : Str} {answer : Except NodeError FetchedContent} {bytes : List UInt8}
      (hkey : retrievalKeyHex crates storeHex resourceKey = .ok rk)
      (hfirst : judge crates storeHex resourceKey trustedRoot answer = .ok bytes) :
      ServeRun storeHex trustedRoot pinned resourceKey path range
        [contentEvent storeHex rk trustedRoot answer]
        (okBodyResponse resourceKey bytes range pinned)
  | failed {rk : Str} {answer : Except NodeError FetchedContent} {r : GatewayResponse}
      (hkey : retrievalKeyHex crates storeHex resourceKey = .ok rk)
      (hfirst : judge crates storeHex resourceKey trustedRoot answer = .nodeUnreachable ∨
        judge crates storeHex resourceKey trustedRoot answer = .integrityFail)
      (hr : r.status = 502) :
      ServeRun storeHex trustedRoot pinned resourceKey path range
        [contentEvent storeHex rk trustedRoot answer] r
  | miss {rk : Str} {answer : Except NodeError FetchedContent} {r : GatewayResponse}
      (hkey : retrievalKeyHex crates storeHex resourceKey = .ok rk)
      (hfirst : judge crates storeHex resourceKey trustedRoot answer = .notFound)
      (hpath : isExtensionless path = false) (hr : r.status = 404) :
      ServeRun storeHex trustedRoot pinned resourceKey path range
        [contentEvent storeHex rk trustedRoot answer] r
  | index {rk rk' : Str} {answer answer' : Except NodeError FetchedContent}
      {r : GatewayResponse}
      (hkey : retrievalKeyHex crates storeHex resourceKey = .ok rk)
      (hfirst : judge crates storeHex resourceKey trustedRoot answer = .notFound)
      (hpath : isExtensionless path = true)
      (hindex : retrievalKeyHex crates storeHex "index.html".toList = .ok rk')
      (hr : IndexResponse pinned (judge crates storeHex "index.html".toList trustedRoot answer') r) :
      ServeRun storeHex trustedRoot pinned resourceKey path range
        [contentEvent storeHex rk trustedRoot answer,
          contentEvent storeHex rk' trustedRoot answer'] r

theorem serveRun_of_runs {pinned : Bool} {path : Str}
    {range : Option Str} {t : List NodeEvent} {r : GatewayResponse}
    (h : Runs (serveFrom crates storeHex trustedRoot pinned resourceKey path range) t r) :
    ServeRun crates storeHex trustedRoot pinned resourceKey path range t r := by
  obtain ⟨t₁, out, t₂, rfl, hfetch, hrest⟩ := runs_bind_iff.mp h
  rcases (runs_fetchAndDecrypt_iff crates).mp hfetch with
    ⟨e, hkey, rfl, rfl⟩ | ⟨rk, answer, hkey, rfl, hout⟩
  · obtain ⟨rfl, rfl⟩ := runs_ret_iff.mp hrest
    exact .noKey hkey rfl
  cases out with
  | ok bytes =>
      obtain ⟨rfl, rfl⟩ := runs_ret_iff.mp hrest
      exact .hit hkey hout.symm
  | nodeUnreachable =>
      obtain ⟨rfl, rfl⟩ := runs_ret_iff.mp hrest
      exact .failed hkey (Or.inl hout.symm) rfl
  | integrityFail =>
      obtain ⟨rfl, rfl⟩ := runs_ret_iff.mp hrest
      exact .failed hkey (Or.inr hout.symm) rfl
  | notFound =>
      change Runs (spaOr404 crates storeHex trustedRoot path pinned) t₂ r at hrest
      rw [spaOr404] at hrest
      by_cases hpath : isExtensionless path = true
      · simp only [hpath, Bool.not_true, Bool.false_eq_true, if_false] at hrest
        obtain ⟨t₃, out', t₄, rfl, hindex, hlast⟩ := runs_bind_iff.mp hrest
        obtain ⟨rk', hkey'⟩ := retrievalKeyHex_ok crates hkey "index.html".toList
        rcases (runs_fetchAndDecrypt_iff crates).mp hindex with
          ⟨e, hno, -⟩ | ⟨rk'', answer', hrk, rfl, hout'⟩
        · rw [hkey'] at hno
          cases hno
        have hr : t₄ = [] ∧ IndexResponse pinned out' r := by
          cases out' with
          | ok bytes => exact (runs_ret_iff.mp hlast)
          | notFound =>
              obtain ⟨rfl, rfl⟩ := runs_ret_iff.mp hlast
              exact ⟨rfl, rfl⟩
          | nodeUnreachable =>
              obtain ⟨rfl, rfl⟩ := runs_ret_iff.mp hlast
              exact ⟨rfl, rfl⟩
          | integrityFail =>
              obtain ⟨rfl, rfl⟩ := runs_ret_iff.mp hlast
              exact ⟨rfl, rfl⟩
        obtain ⟨rfl, hr⟩ := hr
        exact .index hkey hout.symm hpath hrk (hout' ▸ hr)
      · simp only [hpath, Bool.not_false, if_true] at hrest
        obtain ⟨rfl, rfl⟩ := runs_ret_iff.mp hrest
        exact .miss hkey hout.symm (by simpa using hpath) rfl

/-- What can happen in a store request. -/
inductive StoreRun (path : Str) (range : Option Str) :
    HostTarget → List NodeEvent → GatewayResponse → Prop
  | badPath {target : HostTarget} {e : ContentError} {r : GatewayResponse}
      (hpath : resourceKeyForPath crates path = .error e) (hr : r.status = 400) :
      StoreRun path range target [] r
  | rootFailed {storeHex key : Str} {e : NodeError} {r : GatewayResponse}
      (hpath : resourceKeyForPath crates path = .ok key)
      (hr : r.status = if e.isNotFound then 404 else 502) :
      StoreRun path range (.latest storeHex) [rootEvent storeHex (.error e)] r
  | latest {storeHex key root : Str} {t : List NodeEvent} {r : GatewayResponse}
      (hpath : resourceKeyForPath crates path = .ok key)
      (hserve : ServeRun crates storeHex root false key path range t r) :
      StoreRun path range (.latest storeHex) (rootEvent storeHex (.ok root) :: t) r
  | pinned {storeHex rootHex key : Str} {t : List NodeEvent} {r : GatewayResponse}
      (hpath : resourceKeyForPath crates path = .ok key)
      (hserve : ServeRun crates storeHex rootHex true key path range t r) :
      StoreRun path range (.pinned storeHex rootHex) t r

theorem storeRun_of_runs {target : HostTarget} {path : Str} {range : Option Str}
    {t : List NodeEvent} {r : GatewayResponse}
    (h : Runs (serveStore crates target path range) t r) :
    StoreRun crates path range target t r := by
  rw [serveStore] at h
  cases hpath : resourceKeyForPath crates path with
  | error e =>
      rw [hpath] at h
      obtain ⟨rfl, rfl⟩ := runs_ret_iff.mp h
      exact .badPath hpath rfl
  | ok key =>
      rw [hpath] at h
      cases target with
      | pinned storeHex rootHex => exact .pinned hpath (serveRun_of_runs crates h)
      | latest storeHex =>
          simp only [NodeClient.getAnchoredRoot, Prog.ask_bind, Prog.ret_bind] at h
          obtain ⟨answer, t', rfl, hrest⟩ := runs_ask_iff.mp h
          cases answer with
          | ok root => exact .latest hpath (serveRun_of_runs crates hrest)
          | error e =>
              by_cases hmiss : e.isNotFound = true
              · simp only [hmiss, if_true] at hrest
                obtain ⟨rfl, rfl⟩ := runs_ret_iff.mp hrest
                exact .rootFailed hpath (by rw [if_pos hmiss]; rfl)
              · simp only [hmiss, Bool.false_eq_true, if_false] at hrest
                obtain ⟨rfl, rfl⟩ := runs_ret_iff.mp hrest
                exact .rootFailed hpath (by rw [if_neg hmiss]; rfl)

/-! ## Roots and contents of a run -/

/-- The calls of a run that ask for a root. -/
def rootEvents (t : List NodeEvent) : List NodeEvent :=
  t.filter fun event => match event.1 with
    | .getAnchoredRoot _ => true
    | _ => false

/-- The calls of a run that ask for a resource. -/
def contentEvents (t : List NodeEvent) : List NodeEvent :=
  t.filter fun event => match event.1 with
    | .getContent _ _ _ => true
    | _ => false

/-- The root that a request trusts: the one in its host, or the answer to its
one call for a root. -/
def IsTrustedRoot (t : List NodeEvent) (root : Str) : HostTarget → Prop
  | .latest storeHex => rootEvents t = [rootEvent storeHex (.ok root)]
  | .pinned _ rootHex => rootEvents t = [] ∧ root = rootHex

theorem ServeRun.events {pinned : Bool} {path : Str} {range : Option Str} {t : List NodeEvent}
    {r : GatewayResponse}
    (h : ServeRun crates storeHex trustedRoot pinned resourceKey path range t r) :
    rootEvents t = [] ∧ contentEvents t = t := by
  cases h <;> exact ⟨rfl, rfl⟩

/-- A run that gets past the root serves from a trusted root. -/
theorem StoreRun.cases_serve {target : HostTarget} {path : Str} {range : Option Str}
    {t : List NodeEvent} {r : GatewayResponse} (h : StoreRun crates path range target t r) :
    (t = [] ∧ r.status = 400) ∨
    (∃ e, t = [rootEvent target.storeHex (.error e)] ∧
      r.status = if e.isNotFound then 404 else 502) ∨
    ∃ root key pinned, IsTrustedRoot t root target ∧ resourceKeyForPath crates path = .ok key ∧
      (t = contentEvents t ∨ t = rootEvent target.storeHex (.ok root) :: contentEvents t) ∧
      ServeRun crates target.storeHex root pinned key path range (contentEvents t) r := by
  cases h with
  | badPath _ hr => exact Or.inl ⟨rfl, hr⟩
  | rootFailed _ hr => exact Or.inr (Or.inl ⟨_, rfl, hr⟩)
  | @latest storeHex key root t _ hpath hserve =>
      obtain ⟨hroots, hcontents⟩ := hserve.events
      have hcontents' : contentEvents (rootEvent storeHex (.ok root) :: t) = t := hcontents
      have hroots' : rootEvents (rootEvent storeHex (.ok root) :: t) =
          rootEvent storeHex (.ok root) :: rootEvents t := rfl
      refine Or.inr (Or.inr ⟨root, key, false, ?_, hpath, ?_, ?_⟩)
      · rw [IsTrustedRoot, hroots', hroots]
      · exact Or.inr (by rw [hcontents']; rfl)
      · rw [hcontents']
        exact hserve
  | pinned hpath hserve =>
      obtain ⟨hroots, hcontents⟩ := hserve.events
      refine Or.inr (Or.inr ⟨_, _, true, ⟨hroots, rfl⟩, hpath, Or.inl hcontents.symm, ?_⟩)
      rw [hcontents]
      exact hserve

/-! ## From `handle` -/

/-- A store request with a reading method is served. -/
theorem handle_eq_serveStore {ctx : Ctx} {method : Str} {uri : Uri}
    {hostHeader range : Option Str} {target : HostTarget} {path : Str}
    (hread : isRead method = true)
    (hclass : classify crates.codecs uri hostHeader ctx.config.tld = .store target path) :
    handle crates ctx method uri hostHeader range = serveStore crates target path range := by
  have hconnect : eqIgnoreAsciiCase method "CONNECT".toList = false := by
    simp only [isRead, eqIgnoreAsciiCase, Bool.or_eq_true, beq_iff_eq] at hread
    rw [eqIgnoreAsciiCase]
    rcases hread with h | h <;> rw [h] <;> decide
  simp only [handle, hconnect, hclass, hread, Bool.not_true, Bool.false_eq_true, if_false]

/-- Every other store request is refused without a call. -/
theorem handle_eq_refusal {ctx : Ctx} {method : Str} {uri : Uri} {hostHeader range : Option Str}
    {target : HostTarget} {path : Str} (hread : isRead method = false)
    (hclass : classify crates.codecs uri hostHeader ctx.config.tld = .store target path) :
    ∃ r : GatewayResponse, handle crates ctx method uri hostHeader range = .ret r ∧
      r.status = 405 := by
  by_cases hconnect : eqIgnoreAsciiCase method "CONNECT".toList = true
  · exact ⟨_, by rw [handle, if_pos hconnect]; rfl, rfl⟩
  · exact ⟨_, by simp only [handle, hconnect, hclass, hread, Bool.not_false, if_true]; rfl, rfl⟩

end Crates

end DigDns
