import DigDns.Gateway.Integrity

/-!
# Misses and failures

A failure of the node, at any of the calls of a store request, ends the request
with `502`; only definite misses lead to `404`.
-/

namespace DigDns

open Rust Interaction

section Crates

variable (crates : Crates)

/-- A call that failed: an error other than not-found, or content that does not
pass the checks against the root it was asked for. -/
def IsFailureEvent (event : NodeEvent) : Prop :=
  (∃ storeHex e, event = rootEvent storeHex (.error e) ∧ e.isNotFound = false) ∨
    ∃ storeHex rk root answer, event = contentEvent storeHex rk root answer ∧
      IsFailure crates storeHex root answer

theorem isFailureEvent_rootEvent_ok {storeHex root : Str} :
    ¬ IsFailureEvent crates (rootEvent storeHex (.ok root)) := by
  rintro (⟨s, e, heq, -⟩ | ⟨s, rk, root', answer, heq, -⟩) <;> cases heq

theorem isFailureEvent_contentEvent_iff {storeHex rk root : Str}
    {answer : Except NodeError FetchedContent} :
    IsFailureEvent crates (contentEvent storeHex rk root answer) ↔
      IsFailure crates storeHex root answer := by
  constructor
  · rintro (⟨s, e, heq, -⟩ | ⟨s, rk', root', answer', heq, hfailure⟩)
    · cases heq
    · cases heq
      exact hfailure
  · intro h
    exact Or.inr ⟨storeHex, rk, root, answer, rfl, h⟩

/-- An answer that is a hit or a miss is no failure. -/
theorem not_isFailureEvent {storeHex rk root key : Str} {out : Fetched}
    {answer : Except NodeError FetchedContent}
    (hjudge : judge crates storeHex key root answer = out)
    (hout : out ≠ .nodeUnreachable ∧ out ≠ .integrityFail) :
    ¬ IsFailureEvent crates (contentEvent storeHex rk root answer) := by
  rw [isFailureEvent_contentEvent_iff, ← judge_eq_failed_iff crates, hjudge]
  exact not_or.mpr hout

variable {storeHex trustedRoot resourceKey path : Str} {pinned : Bool} {range : Option Str}
  {t : List NodeEvent} {r : GatewayResponse}

/-- A failed fetch is the last call, and makes the response `502`. -/
theorem ServeRun.failure
    (h : ServeRun crates storeHex trustedRoot pinned resourceKey path range t r)
    {before after : List NodeEvent} {event : NodeEvent} (ht : t = before ++ event :: after)
    (hevent : IsFailureEvent crates event) :
    r.status = 502 ∧ after = [] := by
  cases h with
  | noKey => simp at ht
  | hit _ hfirst =>
      obtain ⟨-, rfl, rfl⟩ := eq_of_singleton_eq ht
      exact absurd hevent (not_isFailureEvent crates hfirst (by simp))
  | failed _ _ hr =>
      obtain ⟨-, rfl, rfl⟩ := eq_of_singleton_eq ht
      exact ⟨hr, rfl⟩
  | miss _ hfirst =>
      obtain ⟨-, rfl, rfl⟩ := eq_of_singleton_eq ht
      exact absurd hevent (not_isFailureEvent crates hfirst (by simp))
  | @index _ _ answer answer' _ _ hfirst _ _ hr =>
      rcases eq_of_pair_eq ht with ⟨rfl, -⟩ | ⟨rfl, rfl⟩
      · exact absurd hevent (not_isFailureEvent crates hfirst (by simp))
      · rw [isFailureEvent_contentEvent_iff,
          ← judge_eq_failed_iff crates] at hevent
        rcases hevent with hjudge | hjudge
        · rw [hjudge] at hr
          exact ⟨hr, rfl⟩
        · rw [hjudge] at hr
          exact ⟨hr, rfl⟩

/-- What a `404` from the trusted root on rests on: the resource was missed, and
so was the index page where it was tried. -/
def MissedAll (storeHex root resourceKey path : Str) (contents : List NodeEvent) : Prop :=
  ∃ rk answer rest, contents = contentEvent storeHex rk root answer :: rest ∧
    retrievalKeyHex crates storeHex resourceKey = .ok rk ∧
    IsMiss crates storeHex resourceKey root answer ∧
    (isExtensionless path = false ∨
      ∃ rk' answer', rest = [contentEvent storeHex rk' root answer'] ∧
        retrievalKeyHex crates storeHex "index.html".toList = .ok rk' ∧
        IsMiss crates storeHex "index.html".toList root answer')

theorem status_okBodyResponse_ne (key : Str) (bytes : List UInt8) (range : Option Str)
    (pinned : Bool) :
    (okBodyResponse key bytes range pinned).status ≠ 404 := by
  rcases okBodyResponse_cases key bytes range pinned with (⟨h, -⟩ | ⟨h, -⟩) | h <;>
    rw [h] <;> decide

theorem ServeRun.missedAll
    (h : ServeRun crates storeHex trustedRoot pinned resourceKey path range t r)
    (h404 : r.status = 404) :
    MissedAll crates storeHex trustedRoot resourceKey path t := by
  cases h with
  | noKey _ hr =>
      rw [hr] at h404
      exact absurd h404 (by decide)
  | hit => exact absurd h404 (status_okBodyResponse_ne _ _ _ _)
  | failed _ _ hr =>
      rw [hr] at h404
      exact absurd h404 (by decide)
  | miss hkey hfirst hpath =>
      exact ⟨_, _, [], rfl, hkey, (judge_eq_notFound_iff crates).mp hfirst, Or.inl hpath⟩
  | @index _ _ answer answer' _ hkey hfirst hpath hindex hr =>
      refine ⟨_, _, _, rfl, hkey, (judge_eq_notFound_iff crates).mp hfirst,
        Or.inr ⟨_, _, rfl, hindex, ?_⟩⟩
      cases hjudge : judge crates storeHex "index.html".toList trustedRoot answer' with
      | notFound => exact (judge_eq_notFound_iff crates).mp hjudge
      | ok bytes =>
          rw [hjudge] at hr
          rw [hr] at h404
          exact absurd h404 (status_okBodyResponse_ne _ _ _ _)
      | nodeUnreachable =>
          rw [hjudge] at hr
          rw [hr] at h404
          exact absurd h404 (by decide)
      | integrityFail =>
          rw [hjudge] at hr
          rw [hr] at h404
          exact absurd h404 (by decide)

theorem ServeRun.length_le
    (h : ServeRun crates storeHex trustedRoot pinned resourceKey path range t r) :
    t.length ≤ 2 := by
  cases h <;> simp

variable {target : HostTarget}

/-- A failed call is the last one of a store request, whose response is `502`. -/
theorem StoreRun.failure (h : StoreRun crates path range target t r)
    {before after : List NodeEvent} {event : NodeEvent} (ht : t = before ++ event :: after)
    (hevent : IsFailureEvent crates event) :
    r.status = 502 ∧ after = [] := by
  cases h with
  | badPath => simp at ht
  | rootFailed _ hr =>
      obtain ⟨-, rfl, rfl⟩ := eq_of_singleton_eq ht
      rcases hevent with ⟨s, e, heq, hfail⟩ | ⟨s, rk, root, answer, heq, -⟩
      · cases heq
        rw [hr, hfail]
        exact ⟨rfl, rfl⟩
      · cases heq
  | latest _ hserve =>
      cases before with
      | nil =>
          obtain ⟨rfl, -⟩ := List.cons.inj ht
          exact absurd hevent (isFailureEvent_rootEvent_ok crates)
      | cons b before => exact hserve.failure crates (List.cons.inj ht).2 hevent
  | pinned _ hserve => exact hserve.failure crates ht hevent

/-- A `404` rests on a definite miss of the root, or on definite misses of what
was asked for at the trusted root. -/
theorem StoreRun.missed (h : StoreRun crates path range target t r)
    (hkey : resourceKeyForPath crates path = .ok resourceKey) (h404 : r.status = 404) :
    (∃ e, t = [rootEvent target.storeHex (.error e)] ∧ e.isNotFound = true) ∨
      ∃ root, IsTrustedRoot t root target ∧
        MissedAll crates target.storeHex root resourceKey path (contentEvents t) := by
  rcases h.cases_serve with
    ⟨-, h400⟩ | ⟨e, rfl, hroot⟩ | ⟨root, key, pinned, htrusted, hkey', -, hserve⟩
  · rw [h400] at h404
    exact absurd h404 (by decide)
  · rw [hroot] at h404
    refine Or.inl ⟨e, rfl, ?_⟩
    by_contra hne
    rw [if_neg hne] at h404
    exact absurd h404 (by decide)
  · rw [hkey] at hkey'
    cases hkey'
    exact Or.inr ⟨root, htrusted, hserve.missedAll crates h404⟩

/-- Every resource is asked for at the trusted root. -/
theorem StoreRun.fetches (h : StoreRun crates path range target t r) {event : NodeEvent}
    (hevent : event ∈ contentEvents t) :
    ∃ rk root answer, event = contentEvent target.storeHex rk root answer ∧
      IsTrustedRoot t root target := by
  rcases h.cases_serve with
    ⟨rfl, -⟩ | ⟨e, rfl, -⟩ | ⟨root, key, pinned, htrusted, -, -, hserve⟩
  · simp [contentEvents] at hevent
  · simp [contentEvents, rootEvent] at hevent
  · obtain ⟨rk, answer, heq, -⟩ := hserve.fetches crates hevent
    exact ⟨rk, root, answer, heq, htrusted⟩

theorem StoreRun.length_le (h : StoreRun crates path range target t r) :
    t.length ≤ 3 := by
  cases h with
  | badPath => simp
  | rootFailed => simp
  | latest _ hserve =>
      rw [List.length_cons]
      exact Nat.succ_le_succ hserve.length_le
  | pinned _ hserve => exact hserve.length_le.trans (by decide)

/-- Failures make the response `502` and end the request; a `404` rests on
definite misses; and a request makes at most three calls. -/
theorem handle_miss_or_failure (node : NodeBehaviour) (ctx : Ctx) (method : Str) (uri : Uri)
    (hostHeader range : Option Str) (target : HostTarget) (path key : Str)
    (hread : isRead method = true)
    (hclass : classify crates.codecs uri hostHeader ctx.config.tld = .store target path)
    (hkey : resourceKeyForPath crates path = .ok key) :
    (∀ before event after,
      ((handle crates ctx method uri hostHeader range).run node).1 = before ++ event :: after →
        IsFailureEvent crates event →
          ((handle crates ctx method uri hostHeader range).run node).2.status = 502 ∧
            after = []) ∧
    (((handle crates ctx method uri hostHeader range).run node).2.status = 404 →
      (∃ e, ((handle crates ctx method uri hostHeader range).run node).1 =
          [rootEvent target.storeHex (.error e)] ∧ e.isNotFound = true) ∨
        ∃ root, IsTrustedRoot ((handle crates ctx method uri hostHeader range).run node).1
            root target ∧
          MissedAll crates target.storeHex root key path
            (contentEvents ((handle crates ctx method uri hostHeader range).run node).1)) ∧
    (∀ event ∈ contentEvents ((handle crates ctx method uri hostHeader range).run node).1,
      ∃ rk root answer, event = contentEvent target.storeHex rk root answer ∧
        IsTrustedRoot ((handle crates ctx method uri hostHeader range).run node).1 root target) ∧
    ((handle crates ctx method uri hostHeader range).run node).1.length ≤ 3 := by
  have hrun := Prog.runs_run node (handle crates ctx method uri hostHeader range)
  generalize (handle crates ctx method uri hostHeader range).run node = out at hrun ⊢
  obtain ⟨t, r⟩ := out
  simp only at hrun ⊢
  rw [handle_eq_serveStore crates hread hclass] at hrun
  have hstore := storeRun_of_runs crates hrun
  refine ⟨?_, ?_, ?_, hstore.length_le⟩
  · intro before event after ht hevent
    exact hstore.failure crates ht hevent
  · intro h404
    exact hstore.missed crates hkey h404
  · intro event hevent
    exact hstore.fetches crates hevent

end Crates

/-- A node that lacks the first resource that it is asked for, and has an index page. -/
def indexNode : NodeBehaviour
  | _, .baseUrl => []
  | _, .healthy => true
  | _, .getAnchoredRoot _ => .ok (fillHex 7)
  | [_], .getContent _ _ _ => .error (.rpc (-32004) [] none)
  | _, .getContent _ _ _ => .ok contentIndex

/-- `GET /b` on the host of a store, at that node. -/
def missRun : List NodeEvent × GatewayResponse :=
  (handle sampleCrates sampleCtx "GET".toList ⟨none, none, "/b".toList⟩
    (some (storeBytesToLabel Codecs.reference (fill 17) ++ ".dig".toList)) none).run indexNode

/-- The index page takes the place of the miss, after three calls for the trusted root. -/
theorem handle_miss_or_failure_index :
    missRun.2.status = 200 ∧ missRun.2.body = [73] ∧ missRun.1.length ≤ 3 ∧
      ∀ event ∈ contentEvents missRun.1, ∃ rk root answer,
        event = contentEvent (fillHex 17) rk root answer ∧
          IsTrustedRoot missRun.1 root (.latest (fillHex 17)) := by
  obtain ⟨-, -, hfetches, hlength⟩ := handle_miss_or_failure sampleCrates indexNode sampleCtx
    "GET".toList ⟨none, none, "/b".toList⟩
    (some (storeBytesToLabel Codecs.reference (fill 17) ++ ".dig".toList)) none
    (.latest (fillHex 17)) "/b".toList "b".toList (by decide) (by decide +kernel)
    (by decide +kernel)
  exact ⟨by decide +kernel, by decide +kernel, hlength, hfetches⟩

end DigDns
