import DigDns.DigLocal

/-!
# The relay behind `dig.local`

`proxy_respond` of `server.rs` reads the body of its client, hands one request to
the HTTP client and passes the answer on.  The HTTP client follows redirects, and a
redirect can make it leave the body out.  Either body can break off on its way, and
the relay takes a body that broke off for an empty one.
-/

namespace DigDns

open Rust Interaction

/-! ## The relay -/

/-- A header: its name and the bytes of its value. -/
abbrev Header := Str × List UInt8

/-- A body on its way: all that its sender sends, and where the connection broke off. -/
structure Delivery where
  entire : List UInt8
  brokenAt : Option Nat
deriving DecidableEq

/-- What reading a body to its end gives: nothing when it breaks off. -/
def Delivery.collect (body : Delivery) : Option (List UInt8) :=
  match body.brokenAt with
  | none => some body.entire
  | some _ => none

/-- A request to `dig.local`. -/
structure ProxyRequest where
  method : Str
  pathAndQuery : Option Str
  headers : List Header
  body : Delivery

/-- The request that the relay makes of the node. -/
structure ForwardedRequest where
  method : Str
  url : Str
  headers : List (Str × Str)
  body : Option (List UInt8)

/-- The answer of the node, from its status line on. -/
structure UpstreamResponse where
  status : Nat
  headers : List Header
  body : Delivery

/-- What becomes of a request: it does not reach the node, it reaches it and no status
line comes back, or it is answered. -/
inductive Upstream
  | refused
  | unanswered
  | answered (resp : UpstreamResponse)

/-- The answer, where one came. -/
def Upstream.response : Upstream → Option UpstreamResponse
  | refused => none
  | unanswered => none
  | answered resp => some resp

/-- What the relay returns: the answer of the node, or a text of its own. -/
inductive ProxyResponse
  | relayed (status : Nat) (headers : List Header) (body : List UInt8)
  | text (status : UInt16) (msg : Str)

/-- The parts of the HTTP crates that decide about what the relay hands them. -/
structure HttpCrate where
  /-- `reqwest::Method::from_bytes` -/
  methodFromBytes : List UInt8 → Bool
  /-- Whether `Response::builder` makes a response of a status and headers. -/
  builds : Nat → List Header → Bool
  /-- The URL that the `Location` of an answer gives, read at a URL. -/
  location : Str → List Header → Option Str
  /-- Whether a redirect may lead to a URL: its scheme is `http` or `https`. -/
  schemeAllowed : Str → Bool
  /-- What a redirect from one URL to another leaves of the headers, with or without body. -/
  carriedHeaders : Str → Str → Bool → List (Str × Str) → List (Str × Str)
  /-- Whether two URLs lead to one server. -/
  sameOrigin : Str → Str → Bool

/-- `is_hop_by_hop_header` -/
def isHopByHopHeader (name : Str) : Bool :=
  [ "host".toList, "connection".toList, "content-length".toList, "transfer-encoding".toList,
    "keep-alive".toList, "proxy-connection".toList, "proxy-authenticate".toList,
    "proxy-authorization".toList, "te".toList, "trailer".toList,
    "upgrade".toList ].contains (toAsciiLowercase name)

/-- `HeaderValue::to_str`: visible ASCII only. -/
def headerToStr (value : List UInt8) : Option Str :=
  if value.all fun b => (32 ≤ b.toNat && b.toNat < 127) || b.toNat = 9 then
    some (value.map fun b => Char.ofNat b.toNat)
  else none

/-- The request for the node, with the body that the relay read. -/
def forwardedRequest (targetBase : Str) (req : ProxyRequest) : ForwardedRequest where
  method := req.method
  url := targetBase ++ req.pathAndQuery.getD "/".toList
  headers := req.headers.filterMap fun header =>
    if isHopByHopHeader header.1 then none
    else (headerToStr header.2).map fun v => (header.1, v)
  body :=
    let body := req.body.collect.getD []
    if body = [] then none else some body

/-- The headers of the node that are passed on. -/
def relayedHeaders (headers : List Header) : List Header :=
  headers.filter fun header => !isHopByHopHeader header.1

/-- A program that makes requests of the node. -/
abbrev ProxyProg := Prog fun _ : ForwardedRequest => Upstream

/-! ## The HTTP client -/

/-- The statuses that `reqwest` takes for a redirect. -/
def redirectStatuses : List Nat := [301, 302, 303, 307, 308]

/-- Whether a redirect with a status leaves a request its body. -/
def redirectKeepsBody (status : Nat) (method : Str) : Bool :=
  if status = 303 then false
  else if status = 301 ∨ status = 302 then method ≠ "POST".toList
  else true

/-- The method of the request that follows a redirect. -/
def redirectedMethod (status : Nat) (method : Str) : Str :=
  if redirectKeepsBody status method ∨ method = "HEAD".toList then method else "GET".toList

/-- The request that follows a redirect to `url`. -/
def ForwardedRequest.redirected (http : HttpCrate) (q : ForwardedRequest) (status : Nat)
    (url : Str) : ForwardedRequest :=
  let keepsBody := redirectKeepsBody status q.method
  { method := redirectedMethod status q.method
    url
    headers := http.carriedHeaders q.url url keepsBody q.headers
    body := if keepsBody then q.body else none }

/-- What the client does after a request: it is done, or it follows a redirect. -/
inductive Hop
  | done (result : Option UpstreamResponse)
  | follow (q : ForwardedRequest)

/-- What an answer to a request leads to. -/
def UpstreamResponse.hop (http : HttpCrate) (q : ForwardedRequest) (resp : UpstreamResponse) :
    Hop :=
  if resp.status ∈ redirectStatuses then
    match http.location q.url resp.headers with
    | none => .done (some resp)
    | some url =>
        if http.schemeAllowed url then .follow (q.redirected http resp.status url)
        else .done none
  else .done (some resp)

/-- What the outcome of a request leads to. -/
def hop (http : HttpCrate) (q : ForwardedRequest) : Upstream → Hop
  | .refused => .done none
  | .unanswered => .done none
  | .answered resp => resp.hop http q

/-- One request, and what its answer leads to. -/
def sendOnce (http : HttpCrate)
    (follow : ForwardedRequest → ProxyProg (Option UpstreamResponse)) (q : ForwardedRequest) :
    ProxyProg (Option UpstreamResponse) :=
  .ask q fun outcome =>
    match hop http q outcome with
    | .done result => .ret result
    | .follow q' => follow q'

/-- `RequestBuilder::send` of a client that follows at most `limit` redirects. -/
def send (http : HttpCrate) :
    Nat → ForwardedRequest → ProxyProg (Option UpstreamResponse)
  | 0 => sendOnce http fun _ => .ret none
  | limit + 1 => sendOnce http (send http limit)

/-- The limit of a client that is built without a redirect policy. -/
def maxRedirects : Nat := 10

/-- What is made of the result of `send`. -/
def relayAnswer (http : HttpCrate) : Option UpstreamResponse → ProxyResponse
  | none => .text 502 "dig-node unreachable".toList
  | some resp =>
      if http.builds resp.status (relayedHeaders resp.headers) then
        .relayed resp.status (relayedHeaders resp.headers) (resp.body.collect.getD [])
      else .text 500 "internal error".toList

/-- `proxy_respond` -/
def proxyRespond (http : HttpCrate) (targetBase : Str) (req : ProxyRequest) :
    ProxyProg ProxyResponse :=
  if http.methodFromBytes (utf8 req.method) then do
    let result ← send http maxRedirects (forwardedRequest targetBase req)
    return relayAnswer http result
  else return .text 400 "invalid method".toList

/-! ## The requests of a run -/

/-- What one request and its outcome leave for the client to be done with. -/
def handedOut (http : HttpCrate) (event : Event fun _ : ForwardedRequest => Upstream) :
    Option UpstreamResponse :=
  match hop http event.1 event.2 with
  | .done result => result
  | .follow _ => none

/-- No redirect of these events made the client leave the body out. -/
def KeepsBody (s : List (Event fun _ : ForwardedRequest => Upstream)) : Prop :=
  ∀ event ∈ s, ∀ resp, event.2 = .answered resp →
    redirectKeepsBody resp.status event.1.method = true

/-- A run asks once, and is done or follows a redirect. -/
theorem runs_sendOnce_iff {http : HttpCrate}
    {follow : ForwardedRequest → ProxyProg (Option UpstreamResponse)} {q : ForwardedRequest}
    {t : List (Event fun _ : ForwardedRequest => Upstream)} {r : Option UpstreamResponse} :
    Runs (sendOnce http follow q) t r ↔
      ∃ outcome t', t = ⟨q, outcome⟩ :: t' ∧
        ((hop http q outcome = .done r ∧ t' = []) ∨
          ∃ q', hop http q outcome = .follow q' ∧ Runs (follow q') t' r) := by
  rw [sendOnce, runs_ask_iff]
  refine exists_congr fun outcome => exists_congr fun t' => and_congr_right fun _ => ?_
  cases hop http q outcome with
  | done result =>
      simp only [runs_ret_iff, Hop.done.injEq, reduceCtorEq, false_and, exists_false, or_false]
      rw [and_comm, eq_comm]
  | follow q' => simp

/-- Only an answer makes the client follow a redirect. -/
theorem hop_follow {http : HttpCrate} {q q' : ForwardedRequest} {outcome : Upstream}
    (h : hop http q outcome = .follow q') :
    ∃ resp url, outcome = .answered resp ∧ q' = q.redirected http resp.status url := by
  cases outcome with
  | refused => cases h
  | unanswered => cases h
  | answered resp =>
      rw [hop, UpstreamResponse.hop] at h
      grind

theorem hop_done {http : HttpCrate} {q : ForwardedRequest} {outcome : Upstream}
    {resp : UpstreamResponse} (h : hop http q outcome = .done (some resp)) :
    outcome = .answered resp := by
  cases outcome with
  | refused => cases h
  | unanswered => cases h
  | answered resp =>
      rw [hop, UpstreamResponse.hop] at h
      grind

theorem answered_of_handedOut {http : HttpCrate}
    {event : Event fun _ : ForwardedRequest => Upstream} {resp : UpstreamResponse}
    (h : handedOut http event = some resp) : event.2 = .answered resp := by
  rw [handedOut] at h
  cases hhop : hop http event.1 event.2 with
  | done result =>
      rw [hhop] at h
      obtain rfl : result = some resp := h
      exact hop_done hhop
  | follow q' =>
      rw [hhop] at h
      cases h

/-- A run asks once and is done with the answer, or follows a redirect with one less to go. -/
theorem runs_send_cases {http : HttpCrate} {limit : Nat} {q : ForwardedRequest}
    {t : List (Event fun _ : ForwardedRequest => Upstream)} {r : Option UpstreamResponse}
    (h : Runs (send http limit q) t r) :
    (∃ outcome, t = [⟨q, outcome⟩] ∧ r = handedOut http ⟨q, outcome⟩) ∨
      ∃ rest resp url t', limit = rest + 1 ∧ t = ⟨q, .answered resp⟩ :: t' ∧
        Runs (send http rest (q.redirected http resp.status url)) t' r := by
  cases limit with
  | zero =>
      obtain ⟨outcome, t', rfl, ⟨hdone, rfl⟩ | ⟨q', hfollow, hret⟩⟩ := runs_sendOnce_iff.mp h
      · exact Or.inl ⟨outcome, rfl, by rw [handedOut, hdone]⟩
      · obtain ⟨rfl, rfl⟩ := runs_ret_iff.mp hret
        exact Or.inl ⟨outcome, rfl, by rw [handedOut, hfollow]⟩
  | succ rest =>
      obtain ⟨outcome, t', rfl, ⟨hdone, rfl⟩ | ⟨q', hfollow, hrun⟩⟩ := runs_sendOnce_iff.mp h
      · exact Or.inl ⟨outcome, rfl, by rw [handedOut, hdone]⟩
      · obtain ⟨resp, url, rfl, rfl⟩ := hop_follow hfollow
        exact Or.inr ⟨rest, resp, url, t', rfl, rfl, hrun⟩

/-- What holds of every last request, and is kept by a redirect in front, holds of every run. -/
theorem runs_send_induction {http : HttpCrate}
    {P : ForwardedRequest → List (Event fun _ : ForwardedRequest => Upstream) →
      Option UpstreamResponse → Prop}
    (hlast : ∀ q outcome, P q [⟨q, outcome⟩] (handedOut http ⟨q, outcome⟩))
    (hfollow : ∀ q resp url t r, P (q.redirected http resp.status url) t r →
      P q (⟨q, .answered resp⟩ :: t) r)
    {limit : Nat} {q : ForwardedRequest}
    {t : List (Event fun _ : ForwardedRequest => Upstream)} {r : Option UpstreamResponse}
    (h : Runs (send http limit q) t r) : P q t r := by
  induction limit generalizing q t with
  | zero =>
      rcases runs_send_cases h with ⟨outcome, rfl, rfl⟩ | ⟨rest, resp, url, t', hlimit, _, _⟩
      · exact hlast q outcome
      · omega
  | succ limit ih =>
      rcases runs_send_cases h with ⟨outcome, rfl, rfl⟩ | ⟨rest, resp, url, t', hlimit, rfl, hrun⟩
      · exact hlast q outcome
      · obtain rfl := Nat.succ.inj hlimit
        exact hfollow q resp url t' r (ih hrun)

/-- A run hands out what its last request and the outcome of that leave. -/
theorem last_of_runs_send {http : HttpCrate} {limit : Nat} {q : ForwardedRequest}
    {t : List (Event fun _ : ForwardedRequest => Upstream)} {r : Option UpstreamResponse}
    (h : Runs (send http limit q) t r) : ∃ event, t.getLast? = some event ∧
      r = handedOut http event := by
  refine runs_send_induction (P := fun _ t r => ∃ event, t.getLast? = some event ∧
    r = handedOut http event) ?_ ?_ h
  · intro q outcome
    exact ⟨_, rfl, rfl⟩
  · rintro q resp url t r ⟨event, hlast, hr⟩
    exact ⟨event, by rw [List.getLast?_cons, hlast]; rfl, hr⟩

theorem keepsBody_nil : KeepsBody [] := List.forall_mem_nil _

theorem keepsBody_cons_iff {event : Event fun _ : ForwardedRequest => Upstream}
    {s : List (Event fun _ : ForwardedRequest => Upstream)} :
    KeepsBody (event :: s) ↔ (∀ resp, event.2 = .answered resp →
      redirectKeepsBody resp.status event.1.method = true) ∧ KeepsBody s :=
  List.forall_mem_cons

theorem ForwardedRequest.redirected_body (http : HttpCrate) (q : ForwardedRequest) (status : Nat)
    (url : Str) : (q.redirected http status url).body =
      if redirectKeepsBody status q.method then q.body else none := rfl

/-- A request of a run carries the body of the first one, or none once it was left out. -/
theorem body_of_runs_send {http : HttpCrate} {limit : Nat} {q : ForwardedRequest}
    {s u : List (Event fun _ : ForwardedRequest => Upstream)}
    {event : Event fun _ : ForwardedRequest => Upstream} {r : Option UpstreamResponse}
    (h : Runs (send http limit q) (s ++ event :: u) r) :
    (KeepsBody s → event.1.body = q.body) ∧ (¬ KeepsBody s → event.1.body = none) := by
  refine runs_send_induction (P := fun q t _ => ∀ s event u, t = s ++ event :: u →
    (KeepsBody s → event.1.body = q.body) ∧ (¬ KeepsBody s → event.1.body = none))
    ?_ ?_ h s event u rfl
  · intro q outcome s event u ht
    obtain ⟨rfl, rfl, rfl⟩ := eq_of_singleton_eq ht
    exact ⟨fun _ => rfl, fun hdrops => absurd keepsBody_nil hdrops⟩
  · intro q resp url t r ih s event u ht
    cases s with
    | nil =>
        obtain ⟨rfl, _⟩ := List.cons.inj ht
        exact ⟨fun _ => rfl, fun hdrops => absurd keepsBody_nil hdrops⟩
    | cons first s =>
        obtain ⟨rfl, rfl⟩ := List.cons.inj ht
        obtain ⟨hkept, hdropped⟩ := ih s event u rfl
        rw [ForwardedRequest.redirected_body] at hkept
        rw [keepsBody_cons_iff]
        by_cases hkeeps : redirectKeepsBody resp.status q.method = true
        · rw [if_pos hkeeps] at hkept
          refine ⟨fun hall => hkept hall.2, fun hsome => hdropped fun hrest => hsome ⟨?_, hrest⟩⟩
          rintro resp' ⟨⟩
          exact hkeeps
        · rw [if_neg hkeeps] at hkept
          refine ⟨fun hall => absurd (hall.1 resp rfl) hkeeps, fun _ => ?_⟩
          by_cases hrest : KeepsBody s
          · exact hkept hrest
          · exact hdropped hrest

/-! ## What a relay should do -/

/-- No message that broke off is passed off as complete: what reaches the node has the whole
body of the client, what is relayed has the whole body of the last answer, and a body that
broke off leads to a text of the relay. -/
structure RelaysWhole (http : HttpCrate) (targetBase : Str) (req : ProxyRequest)
    (t : List (Event fun _ : ForwardedRequest => Upstream)) (r : ProxyResponse) : Prop where
  request : ∀ event ∈ t, http.sameOrigin (forwardedRequest targetBase req).url event.1.url = true →
    event.2 ≠ .refused → event.1.body.getD [] = req.body.entire
  response : ∀ status headers body, r = .relayed status headers body →
    ∃ event, t.getLast? = some event ∧ ∃ resp, event.2 = .answered resp ∧
      status = resp.status ∧ body = resp.body.entire
  broken : (req.body.brokenAt ≠ none ∨
      ∃ event ∈ t, ∃ resp, event.2 = .answered resp ∧ resp.body.brokenAt ≠ none) →
    ∃ status msg, r = .text status msg

/-- When the relay does it: it refuses the method, or nothing that matters broke off and no
redirect within the node cost the request its body. -/
def DeliversWhole (http : HttpCrate) (targetBase : Str) (req : ProxyRequest)
    (t : List (Event fun _ : ForwardedRequest => Upstream)) : Prop :=
  http.methodFromBytes (utf8 req.method) = true →
    (∀ s event u, t = s ++ event :: u →
      http.sameOrigin (forwardedRequest targetBase req).url event.1.url = true →
        event.2 ≠ .refused →
          req.body.entire = [] ∨ (req.body.brokenAt = none ∧ KeepsBody s)) ∧
    ∀ event, t.getLast? = some event → ∀ resp, handedOut http event = some resp →
      http.builds resp.status (relayedHeaders resp.headers) = true →
        req.body.brokenAt = none ∧
          ∀ event ∈ t, ∀ resp, event.2 = .answered resp → resp.body.brokenAt = none

theorem Delivery.collect_getD_iff (body : Delivery) :
    body.collect.getD [] = body.entire ↔ body.entire = [] ∨ body.brokenAt = none := by
  obtain ⟨entire, brokenAt⟩ := body
  cases brokenAt with
  | none => simp [collect]
  | some n => simp [collect, eq_comm]

theorem forwardedRequest_body (targetBase : Str) (req : ProxyRequest) :
    (forwardedRequest targetBase req).body.getD [] = req.body.collect.getD [] := by
  simp only [forwardedRequest]
  by_cases hbody : req.body.collect.getD [] = []
  · rw [if_pos hbody, hbody]
    rfl
  · rw [if_neg hbody]
    rfl

/-- A request of a run carries the whole body of the client exactly if there is none, or it
came in full and was not left out. -/
theorem body_eq_entire_iff {http : HttpCrate} {targetBase : Str} {req : ProxyRequest}
    {limit : Nat} {s u : List (Event fun _ : ForwardedRequest => Upstream)}
    {event : Event fun _ : ForwardedRequest => Upstream} {r : Option UpstreamResponse}
    (h : Runs (send http limit (forwardedRequest targetBase req)) (s ++ event :: u) r) :
    event.1.body.getD [] = req.body.entire ↔
      req.body.entire = [] ∨ (req.body.brokenAt = none ∧ KeepsBody s) := by
  obtain ⟨hkept, hdropped⟩ := body_of_runs_send h
  by_cases hkeeps : KeepsBody s
  · rw [hkept hkeeps, forwardedRequest_body, Delivery.collect_getD_iff]
    simp only [hkeeps, and_true]
  · rw [hdropped hkeeps, Option.getD_none, eq_comm]
    simp only [hkeeps, and_false, or_false]

/-- A relay that relays something relays an answer that was handed out. -/
theorem relayAnswer_eq_relayed {http : HttpCrate} {result : Option UpstreamResponse}
    {status : Nat} {headers : List Header} {body : List UInt8}
    (h : relayAnswer http result = .relayed status headers body) :
    ∃ resp, result = some resp ∧ http.builds resp.status (relayedHeaders resp.headers) = true ∧
      status = resp.status ∧ body = resp.body.collect.getD [] := by
  cases result with
  | none => cases h
  | some resp =>
      rw [relayAnswer] at h
      by_cases hbuilds : http.builds resp.status (relayedHeaders resp.headers) = true
      · rw [if_pos hbuilds] at h
        obtain ⟨rfl, _, rfl⟩ := ProxyResponse.relayed.inj h
        exact ⟨resp, rfl, hbuilds, rfl, rfl⟩
      · rw [if_neg hbuilds] at h
        cases h

theorem relayAnswer_of_builds {http : HttpCrate} {resp : UpstreamResponse}
    (hbuilds : http.builds resp.status (relayedHeaders resp.headers) = true) :
    relayAnswer http (some resp) =
      .relayed resp.status (relayedHeaders resp.headers) (resp.body.collect.getD []) :=
  if_pos hbuilds

/-- What the relay returns is a text of its own, or something relayed. -/
theorem ProxyResponse.text_or_relayed (r : ProxyResponse) :
    (∃ status msg, r = .text status msg) ∨
      ∃ status headers body, r = .relayed status headers body := by
  cases r with
  | relayed status headers body => exact Or.inr ⟨_, _, _, rfl⟩
  | text status msg => exact Or.inl ⟨_, _, rfl⟩

/-- A run of the relay on a request whose method the client takes is a run of `send`. -/
theorem runs_proxyRespond_iff {http : HttpCrate} {req : ProxyRequest}
    (hmethod : http.methodFromBytes (utf8 req.method) = true) {targetBase : Str}
    {t : List (Event fun _ : ForwardedRequest => Upstream)} {r : ProxyResponse} :
    Runs (proxyRespond http targetBase req) t r ↔
      ∃ result, Runs (send http maxRedirects (forwardedRequest targetBase req)) t result ∧
        r = relayAnswer http result := by
  rw [proxyRespond, if_pos hmethod, runs_bind_iff]
  constructor
  · rintro ⟨t₁, result, t₂, rfl, hsend, hret⟩
    obtain ⟨rfl, rfl⟩ := runs_ret_iff.mp hret
    rw [List.append_nil]
    exact ⟨result, hsend, rfl⟩
  · rintro ⟨result, hsend, rfl⟩
    exact ⟨t, result, [], (List.append_nil t).symm, hsend, .ret _⟩

/-- The status of a response. -/
def ProxyResponse.status : ProxyResponse → Nat
  | relayed status _ _ => status
  | text status _ => status.toNat

/-- The client of the relay sees what `proxyStatus` says of the last answer. -/
theorem status_of_runs_proxyRespond {http : HttpCrate} {targetBase : Str} {req : ProxyRequest}
    {t : List (Event fun _ : ForwardedRequest => Upstream)} {r : ProxyResponse}
    (hmethod : http.methodFromBytes (utf8 req.method) = true)
    (hbuilds : ∀ status headers, http.builds status headers = true)
    (h : Runs (proxyRespond http targetBase req) t r) :
    ∃ event, t.getLast? = some event ∧
      r.status = proxyStatus ((handedOut http event).map fun resp => resp.status) := by
  obtain ⟨result, hsend, rfl⟩ := (runs_proxyRespond_iff hmethod).mp h
  obtain ⟨event, hlast, rfl⟩ := last_of_runs_send hsend
  refine ⟨event, hlast, ?_⟩
  cases handedOut http event with
  | none => rfl
  | some resp =>
      rw [relayAnswer_of_builds (hbuilds _ _)]
      rfl

/-- The relay passes no message that broke off for a complete one exactly when it refuses the
method, or nothing that it forwards broke off or was left out. -/
theorem proxyRespond_relaysWhole_iff {http : HttpCrate} {targetBase : Str} {req : ProxyRequest}
    {t : List (Event fun _ : ForwardedRequest => Upstream)} {r : ProxyResponse}
    (h : Runs (proxyRespond http targetBase req) t r) :
    RelaysWhole http targetBase req t r ↔ DeliversWhole http targetBase req t := by
  cases hmethod : http.methodFromBytes (utf8 req.method) with
  | false =>
      rw [proxyRespond, hmethod] at h
      obtain ⟨rfl, rfl⟩ := runs_ret_iff.mp h
      constructor
      · intro _ htrue
        rw [hmethod] at htrue
        cases htrue
      · intro _
        refine ⟨?_, ?_, fun _ => ⟨_, _, rfl⟩⟩
        · intro event hevent
          cases hevent
        · intro status headers body hrelayed
          cases hrelayed
  | true =>
      obtain ⟨result, hsend, rfl⟩ := (runs_proxyRespond_iff hmethod).mp h
      obtain ⟨last, hlast, rfl⟩ := last_of_runs_send hsend
      constructor
      · intro hwhole _
        refine ⟨?_, ?_⟩
        · rintro s event u rfl horigin hreached
          rw [← body_eq_entire_iff hsend]
          exact hwhole.request event List.mem_append_cons_self horigin hreached
        · intro event hevent resp hresp hbuilds
          obtain rfl := Option.some.inj (hevent.symm.trans hlast)
          -- the relay passes this answer on, so it may not owe the client a text
          have howes : ¬ ∃ status msg, relayAnswer http (handedOut http event) =
              .text status msg := by
            rw [hresp, relayAnswer_of_builds hbuilds]
            simp
          refine ⟨by_contra fun hbroken => howes (hwhole.broken (Or.inl hbroken)), ?_⟩
          intro event' hevent' resp' hresp'
          exact by_contra fun hbroken =>
            howes (hwhole.broken (Or.inr ⟨event', hevent', resp', hresp', hbroken⟩))
      · intro hdelivers
        obtain ⟨hclient, hnode⟩ := hdelivers hmethod
        refine ⟨?_, ?_, ?_⟩
        · intro event hevent horigin hreached
          obtain ⟨s, u, rfl⟩ := List.append_of_mem hevent
          rw [body_eq_entire_iff hsend]
          exact hclient s event u rfl horigin hreached
        · intro status headers body hrelayed
          obtain ⟨resp, hresp, hbuilds, rfl, rfl⟩ := relayAnswer_eq_relayed hrelayed
          have hanswered := answered_of_handedOut hresp
          refine ⟨last, hlast, resp, hanswered, rfl, ?_⟩
          rw [Delivery.collect_getD_iff]
          exact Or.inr ((hnode last hlast resp hresp hbuilds).2 last
            (List.mem_of_getLast? hlast) resp hanswered)
        · intro hbroken
          rcases (relayAnswer http (handedOut http last)).text_or_relayed with
            htext | ⟨status, headers, body, hrelayed⟩
          · exact htext
          · obtain ⟨resp, hresp, hbuilds, _, _⟩ := relayAnswer_eq_relayed hrelayed
            obtain ⟨hreq, hall⟩ := hnode last hlast resp hresp hbuilds
            rcases hbroken with hbroken | ⟨event, hevent, resp', hanswer, hbroken⟩
            · exact absurd hreq hbroken
            · exact absurd (hall event hevent resp' hanswer) hbroken

/-- HTTP crates that refuse nothing, and read a `Location` as it stands. -/
def lenientHttp : HttpCrate where
  methodFromBytes _ := true
  builds _ _ := true
  location _ headers :=
    (headers.find? fun header => header.1 = "location".toList).bind fun header =>
      headerToStr header.2
  schemeAllowed url := "http://".toList.isPrefixOf url
  carriedHeaders _ _ _ headers := headers
  sameOrigin a b := (a.splitOn '/').take 3 = (b.splitOn '/').take 3

/-- The local node. -/
def localNode : Str := "http://localhost:9778".toList

/-- A call of the node in full. -/
def rpcRequest : ProxyRequest where
  method := "POST".toList
  pathAndQuery := some "/".toList
  headers := []
  body := ⟨utf8 "\x7b\x7d".toList, none⟩

/-- The answer of a node that sends its client to `/rpc`. -/
def elsewhere (status : Nat) : UpstreamResponse where
  status
  headers := [("location".toList, utf8 "http://localhost:9778/rpc".toList)]
  body := ⟨[], none⟩

/-- A call that the node sends on with a status, and then answers. -/
def redirectedCall (status : Nat) : List (Event fun _ : ForwardedRequest => Upstream) :=
  let q := forwardedRequest localNode rpcRequest
  [⟨q, .answered (elsewhere status)⟩,
    ⟨q.redirected lenientHttp status "http://localhost:9778/rpc".toList,
      .answered ⟨200, [], ⟨utf8 "\x7b\x7d".toList, none⟩⟩⟩]

/-- The relay follows the redirect. -/
theorem runs_redirectedCall (status : Nat) (hstatus : status ∈ redirectStatuses) :
    Runs (proxyRespond lenientHttp localNode rpcRequest) (redirectedCall status)
      (.relayed 200 [] (utf8 "\x7b\x7d".toList)) := by
  rw [runs_proxyRespond_iff rfl]
  have hhop : hop lenientHttp (forwardedRequest localNode rpcRequest)
      (.answered (elsewhere status)) =
        .follow ((forwardedRequest localNode rpcRequest).redirected lenientHttp status
          "http://localhost:9778/rpc".toList) := if_pos hstatus
  refine ⟨some ⟨200, [], ⟨utf8 "\x7b\x7d".toList, none⟩⟩, ?_, rfl⟩
  refine runs_sendOnce_iff.mpr ⟨_, _, rfl, Or.inr ⟨_, hhop, ?_⟩⟩
  exact runs_sendOnce_iff.mpr ⟨_, _, rfl, Or.inl ⟨rfl, rfl⟩⟩

theorem proxyRespond_relaysWhole_iff_redirected :
    RelaysWhole lenientHttp localNode rpcRequest (redirectedCall 308)
      (.relayed 200 [] (utf8 "\x7b\x7d".toList)) := by
  have hkeeps : KeepsBody (redirectedCall 308) := by
    rintro event hevent resp hresp
    rcases List.mem_pair.mp hevent with rfl | rfl <;> cases hresp <;> rfl
  refine (proxyRespond_relaysWhole_iff (runs_redirectedCall 308 (by decide))).mpr fun _ => ⟨?_, ?_⟩
  · intro s event u ht _ _
    refine Or.inr ⟨rfl, fun event' hevent' => hkeeps event' ?_⟩
    rw [ht]
    exact List.mem_append_left _ hevent'
  · intro _ _ _ _ _
    refine ⟨rfl, fun event hevent resp hresp => ?_⟩
    rcases List.mem_pair.mp hevent with rfl | rfl <;> cases hresp <;> rfl

/-- A success whose body breaks off after its first byte is relayed as an empty success, and a
call that the node sends elsewhere with a 302 reaches it without its body. -/
theorem proxyRespond_not_relaysWhole :
    (∃ t r, Runs (proxyRespond lenientHttp localNode rpcRequest) t r ∧
      t = [⟨forwardedRequest localNode rpcRequest,
        .answered ⟨200, [], ⟨utf8 "\x7b\x7d".toList, some 1⟩⟩⟩] ∧
      ¬ RelaysWhole lenientHttp localNode rpcRequest t r) ∧
    ∃ r, Runs (proxyRespond lenientHttp localNode rpcRequest) (redirectedCall 302) r ∧
      ¬ RelaysWhole lenientHttp localNode rpcRequest (redirectedCall 302) r := by
  constructor
  · refine ⟨_, .relayed 200 [] [], (runs_proxyRespond_iff rfl).mpr
      ⟨some ⟨200, [], ⟨utf8 "\x7b\x7d".toList, some 1⟩⟩, ?_, rfl⟩, rfl, fun hwhole => ?_⟩
    · exact runs_sendOnce_iff.mpr ⟨_, _, rfl, Or.inl ⟨rfl, rfl⟩⟩
    · obtain ⟨_, ⟨⟩, _, ⟨⟩, _, hempty⟩ := hwhole.response _ _ _ rfl
      exact absurd hempty (by decide)
  · refine ⟨_, runs_redirectedCall 302 (by decide), fun hwhole => ?_⟩
    have hdropped := hwhole.request _ (List.mem_cons_of_mem _ List.mem_cons_self)
      (by decide +kernel) (by rintro ⟨⟩)
    exact absurd hdropped (by decide)

end DigDns
