import DigDns.Transport
import Mathlib.Data.List.Chain

/-!
# Paging through content

The node decides after every window whether there is another one and where it
starts.  `Pages` says what the loop of `get_content` makes of its answers; the
bounds, the order of the offsets and the flags of the windows are read off it by
induction.
-/

namespace DigDns

open Rust Serde Interaction

namespace ReqwestNodeClient

/-- A round of the loop: the offset it asked for and the answer it got. -/
structure Page where
  offset : UInt64
  answer : Except Str HttpResponse

/-- The window that a page holds, or the error of its call. -/
def Page.window (page : Page) : Except NodeError Value := readResponse page.answer

/-- The request of a page with its answer. -/
def Page.event (base storeHex retrievalKeyHex : Str) (rootHex : Option Str) (page : Page) :
    HttpEvent :=
  ⟨.post (base ++ "/".toList) (rpcBody "dig.getContent".toList
    (buildContentParams storeHex retrievalKeyHex rootHex page.offset)), page.answer⟩

/-- The loop goes on from a page only to the offset that its window gives,
which lies further on. -/
def Page.LeadsTo (page next : Page) : Prop :=
  ∃ window, page.window = .ok window ∧ isComplete window = false ∧
    nextOffset window = some next.offset ∧ page.offset < next.offset

/-- `Pages windows pages r`: having got `windows`, the loop goes through `pages`
and ends with `r`. -/
inductive Pages : List Value → List Page → Except NodeError (List Value) → Prop
  | capped {windows : List Value} {e : NodeError} (hcap : maxContentWindows ≤ windows.length) :
      Pages windows [] (.error e)
  | failed {windows : List Value} {page : Page} {e : NodeError}
      (hcap : windows.length < maxContentWindows) (hpage : page.window = .error e) :
      Pages windows [page] (.error e)
  | finished {windows : List Value} {page : Page} {window : Value}
      (hcap : windows.length < maxContentWindows) (hpage : page.window = .ok window)
      (hcomplete : isComplete window = true) : Pages windows [page] (.ok (windows ++ [window]))
  | stuck {windows : List Value} {page : Page} {window : Value} {e : NodeError}
      (hcap : windows.length < maxContentWindows) (hpage : page.window = .ok window)
      (hcomplete : isComplete window = false) : Pages windows [page] (.error e)
  | further {windows : List Value} {page : Page} {window : Value} {pages : List Page}
      {r : Except NodeError (List Value)}
      (hcap : windows.length < maxContentWindows) (hpage : page.window = .ok window)
      (hcomplete : isComplete window = false)
      (hnext : ∀ next ∈ pages.head?, page.LeadsTo next)
      (hrest : Pages (windows ++ [window]) pages r) : Pages windows (page :: pages) r

variable {base storeHex retrievalKeyHex : Str} {rootHex : Option Str}
  {windows : List Value} {pages : List Page} {r : Except NodeError (List Value)}

theorem runs_contentCall_bind {β : Type} {f : Except NodeError Value → HttpProg β}
    {offset : UInt64} {t : List HttpEvent} {b : β} :
    Runs (contentCall base storeHex retrievalKeyHex rootHex offset >>= f) t b ↔
      ∃ page : Page, page.offset = offset ∧ ∃ t',
        t = page.event base storeHex retrievalKeyHex rootHex :: t' ∧ Runs (f page.window) t' b := by
  constructor
  · intro h
    obtain ⟨answer, t', rfl, hrest⟩ := runs_ask_iff.mp h
    exact ⟨⟨offset, answer⟩, rfl, t', rfl, hrest⟩
  · rintro ⟨⟨offset, answer⟩, rfl, t', rfl, h⟩
    exact runs_ask_iff.mpr ⟨answer, t', rfl, h⟩

/-- Whatever the answers, the loop goes through pages, the first of them at its offset. -/
theorem pages_of_runs {offset : UInt64} {t : List HttpEvent}
    (h : Runs (contentWindows base storeHex retrievalKeyHex rootHex windows offset) t r) :
    ∃ pages : List Page, t = pages.map (Page.event base storeHex retrievalKeyHex rootHex) ∧
      (∀ page ∈ pages.head?, page.offset = offset) ∧ Pages windows pages r := by
  induction windows, offset using contentWindows.induct generalizing t with
  | case1 windows offset hcap =>
      rw [contentWindows, dif_pos hcap, runs_ret_iff] at h
      obtain ⟨rfl, rfl⟩ := h
      exact ⟨[], rfl, by simp, .capped hcap⟩
  | case2 windows offset hcap ih =>
      rw [contentWindows, dif_neg hcap, runs_contentCall_bind] at h
      obtain ⟨page, rfl, t', rfl, h⟩ := h
      have hroom := Nat.lt_of_not_le hcap
      cases hpage : page.window with
      | error e =>
          rw [hpage] at h
          obtain ⟨rfl, rfl⟩ := runs_ret_iff.mp h
          exact ⟨[page], rfl, by simp, .failed hroom hpage⟩
      | ok window =>
          rw [hpage] at h
          cases hcomplete : isComplete window with
          | true =>
              simp only [hcomplete, if_true, runs_ret_iff] at h
              obtain ⟨rfl, rfl⟩ := h
              exact ⟨[page], rfl, by simp, .finished hroom hpage hcomplete⟩
          | false =>
              simp only [hcomplete, Bool.false_eq_true, if_false] at h
              -- Only a `next_offset` that lies further on leads to another page.
              cases hnext : nextOffset window with
              | none =>
                  simp only [hnext, runs_ret_iff] at h
                  obtain ⟨rfl, rfl⟩ := h
                  exact ⟨[page], rfl, by simp, .stuck hroom hpage hcomplete⟩
              | some next =>
                  simp only [hnext] at h
                  by_cases hlt : page.offset < next
                  · rw [if_pos hlt] at h
                    obtain ⟨pages, rfl, hhead, hpages⟩ := ih window next h
                    refine ⟨page :: pages, rfl, by simp, .further hroom hpage hcomplete ?_ hpages⟩
                    intro follower hfollower
                    have hoffset := hhead follower hfollower
                    exact ⟨window, hpage, hcomplete, by rw [hnext, hoffset], by rw [hoffset]; exact hlt⟩
                  · rw [if_neg hlt, runs_ret_iff] at h
                    obtain ⟨rfl, rfl⟩ := h
                    exact ⟨[page], rfl, by simp, .stuck hroom hpage hcomplete⟩

/-- The loop makes as many calls as there is room for windows. -/
theorem Pages.length_le (h : Pages windows pages r) (hroom : windows.length ≤ maxContentWindows) :
    windows.length + pages.length ≤ maxContentWindows := by
  induction h with
  | capped _ => simpa using hroom
  | failed hcap _ => exact hcap
  | finished hcap _ _ => exact hcap
  | stuck hcap _ _ => exact hcap
  | further hcap _ _ _ _ ih =>
      rw [List.length_append, List.length_singleton] at ih
      rw [List.length_cons]
      have := ih (by omega)
      omega

theorem Pages.ne_nil (h : Pages windows pages r) (hroom : windows.length < maxContentWindows) :
    pages ≠ [] := by
  rintro rfl
  cases h with
  | capped hcap => omega

/-- Each page leads to the next. -/
theorem Pages.isChain (h : Pages windows pages r) : pages.IsChain Page.LeadsTo := by
  induction h with
  | capped _ => exact .nil
  | failed _ _ => exact .singleton _
  | finished _ _ _ => exact .singleton _
  | stuck _ _ _ => exact .singleton _
  | further _ _ _ hnext _ ih =>
      exact ih.cons hnext

/-- An error of a call ends the loop and is what it returns. -/
theorem Pages.error_last (h : Pages windows pages r) {before after : List Page} {page : Page}
    {e : NodeError} (hpages : pages = before ++ page :: after) (herror : page.window = .error e) :
    after = [] ∧ r = .error e := by
  induction h generalizing before with
  | capped _ => simp at hpages
  | failed _ hpage =>
      obtain ⟨-, rfl, rfl⟩ := eq_of_singleton_eq hpages
      rw [hpage] at herror
      cases herror
      exact ⟨rfl, rfl⟩
  | finished _ hpage _ =>
      obtain ⟨-, rfl, rfl⟩ := eq_of_singleton_eq hpages
      rw [hpage] at herror
      cases herror
  | stuck _ hpage _ =>
      obtain ⟨-, rfl, rfl⟩ := eq_of_singleton_eq hpages
      rw [hpage] at herror
      cases herror
  | further _ hpage _ _ _ ih =>
      cases before with
      | nil =>
          obtain ⟨rfl, rfl⟩ := List.cons.inj hpages
          rw [hpage] at herror
          cases herror
      | cons _ before => exact ih (List.cons.inj hpages).2

/-- Windows of which the last one, and no other, says that it is the last. -/
def EndsComplete (windows : List Value) : Prop :=
  ∃ earlier last, windows = earlier ++ [last] ∧ isComplete last = true ∧
    ∀ window ∈ earlier, isComplete window = false

/-- What the loop hands over ends with its first complete window. -/
theorem Pages.endsComplete {out : List Value} (h : Pages windows pages (.ok out))
    (hwindows : ∀ window ∈ windows, isComplete window = false) : EndsComplete out := by
  generalize hr : Except.ok out = r at h
  induction h with
  | capped _ => cases hr
  | failed _ _ => cases hr
  | stuck _ _ _ => cases hr
  | finished _ _ hcomplete =>
      cases hr
      exact ⟨_, _, rfl, hcomplete, hwindows⟩
  | further _ _ hcomplete _ _ ih =>
      refine ih ?_ hr
      intro window hmem
      rcases List.mem_append.mp hmem with hmem | hmem
      · exact hwindows window hmem
      · rw [List.mem_singleton.mp hmem]
        exact hcomplete

/-! ## The flags of the windows -/

/-- What `assemble_windows` can say about the flags of its windows. -/
def flagErrors : List NodeError := [finalNotComplete, nonFinalComplete, noContentWindows]

theorem assembleWindow_flags {codecs : Codecs} {lastIndex : Nat} {ciphertext : List UInt8}
    {w : Value × Nat} {e : NodeError} (h : assembleWindow codecs lastIndex ciphertext w = .error e)
    (hflag : isComplete w.1 = true ↔ w.2 = lastIndex) : e ∉ flagErrors := by
  rw [assembleWindow, bind_eq_error_iff, okOr_eq_error_iff] at h
  obtain ⟨-, rfl⟩ | ⟨_, -, h⟩ := h
  · decide
  rw [bind_eq_error_iff, okOr_eq_error_iff] at h
  obtain ⟨-, rfl⟩ | ⟨_, -, h⟩ := h
  · decide
  by_cases hlast : w.2 = lastIndex
  · simp [hlast, hflag.mpr hlast] at h
  · have hcomplete : isComplete w.1 = false := by simpa [hlast] using hflag
    simp [hlast, hcomplete] at h

theorem parseChunkLens_flags {first : Value} {e : NodeError}
    (h : parseChunkLens first = .error e) : e ∉ flagErrors := by
  unfold parseChunkLens at h
  split at h
  · obtain ⟨v, -, hentry⟩ := exists_of_mapM_eq_error h
    obtain ⟨-, rfl⟩ := okOr_eq_error_iff.mp hentry
    decide
  · cases h
    decide
  · cases h
    decide

/-- The flags of windows that end complete, one by one. -/
theorem EndsComplete.isComplete_iff (h : EndsComplete windows) {w : Value × Nat}
    (hw : w ∈ windows.zipIdx) : isComplete w.1 = true ↔ w.2 = windows.length - 1 := by
  obtain ⟨earlier, last, rfl, hlast, hearlier⟩ := h
  have hget := List.mem_zipIdx_iff_getElem?.mp hw
  obtain hlt | heq | hgt := Nat.lt_trichotomy w.2 earlier.length
  · rw [List.getElem?_append_left hlt] at hget
    have hflag := hearlier _ (List.mem_of_getElem? hget)
    simp [hflag]
    omega
  · rw [heq, List.getElem?_concat_length, Option.some.injEq] at hget
    simp [← hget, hlast, heq]
  · have hlen := (List.getElem?_eq_some_iff.mp hget).1
    rw [List.length_append, List.length_singleton] at hlen
    omega

/-- `assemble_windows` has nothing to say about the flags of windows that end complete. -/
theorem assembleWindows_flags {codecs : Codecs} {e : NodeError} (hends : EndsComplete windows)
    (h : assembleWindows codecs windows = .error e) : e ∉ flagErrors := by
  rw [assembleWindows, bind_eq_error_iff, okOr_eq_error_iff] at h
  obtain ⟨hnil, -⟩ | ⟨first, -, h⟩ := h
  · obtain ⟨earlier, last, rfl, -⟩ := hends
    simp at hnil
  rw [bind_eq_error_iff, okOr_eq_error_iff] at h
  obtain ⟨-, rfl⟩ | ⟨_, -, h⟩ := h
  · decide
  rw [bind_eq_error_iff] at h
  obtain hlens | ⟨_, -, h⟩ := h
  · exact parseChunkLens_flags hlens
  rw [bind_eq_error_iff, okOr_eq_error_iff] at h
  obtain ⟨-, rfl⟩ | ⟨_, -, h⟩ := h
  · decide
  rw [bind_eq_error_iff] at h
  obtain hloop | ⟨_, -, h⟩ := h
  · obtain ⟨w, hw, _, hround⟩ := exists_of_foldlM_eq_error hloop
    exact assembleWindow_flags hround (hends.isComplete_iff hw)
  · cases h

/-! ## Every node -/

/-- Whatever a node answers, `get_content` makes at most `maxContentWindows` calls
for one store, key and root, at offsets that start at 0 and follow the windows
upwards; an error of a call ends it at once; and the windows that reach
`assemble_windows` agree with its check of their flags. -/
theorem getContent_pages (codecs : Codecs) (base storeHex retrievalKeyHex : Str)
    (rootHex : Option Str) (network : HttpBehaviour) :
    let out := (getContent codecs base storeHex retrievalKeyHex rootHex).run network
    let loop := (contentWindows base storeHex retrievalKeyHex rootHex [] 0).run network
    out = (loop.1, loop.2 >>= assembleWindows codecs) ∧
    (∀ windows, loop.2 = .ok windows →
      ∀ e ∈ flagErrors, assembleWindows codecs windows ≠ .error e) ∧
    ∃ pages : List Page,
      out.1 = pages.map (Page.event base storeHex retrievalKeyHex rootHex) ∧
      pages.length ≤ maxContentWindows ∧
      pages.head?.map Page.offset = some 0 ∧
      pages.IsChain Page.LeadsTo ∧
      ∀ before page after e, pages = before ++ page :: after → page.window = .error e →
        after = [] ∧ out.2 = .error e := by
  intro out loop
  have hout : out = (loop.1, loop.2 >>= assembleWindows codecs) := Prog.run_bind_ret network _ _
  have hloop : Runs (contentWindows base storeHex retrievalKeyHex rootHex [] 0) loop.1 loop.2 :=
    Prog.runs_run network _
  obtain ⟨pages, htrace, hhead, hpages⟩ := pages_of_runs hloop
  refine ⟨hout, ?_, pages, ?_, ?_, ?_, hpages.isChain, ?_⟩
  · intro windows hwindows e he herror
    rw [hwindows] at hpages
    have hends := hpages.endsComplete (List.forall_mem_nil _)
    exact assembleWindows_flags hends herror he
  · rw [hout, htrace]
  · have hlength := hpages.length_le (Nat.zero_le _)
    rwa [List.length_nil, Nat.zero_add] at hlength
  · obtain ⟨page, rest, rfl⟩ := List.exists_cons_of_ne_nil (hpages.ne_nil (by decide))
    simp [hhead page rfl]
  · intro before page after e hsplit herror
    obtain ⟨hafter, hresult⟩ := hpages.error_last hsplit herror
    refine ⟨hafter, ?_⟩
    rw [hout, hresult]
    rfl

end ReqwestNodeClient

end DigDns
