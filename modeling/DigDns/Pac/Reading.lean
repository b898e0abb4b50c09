import DigDns.Config
import DigDns.Pac
import DigDns.Support.Script

/-!
# How a browser reads the PAC file

The comments and string literals of the script, and the function that it
declares.
-/

namespace DigDns.Pac

open Rust Script

/-- The text of the first comment. -/
def routesComment (tld : Str) : Str :=
  " dig-dns PAC - routes *.".toList ++ tld ++
    " to the local gateway, everything else DIRECT.".toList

/-- The text of the second comment. -/
def portComment (port : UInt16) : Str :=
  " Generated with the actually-bound gateway port (".toList ++ fmtNat port.toNat ++ ").".toList

/-- The gateway as a proxy. -/
def gatewayProxy (ip : Ipv4Addr) (port : UInt16) : Str :=
  "PROXY ".toList ++ ip.fmt ++ ":".toList ++ fmtNat port.toNat

/-- What the script makes of a TLD that is already in normal form. -/
theorem dropDots_of_isSafeTld {tld : Str} (htld : isSafeTld tld = true) :
    toAsciiLowercase ((trim tld).dropWhile (· = '.')) = tld := by
  have hdot := forall_mem_of_isSafeTld (P := fun c => c ≠ '.') htld (by decide)
  have hspace := forall_mem_of_isSafeTld (P := fun c => isWhitespace c = false) htld (by decide)
  have hcase := forall_mem_of_isSafeTld
    (P := fun c => ¬ (65 ≤ c.toNat ∧ c.toNat ≤ 90)) htld (by decide)
  rw [trim_of_no_whitespace hspace]
  have hdrop : tld.dropWhile (· = '.') = tld := by
    cases tld with
    | nil => rfl
    | cons c s => exact List.dropWhile_cons_of_neg (by simpa using hdot c List.mem_cons_self)
  rw [hdrop]
  exact toAsciiLowercase_of_no_upper hcase

/-- The function of the script. -/
def findProxyForUrl (ip : Ipv4Addr) (port : UInt16) (tld : Str) : Function where
  name := "FindProxyForURL".toList
  params := ["url".toList, "host".toList]
  body :=
    [.assign "host".toList (.method (.name "host".toList) "toLowerCase".toList),
      .returnWhen
        (.either (.call "dnsDomainIs".toList (.name "host".toList) (.literal ('.' :: tld)))
          (.same (.name "host".toList) (.literal tld)))
        (.literal (gatewayProxy ip port)),
      .ret (.literal "DIRECT".toList)]

variable (ip : Ipv4Addr) (port : UInt16) {tld : Str}

set_option maxRecDepth 2000 in
/-- The text is two comment lines and the function. -/
theorem generate_eq (htld : isSafeTld tld = true) :
    generate ip port tld =
      ('/' :: '/' :: routesComment tld ++ ['\n']) ++ (('/' :: '/' :: portComment port ++ ['\n']) ++
        (findProxyForUrl ip port tld).render) := by
  unfold generate routesComment portComment Function.render findProxyForUrl gatewayProxy
  simp only [dropDots_of_isSafeTld htld, List.flatMap_cons, List.flatMap_nil, Stmt.render_assign,
    Stmt.render_returnWhen, Stmt.render_ret, Expr.render_name, Expr.render_literal,
    Expr.render_method, Expr.render_call, Expr.render_same, Expr.render_either,
    List.intercalate_cons_cons, List.intercalate_singleton]
  -- A literal is its list of characters.
  have hliteral : ∀ s : Str, (String.ofList s).toList = s := fun _ => String.toList_ofList
  simp only [hliteral, List.append_assoc, List.cons_append, List.nil_append, List.append_nil]

theorem isPlain_findProxyForUrl (htld : isSafeTld tld = true) :
    ∀ t ∈ (findProxyForUrl ip port tld).body, t.IsPlain := by
  have hhost : ∀ c ∈ "host".toList, IsCodeChar c := by decide
  have hlower : ∀ c ∈ "toLowerCase".toList, IsCodeChar c := by decide
  have hglobal : ∀ c ∈ "dnsDomainIs".toList, IsCodeChar c := by decide
  have hdirect : ∀ c ∈ "DIRECT".toList, IsLiteralChar c := by decide
  have htldChars : ∀ c ∈ tld, IsLiteralChar c := forall_mem_of_isSafeTld htld (by decide)
  have hdomain : ∀ c ∈ '.' :: tld, IsLiteralChar c :=
    List.forall_mem_cons.mpr ⟨by decide, htldChars⟩
  have hproxy : ∀ c ∈ gatewayProxy ip port, IsLiteralChar c := by
    refine List.forall_mem_append.mpr ⟨List.forall_mem_append.mpr
      ⟨List.forall_mem_append.mpr ⟨?_, ?_⟩, ?_⟩, ?_⟩
    · decide
    · exact Ipv4Addr.forall_mem_fmt ip (by decide)
    · decide
    · exact forall_mem_fmtNat _ (by decide)
  intro t ht
  rcases List.mem_cons.mp ht with rfl | ht
  · exact ⟨hhost, hhost, hlower⟩
  rcases List.mem_pair.mp ht with rfl | rfl
  · exact ⟨⟨⟨hglobal, hhost, hdomain⟩, hhost, htldChars⟩, hproxy⟩
  · exact hdirect

/-- The comments and literals of the script: nothing of the TLD, the address or the
port leaves its place. -/
theorem marks_generate (htld : isSafeTld tld = true) :
    marks (generate ip port tld) = some
      [.comment (routesComment tld), .comment (portComment port), .literal ('.' :: tld),
        .literal tld, .literal (gatewayProxy ip port), .literal "DIRECT".toList] := by
  have hroutes : ∀ c ∈ routesComment tld, isLineEnd c = false := by
    refine List.forall_mem_append.mpr ⟨List.forall_mem_append.mpr ⟨?_, ?_⟩, ?_⟩
    · decide
    · exact forall_mem_of_isSafeTld htld (by decide)
    · decide
  have hport : ∀ c ∈ portComment port, isLineEnd c = false := by
    refine List.forall_mem_append.mpr ⟨List.forall_mem_append.mpr ⟨?_, ?_⟩, ?_⟩
    · decide
    · exact forall_mem_fmtNat _ (by decide)
    · decide
  have hname : ∀ c ∈ "FindProxyForURL".toList, IsCodeChar c := by decide
  have hparams : ∀ x ∈ ["url".toList, "host".toList], ∀ c ∈ x, IsCodeChar c := by decide
  have hfunction : HasMarks (findProxyForUrl ip port tld).render
      [.literal ('.' :: tld), .literal tld, .literal (gatewayProxy ip port),
        .literal "DIRECT".toList] :=
    Function.hasMarks_render hname hparams (isPlain_findProxyForUrl ip port htld)
  rw [generate_eq ip port htld]
  exact ((hasMarks_comment hroutes).append ((hasMarks_comment hport).append hfunction)).marks_eq

/-! ## What the function returns -/

/-- The part of a browser that runs the script: `toLowerCase` folds the case of ASCII
strings as expected, and `dnsDomainIs` tests for a suffix. -/
structure Browser extends Runtime where
  toLowerCase (s : Str) (hascii : ∀ c ∈ s, c.toNat < 128) :
    method (.string s) "toLowerCase".toList = some (.string (toAsciiLowercase s))
  dnsDomainIs (host domain : Str) :
    call "dnsDomainIs".toList (.string host) (.string domain) =
      some (.bool (domain.isSuffixOf host))

/-- One that has no other method and no other function. -/
def Browser.standard : Browser where
  method
    | .string s, name =>
        if name = "toLowerCase".toList then some (.string (toAsciiLowercase s)) else none
    | _, _ => none
  call
    | name, .string host, .string domain =>
        if name = "dnsDomainIs".toList then some (.bool (domain.isSuffixOf host)) else none
    | _, _, _ => none
  toLowerCase _ _ := if_pos rfl
  dnsDomainIs _ _ := if_pos rfl

/-- What a browser gets for a URL and its host. -/
def proxyFor (browser : Browser) (ip : Ipv4Addr) (port : UInt16) (tld url host : Str) :
    Option Value :=
  (findProxyForUrl ip port tld).run browser.toRuntime [.string url, .string host]

theorem proxyFor_eq (browser : Browser) (tld url : Str) {host : Str}
    (hascii : ∀ c ∈ host, c.toNat < 128) :
    proxyFor browser ip port tld url host = some (.string
      (if ('.' :: tld) <:+ toAsciiLowercase host ∨ toAsciiLowercase host = tld then
        gatewayProxy ip port else "DIRECT".toList)) := by
  let scope : Scope := fun x =>
    (List.zip ["url".toList, "host".toList] [Value.string url, Value.string host]).lookup x
  let lowered : Scope := fun x =>
    if x = "host".toList then some (.string (toAsciiLowercase host)) else scope x
  have hhost : (Expr.name "host".toList).eval browser.toRuntime scope = some (.string host) := rfl
  have hfirst : (Expr.method (.name "host".toList) "toLowerCase".toList).eval browser.toRuntime
      scope = some (.string (toAsciiLowercase host)) := by
    rw [Expr.eval_method browser.toRuntime scope _ hhost]
    exact browser.toLowerCase host hascii
  have hlowered : (Expr.name "host".toList).eval browser.toRuntime lowered =
      some (.string (toAsciiLowercase host)) := by
    change (if "host".toList = "host".toList then _ else scope "host".toList) = _
    exact if_pos rfl
  have hdomain : (Expr.call "dnsDomainIs".toList (.name "host".toList) (.literal ('.' :: tld))).eval
      browser.toRuntime lowered = some (.bool (('.' :: tld).isSuffixOf (toAsciiLowercase host))) := by
    rw [Expr.eval_call browser.toRuntime lowered _ hlowered rfl]
    exact browser.dnsDomainIs _ _
  have hapex : (Expr.same (.name "host".toList) (.literal tld)).eval browser.toRuntime lowered =
      some (.bool (Value.string (toAsciiLowercase host) = .string tld)) :=
    Expr.eval_same browser.toRuntime lowered hlowered rfl
  have hrun : proxyFor browser ip port tld url host =
      if ('.' :: tld).isSuffixOf (toAsciiLowercase host) ||
          decide (Value.string (toAsciiLowercase host) = .string tld) then
        some (.string (gatewayProxy ip port)) else some (.string "DIRECT".toList) :=
    (runBody_assign browser.toRuntime scope _ _ hfirst).trans
      (runBody_returnWhen browser.toRuntime lowered _ _
        (Expr.eval_either browser.toRuntime lowered hdomain hapex))
  rw [hrun]
  simp only [Bool.or_eq_true, List.isSuffixOf_iff_suffix, decide_eq_true_eq, Value.string.injEq]
  split_ifs <;> rfl

end DigDns.Pac
