import DigDns.Dns.RoundTrip
import DigDns.Gateway.OverHttp
import DigDns.Host.Agreement
import DigDns.Host.DotAndPort

/-!
# The two paths to the gateway

A page is reached on path A when the operating system asks the responder for the address
of its name and the browser connects to the port of the URL there; on path B the PAC file
makes the gateway a proxy, which is asked for the whole URL.  Where the gateway holds the
port of the URL both paths lead to the same run of the gateway, and no path leads to it
from a name that is not under the TLD.
-/

namespace DigDns

open Rust Interaction

/-- An `http` URL: its labels, the port that it names or implies, and its path. -/
structure PageUrl where
  labels : List Str
  port : UInt16
  path : Str

namespace PageUrl

def name (url : PageUrl) : Str := dotted url.labels

/-- What a browser sends as the `Host` header: without the port where it is implied. -/
def host (url : PageUrl) : Str :=
  if url.port = 80 then url.name else url.name ++ ':' :: fmtNat url.port.toNat

def text (url : PageUrl) : Str := "http://".toList ++ url.host ++ url.path

/-- A name that a resolver can be asked for. -/
structure IsWellFormed (url : PageUrl) : Prop where
  nonempty : url.labels ≠ []
  ldh : ∀ l ∈ url.labels, IsLdhLabel l
  short : ∀ l ∈ url.labels, l.length ≤ 63
  query : (Dns.buildAQuery url.name).length ≤ 484

end PageUrl

/-! ## The paths -/

section Paths

variable (crates : Crates) (ctx : Ctx)

/-- Path A: the responder gives an address, and the browser connects to the port of the URL
at that address. -/
def pathA (transport : Dns.Transport) (method : Str) (range : Option Str) (url : PageUrl) :
    Option (NodeProg GatewayResponse) :=
  let cfg := ctx.config
  let response :=
    if ctx.dnsActive then
      Dns.respond (Dns.buildAQuery url.name) cfg.loopbackIp cfg.tld cfg.dnsTtlSecs transport
    else none
  (response.bind Dns.parseFirstAIpv4).bind fun ip =>
    if ip = cfg.loopbackIp ∧ url.port = ctx.boundPort then
      some (handle crates ctx method ⟨none, none, url.path⟩ (some url.host) range)
    else none

/-- Path B: the function of the PAC file names the gateway, which is asked as a proxy. -/
def pathB (browser : Pac.Browser) (method : Str) (range : Option Str) (url : PageUrl) :
    Option (NodeProg GatewayResponse) :=
  let cfg := ctx.config
  if Pac.proxyFor browser cfg.loopbackIp ctx.boundPort cfg.tld url.text url.name =
      some (.string (Pac.gatewayProxy cfg.loopbackIp ctx.boundPort)) then
    some (handle crates ctx method ⟨some "http".toList, some url.name, url.path⟩ (some url.host)
      range)
  else none

end Paths

variable {crates : Crates} {ctx : Ctx} {url : PageUrl} {tld : Str}

/-! ## The responder -/

theorem splitOn_name (hurl : url.IsWellFormed) : url.name.splitOn '.' = url.labels :=
  List.splitOn_intercalate '.' (fun l hl => dot_not_mem_of_isLdhLabel (hurl.ldh l hl))
    hurl.nonempty

theorem shortLabel_of_isWellFormed (hurl : url.IsWellFormed) :
    ∀ l ∈ url.name.splitOn '.', Dns.ShortLabel l := by
  rw [splitOn_name hurl]
  intro l hl
  have hldh := hurl.ldh l hl
  refine ⟨List.length_pos_of_ne_nil hldh.1, hurl.short l hl, fun c hc => ?_⟩
  have hname : IsName l := fun c hc => .inl (hldh.2 c hc)
  have hrange := hname.toNat_cases hc
  omega

/-- The responder gives its address for the names under the TLD. -/
theorem respond_name (hurl : url.IsWellFormed) (htld : isSafeTld tld = true) (ip : Ipv4Addr)
    (ttl : UInt32) (transport : Dns.Transport) :
    (Dns.respond (Dns.buildAQuery url.name) ip tld ttl transport).bind Dns.parseFirstAIpv4 =
      if EndsWithTld url.name tld then some ip else none := by
  have hshort := shortLabel_of_isWellFormed hurl
  have hrespond := Dns.respond_question Dns.queryHeader ip tld ttl transport
    (Dns.questionFor url.name hshort) [] (by decide)
  rw [← Dns.buildAQuery_eq hshort, show Dns.foundOpt Dns.queryHeader [] = none from rfl,
    Dns.isCut_questionFor hshort hurl.query] at hrespond
  have hunder : Dns.isUnderTld (Dns.questionFor url.name hshort) tld = true ↔
      EndsWithTld url.name tld := by
    rw [Dns.isUnderTld_questionFor hshort, splitOn_name hurl, PageUrl.name,
      endsWithTld_dotted_iff htld hurl.nonempty hurl.ldh, Option.map_eq_some_iff]
    simp only [eqIgnoreAsciiCase_iff, toAsciiLowercase_of_isSafeTld htld]
  rw [hrespond, Option.bind_some, Dns.parseFirstAIpv4_replyTo]
  by_cases hend : EndsWithTld url.name tld
  · rw [if_pos hend, if_pos ⟨hunder.mpr hend, rfl, rfl⟩]
  · rw [if_neg hend, if_neg fun h => hend (hunder.mp h.1)]

/-! ## The gateway -/

theorem getLast?_name (hurl : url.IsWellFormed) : url.name.getLast? ≠ some '.' := by
  obtain ⟨front, l, hlabels⟩ := (List.eq_nil_or_concat' url.labels).resolve_left hurl.nonempty
  have hl : IsLdhLabel l := hurl.ldh l (by simp [hlabels])
  obtain ⟨x, hx⟩ := suffix_dotted_concat front l
  intro hlast
  refine dot_not_mem_of_isLdhLabel hl (List.mem_of_getLast? ?_)
  rw [← List.getLast?_append_of_ne_nil x hl.1, hx, ← hlabels]
  exact hlast

/-- The parser drops the port of a `Host` header. -/
theorem parseDigHost_host (codecs : Codecs) (hurl : url.IsWellFormed) :
    parseDigHost codecs url.host tld = parseDigHost codecs url.name tld := by
  have hname : IsName url.name := isName_dotted hurl.ldh
  have hplain : hostName url.name = url.name := by
    have hstrip : stripSuffix ['.'] url.name = none := by
      rw [stripSuffix, if_neg]
      rw [List.isSuffixOf_iff_suffix, List.singleton_suffix_iff_getLast?_eq_some]
      exact getLast?_name hurl
    rw [hostName, hname.trim_eq, hstrip, Option.getD_none, hname.splitNext_eq]
  rw [PageUrl.host]
  split_ifs with hport
  · rfl
  · apply parseDigHost_congr
    rw [hplain]
    exact hostName_append_port hname fun c hc => isDigit_of_mem_fmtNat hc

/-- Under the TLD the gateway reads the request of a proxy as that of a server. -/
theorem handle_proxied (hurl : url.IsWellFormed) (htld : isSafeTld ctx.config.tld = true)
    (hend : EndsWithTld url.name ctx.config.tld) (method : Str) (range : Option Str) :
    handle crates ctx method ⟨some "http".toList, some url.name, url.path⟩ (some url.host) range =
      handle crates ctx method ⟨none, none, url.path⟩ (some url.host) range := by
  have hunder : hostIsUnderTld url.name ctx.config.tld = true :=
    (hostIsUnderTld_dotted_iff htld hurl.nonempty hurl.ldh).mpr hend
  have hclassify : classify crates.codecs ⟨some "http".toList, some url.name, url.path⟩
      (some url.host) ctx.config.tld =
        classify crates.codecs ⟨none, none, url.path⟩ (some url.host) ctx.config.tld := by
    have hproxied : (Uri.mk (some "http".toList) (some url.name) url.path).isProxy = true ∧
        effectiveHost ⟨some "http".toList, some url.name, url.path⟩ (some url.host) =
          some url.name := ⟨rfl, rfl⟩
    have hdirect : (Uri.mk none none url.path).isProxy = false ∧
        effectiveHost ⟨none, none, url.path⟩ (some url.host) = some url.host := ⟨rfl, rfl⟩
    simp only [classify, hproxied, hdirect, Option.any_some, hunder, parseDigHost_host _ hurl,
      Bool.not_true, Bool.and_false, Bool.false_and, Bool.false_eq_true, if_false]
  simp only [handle, hclassify]

/-! ## Both paths -/

theorem pathA_eq (htld : isSafeTld ctx.config.tld = true) (hdns : ctx.dnsActive = true)
    (hurl : url.IsWellFormed) (transport : Dns.Transport) (method : Str) (range : Option Str) :
    pathA crates ctx transport method range url =
      if EndsWithTld url.name ctx.config.tld then
        if url.port = ctx.boundPort then
          some (handle crates ctx method ⟨none, none, url.path⟩ (some url.host) range)
        else none
      else none := by
  have hrespond := respond_name hurl htld ctx.config.loopbackIp ctx.config.dnsTtlSecs transport
  rw [pathA, if_pos hdns, hrespond]
  split_ifs with hend hport
  · exact if_pos ⟨rfl, hport⟩
  · exact if_neg fun h => hport h.2
  · rfl

theorem pathB_eq (htld : isSafeTld ctx.config.tld = true) (hurl : url.IsWellFormed)
    (browser : Pac.Browser) (method : Str) (range : Option Str) :
    pathB crates ctx browser method range url =
      if EndsWithTld url.name ctx.config.tld then
        some (handle crates ctx method ⟨none, none, url.path⟩ (some url.host) range)
      else none := by
  have hproxy : Pac.proxyFor browser ctx.config.loopbackIp ctx.boundPort ctx.config.tld url.text
      url.name = some (.string (Pac.gatewayProxy ctx.config.loopbackIp ctx.boundPort)) ↔
        EndsWithTld url.name ctx.config.tld :=
    proxyFor_eq_gateway_iff browser ctx.config.loopbackIp ctx.boundPort url.text hurl.ldh
  rw [pathB]
  by_cases hend : EndsWithTld url.name ctx.config.tld
  · rw [if_pos hend, if_pos (hproxy.mpr hend), handle_proxied hurl htld hend]
  · rw [if_neg hend, if_neg (mt hproxy.mp hend)]

/-- On path A and on path B a URL leads to the same run of the gateway, if it names the port
that the gateway holds; with another port only path B leads to it, and from a name that is
not under the TLD neither does. -/
theorem paths_agree (hvalid : ctx.config.Valid) (hdns : ctx.dnsActive = true)
    (hurl : url.IsWellFormed) (transport : Dns.Transport) (browser : Pac.Browser) (method : Str)
    (range : Option Str) :
    pathA crates ctx transport method range url =
        (if url.port = ctx.boundPort then pathB crates ctx browser method range url else none) ∧
      ((pathB crates ctx browser method range url).isSome = true ↔
        EndsWithTld url.name ctx.config.tld) := by
  rw [pathA_eq hvalid.tld hdns hurl, pathB_eq hvalid.tld hurl]
  constructor
  · split_ifs with hend hport <;> rfl
  · split_ifs with hend
    · exact iff_of_true rfl hend
    · exact iff_of_false Bool.false_ne_true hend

theorem sampleCtx_valid : sampleCtx.config.Valid :=
  (Config.validate_eq_ok_iff _).mp (by decide)

/-- The page `/` of `App.DIG` on the port of the sample gateway. -/
def appUrl : PageUrl := ⟨["App".toList, "DIG".toList], 80, "/".toList⟩

theorem isWellFormed_appUrl : appUrl.IsWellFormed where
  nonempty := List.cons_ne_nil _ _
  ldh l hl := by
    rcases List.mem_pair.mp hl with rfl | rfl
    · exact ⟨by decide, by decide⟩
    · exact ⟨by decide, by decide⟩
  short := by decide
  query := by decide

theorem paths_agree_app :
    pathA sampleCrates sampleCtx .tcp "GET".toList none appUrl =
        (if appUrl.port = sampleCtx.boundPort then
          pathB sampleCrates sampleCtx .standard "GET".toList none appUrl else none) ∧
      ((pathB sampleCrates sampleCtx .standard "GET".toList none appUrl).isSome = true ↔
        EndsWithTld appUrl.name sampleCtx.config.tld) :=
  paths_agree sampleCtx_valid rfl isWellFormed_appUrl .tcp .standard "GET".toList none

/-! ## A page of a hosted site -/

section Hosted

variable {codecs : Codecs} {store root : Bytes32}

/-- The labels of a store, or of one root of it. -/
def siteLabels (codecs : Codecs) (tld : Str) (store root : Bytes32) (pinned : Bool) : List Str :=
  let labels := [storeBytesToLabel codecs store, tld]
  if pinned then storeBytesToLabel codecs root :: labels else labels

theorem mem_siteLabels {l : Str} {pinned : Bool} (hl : l ∈ siteLabels codecs tld store root pinned) :
    l = tld ∨ ∃ id, l = storeBytesToLabel codecs id := by
  cases pinned with
  | false =>
      rcases List.mem_pair.mp hl with rfl | rfl
      · exact Or.inr ⟨store, rfl⟩
      · exact Or.inl rfl
  | true =>
      rcases List.mem_cons.mp hl with rfl | hl
      · exact Or.inr ⟨root, rfl⟩
      · rcases List.mem_pair.mp hl with rfl | rfl
        · exact Or.inr ⟨store, rfl⟩
        · exact Or.inl rfl

theorem dotted_siteLabels (pinned : Bool) : dotted (siteLabels codecs tld store root pinned) =
    if pinned then pinnedName codecs store root tld else latestName codecs store tld := by
  have hlatest : dotted [storeBytesToLabel codecs store, tld] = latestName codecs store tld := by
    rw [dotted_cons _ (List.cons_ne_nil _ _), dotted_singleton]
    rfl
  cases pinned with
  | false => exact hlatest
  | true =>
      have hcons : dotted (siteLabels codecs tld store root true) = _ :=
        dotted_cons (storeBytesToLabel codecs root) (List.cons_ne_nil _ _)
      rw [hcons, hlatest]
      rfl

/-- The parser takes the name of a site. -/
theorem parseDigHost_siteLabels (hbase32 : codecs.StrictBase32) (hhex : codecs.DocumentedHex)
    (htld : isSafeTld tld = true) (pinned : Bool) :
    parseDigHost codecs (dotted (siteLabels codecs tld store root pinned)) tld =
      .ok (siteTarget (Hex.hexEncode store.bytes) (Hex.hexEncode root.bytes) pinned) := by
  rw [dotted_siteLabels, parseDigHost_eq_ok_iff_form hbase32 hhex htld]
  cases pinned with
  | false =>
      have hlower := toAsciiLowercase_latestName hbase32 htld store
      refine Or.inl ⟨store, ?_, rfl⟩
      have hname := hostName_eq_self_of_latest hbase32 htld hlower
      exact (congrArg toAsciiLowercase hname).trans hlower
  | true =>
      have hlower := toAsciiLowercase_pinnedName hbase32 htld store root
      refine Or.inr ⟨store, root, ?_, rfl⟩
      have hname := hostName_eq_self_of_pinned hbase32 htld hlower
      exact (congrArg toAsciiLowercase hname).trans hlower

theorem isWellFormed_siteLabels (hbase32 : codecs.StrictBase32) (htld : isSafeTld tld = true)
    (hlen : tld.length ≤ 63) (pinned : Bool) (port : UInt16) (path : Str) :
    (PageUrl.mk (siteLabels codecs tld store root pinned) port path).IsWellFormed := by
  have hne : siteLabels codecs tld store root pinned ≠ [] := by
    cases pinned <;> exact List.cons_ne_nil _ _
  have hshort : ∀ l ∈ siteLabels codecs tld store root pinned, l.length ≤ 63 := by
    intro l hl
    rcases mem_siteLabels hl with rfl | ⟨id, rfl⟩
    · exact hlen
    · rw [length_storeBytesToLabel hbase32]
      decide
  have hldh : ∀ l ∈ siteLabels codecs tld store root pinned, IsLdhLabel l := by
    intro l hl
    rcases mem_siteLabels hl with rfl | ⟨id, rfl⟩
    · exact ⟨ne_nil_of_isSafeTld htld, forall_mem_of_isSafeTld htld (by decide)⟩
    · have hfull : (storeBytesToLabel codecs id).length = labelLen :=
        length_storeBytesToLabel hbase32 id
      refine ⟨fun hnil => ?_, fun c hc => isLdh_iff.mpr ?_⟩
      · rw [hnil] at hfull
        cases hfull
      · have hrange := range_of_mem_storeBytesToLabel hbase32 hc
        omega
  have hquery := Dns.length_buildAQuery_le (dotted (siteLabels codecs tld store root pinned))
  rw [show (dotted (siteLabels codecs tld store root pinned)).splitOn '.' = _ from
    List.splitOn_intercalate '.' (fun l hl => dot_not_mem_of_isLdhLabel (hldh l hl)) hne] at hquery
  have hcount : (siteLabels codecs tld store root pinned).length ≤ 3 := by
    cases pinned with
    | false => exact Nat.le_succ 2
    | true => exact Nat.le_refl 3
  have hle : (Dns.buildAQuery (dotted (siteLabels codecs tld store root pinned))).length ≤ 484 := by
    omega
  exact ⟨hne, hldh, hshort, hle⟩

/-- A request to such a host is for the site. -/
theorem classify_of_parseDigHost {host path : Str} {target : HostTarget}
    (hpath : controlEndpointFor path = none) (hparse : parseDigHost codecs host tld = .ok target) :
    classify codecs ⟨none, none, path⟩ (some host) tld = .store target path := by
  have hdirect : (Uri.mk none none path).isProxy = false ∧
      effectiveHost ⟨none, none, path⟩ (some host) = some host := ⟨rfl, rfl⟩
  simp only [classify, hdirect, hpath, hparse, Bool.false_and, Bool.false_eq_true, if_false]

/-- A visit to the page of a site that a node on the network hosts: through the PAC file, and
through the responder where the URL names the port of the gateway, the browser gets what was
published. -/
theorem visit_hosted {site : Site} {base : Str} {network : HttpBehaviour}
    {p : Publisher crates (Hex.hexEncode store.bytes) (Hex.hexEncode root.bytes) site}
    (h : Hosts p base network) (hbase32 : crates.codecs.StrictBase32)
    (hhex : crates.codecs.DocumentedHex) (hvalid : ctx.config.Valid)
    (hlen : ctx.config.tld.length ≤ 63) (hdns : ctx.dnsActive = true)
    (transport : Dns.Transport) (browser : Pac.Browser) {method : Str}
    (hread : isRead method = true) (range : Option Str) {path key : Str}
    (hpath : controlEndpointFor path = none) (hkey : resourceKeyForPath crates path = .ok key)
    (pinned : Bool) (port : UInt16) (history : List HttpEvent) :
    let url : PageUrl := ⟨siteLabels crates.codecs ctx.config.tld store root pinned, port, path⟩
    ∃ run, pathB crates ctx browser method range url = some run ∧
      (port = ctx.boundPort → pathA crates ctx transport method range url = some run) ∧
      ((run.interpret (ReqwestNodeClient.asNodeClient crates.codecs base)).runFrom network
        history).2 = site.respond key path range pinned := by
  intro url
  have hurl : url.IsWellFormed := isWellFormed_siteLabels hbase32 hvalid.tld hlen pinned port path
  have hend : EndsWithTld url.name ctx.config.tld := by
    rw [PageUrl.name, endsWithTld_dotted_iff hvalid.tld hurl.nonempty hurl.ldh]
    have hlast : (siteLabels crates.codecs ctx.config.tld store root pinned).getLast? =
        some ctx.config.tld := by
      cases pinned <;> rfl
    rw [hlast, Option.map_some, toAsciiLowercase_of_isSafeTld hvalid.tld]
  have hparse : parseDigHost crates.codecs url.host ctx.config.tld = _ :=
    (parseDigHost_host crates.codecs hurl).trans
      (parseDigHost_siteLabels hbase32 hhex hvalid.tld pinned)
  have hclass := classify_of_parseDigHost hpath hparse
  refine ⟨_, by rw [pathB_eq hvalid.tld hurl, if_pos hend], fun hport => ?_, ?_⟩
  · rw [pathA_eq hvalid.tld hdns hurl, if_pos hend, if_pos hport]
  · exact h.eq_respond ctx method _ _ range hread hclass hkey history

/-- `GET http://<root>.<store>.dig/a` for root `7` of store `17`, through the terminal base. -/
theorem visit_hosted_sample :
    let url : PageUrl := ⟨siteLabels Codecs.reference "dig".toList (fill 17) (fill 7) true, 80,
      "/a".toList⟩
    ∃ run, pathB sampleCrates sampleCtx .standard "GET".toList none url = some run ∧
      ((80 : UInt16) = sampleCtx.boundPort →
        pathA sampleCrates sampleCtx .udp "GET".toList none url = some run) ∧
      ((run.interpret (ReqwestNodeClient.asNodeClient sampleCrates.codecs rpcDigNetBase)).runFrom
        sampleNetwork ([] : List HttpEvent)).2 =
          sampleSite.respond "a".toList "/a".toList none true :=
  visit_hosted (hosts_sampleNetwork rpcDigNetBase) Codecs.reference_strictBase32
    Codecs.reference_documentedHex sampleCtx_valid (by decide) rfl .udp .standard (by decide) none
    (by decide) (by decide) true 80 []

end Hosted

end DigDns
