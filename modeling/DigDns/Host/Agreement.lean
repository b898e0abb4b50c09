import DigDns.Dns
import DigDns.Gateway
import DigDns.Host.Canonical
import DigDns.Pac.Reading

/-!
# What is under the TLD

The resolver looks at the last label of a question, the PAC file at the end of a host,
and the gateway at the end of a host without its final dots and its port.  On names they
come to the same, and the gateway's test passes every host that its parser accepts.
-/

namespace DigDns

open Rust

/-- A label of letters, digits and hyphens. -/
def IsLdhLabel (label : Str) : Prop := label ≠ [] ∧ ∀ c ∈ label, isLdh c = true

variable {host label tld : Str} {labels : List Str}

theorem dot_not_mem_of_isLdhLabel (h : IsLdhLabel label) : '.' ∉ label :=
  fun hmem => absurd (h.2 '.' hmem) (by decide)

theorem isName_dotted (hlabels : ∀ l ∈ labels, IsLdhLabel l) : IsName (dotted labels) := by
  induction labels with
  | nil => exact IsName.nil
  | cons l labels ih =>
      obtain ⟨hl, hrest⟩ := List.forall_mem_cons.mp hlabels
      have hname : IsName l := fun c hc => .inl (hl.2 c hc)
      by_cases hnil : labels = []
      · rw [hnil, dotted_singleton]
        exact hname
      · rw [dotted_cons l hnil]
        exact hname.append (ih hrest).dot_cons

/-- The lower-cased name ends with the TLD behind a dot, or is the TLD. -/
def EndsWithTld (host tld : Str) : Prop :=
  ('.' :: tld) <:+ toAsciiLowercase host ∨ toAsciiLowercase host = tld

instance : Decidable (EndsWithTld host tld) := inferInstanceAs (Decidable (_ ∨ _))

/-- That is a matter of the last label. -/
theorem endsWithTld_dotted_iff (htld : isSafeTld tld = true) (hne : labels ≠ [])
    (hlabels : ∀ l ∈ labels, IsLdhLabel l) :
    EndsWithTld (dotted labels) tld ↔ (labels.getLast?.map toAsciiLowercase) = some tld := by
  have hdots : ∀ l ∈ labels.map toAsciiLowercase, '.' ∉ l := by
    intro l hl hmem
    obtain ⟨m, hm, rfl⟩ := List.mem_map.mp hl
    exact dot_not_mem_of_isLdhLabel (hlabels m hm) (dot_mem_toAsciiLowercase.mp hmem)
  rw [EndsWithTld, toAsciiLowercase_dotted, dot_suffix_dotted_iff (by simpa using hne) hdots
    (dot_not_mem_of_isSafeTld htld), List.getLast?_map]

/-! ## The three tests -/

/-- The resolver. -/
theorem decideAnswer_ne_refused_iff (htld : isSafeTld tld = true) (qtype : UInt16) :
    Dns.decideAnswer (labels.map utf8) qtype tld ≠ .refused ↔
      labels.getLast?.map toAsciiLowercase = some tld := by
  have hunder : (((labels.map utf8).getLast?).map
      fun l => bytesEqIgnoreAsciiCase l (utf8 tld)).getD false = true ↔
        labels.getLast?.map toAsciiLowercase = some tld := by
    rw [List.getLast?_map]
    cases labels.getLast? with
    | none => exact iff_of_false nofun nofun
    | some l =>
        refine bytesEqIgnoreAsciiCase_utf8.trans ?_
        rw [toAsciiLowercase_of_isSafeTld htld, Option.map_some, Option.some.injEq]
  rw [← hunder, Dns.decideAnswer]
  by_cases h : (((labels.map utf8).getLast?).map
      fun l => bytesEqIgnoreAsciiCase l (utf8 tld)).getD false = true
  · rw [h]
    by_cases hq : qtype = Dns.typeA <;> simp [hq]
  · rw [Bool.not_eq_true] at h
    rw [h]
    simp

/-- The PAC file. -/
theorem proxyFor_eq_gateway_iff (browser : Pac.Browser) (ip : Ipv4Addr) (port : UInt16)
    (url : Str) (hlabels : ∀ l ∈ labels, IsLdhLabel l) :
    Pac.proxyFor browser ip port tld url (dotted labels) =
        some (.string (Pac.gatewayProxy ip port)) ↔ EndsWithTld (dotted labels) tld := by
  have hascii : ∀ c ∈ dotted labels, c.toNat < 128 := by
    intro c hc
    have hrange := (isName_dotted hlabels).toNat_cases hc
    omega
  have hdirect : "DIRECT".toList ≠ Pac.gatewayProxy ip port := by
    intro heq
    have hhead := congrArg List.head? heq
    cases hhead
  rw [Pac.proxyFor_eq ip port browser tld url hascii, Option.some.injEq,
    Script.Value.string.injEq]
  change (if EndsWithTld (dotted labels) tld then _ else _) = _ ↔ _
  split_ifs with h
  · exact iff_of_true rfl h
  · exact iff_of_false hdirect h

/-- The gateway. -/
theorem hostIsUnderTld_dotted_iff (htld : isSafeTld tld = true) (hne : labels ≠ [])
    (hlabels : ∀ l ∈ labels, IsLdhLabel l) :
    hostIsUnderTld (dotted labels) tld = true ↔ EndsWithTld (dotted labels) tld := by
  have hname := isName_dotted hlabels
  have hdots : (dotted labels).rdropWhile (· = '.') = dotted labels := by
    rw [List.rdropWhile_eq_self_iff]
    intro hnil
    rw [decide_eq_true_eq]
    obtain ⟨front, l, rfl⟩ := (List.eq_nil_or_concat' labels).resolve_left hne
    have hl : IsLdhLabel l := hlabels l (by simp)
    obtain ⟨x, hx⟩ := suffix_dotted_concat front l
    intro hlast
    refine dot_not_mem_of_isLdhLabel hl (List.mem_of_getLast? ?_)
    rw [← List.getLast?_append_of_ne_nil x hl.1, hx, ← hlast]
    exact List.getLast?_eq_some_getLast hnil
  simp only [hostIsUnderTld, hname.trim_eq, hdots, hname.splitNext_eq,
    toAsciiLowercase_of_isSafeTld htld, Bool.or_eq_true, decide_eq_true_eq,
    List.isSuffixOf_iff_suffix]
  exact or_comm

/-- Every host that the parser accepts passes. -/
theorem hostIsUnderTld_of_parseDigHost {codecs : Codecs} {target : HostTarget}
    (htld : isSafeTld tld = true) (h : parseDigHost codecs host tld = .ok target) :
    hostIsUnderTld host tld = true := by
  obtain ⟨front, last, hname, hlast, -⟩ := (parseDigHost_eq_ok_iff htld).mp h
  have hdot : '.' ∉ last := by
    intro hmem
    refine dot_not_mem_of_isSafeTld htld ?_
    rw [← hlast]
    exact dot_mem_toAsciiLowercase.mpr hmem
  have hne : last ≠ [] := by
    rintro rfl
    exact ne_nil_of_isSafeTld htld hlast.symm
  have hend : (hostName host).getLast? ≠ some '.' := by
    intro heq
    rw [hname, List.append_cons, List.getLast?_append_of_ne_nil _ hne] at heq
    exact hdot (List.mem_of_getLast? heq)
  have hcut : splitNext ':' ((trim host).rdropWhile (· = '.')) = hostName host := by
    rw [← rdropWhile_stripSuffix_dot]
    exact splitNext_rdropWhile_dot hend
  have hsuffix : ('.' :: tld) <:+ toAsciiLowercase (hostName host) :=
    ⟨toAsciiLowercase front, (toAsciiLowercase_eq_append_dot_iff.mpr
      ⟨front, last, hname, rfl, hlast⟩).symm⟩
  simp only [hostIsUnderTld, hcut, toAsciiLowercase_of_isSafeTld htld, Bool.or_eq_true,
    decide_eq_true_eq, List.isSuffixOf_iff_suffix]
  exact .inr hsuffix

/-- The tests of the resolver, the PAC file and the gateway come to the same. -/
structure UnderTldLaw (codecs : Codecs) (ip : Ipv4Addr) (port : UInt16) (tld : Str) : Prop where
  /-- The PAC file is the function behind two comments. -/
  script : Pac.generate ip port tld =
    ('/' :: '/' :: Pac.routesComment tld ++ ['\n']) ++
      (('/' :: '/' :: Pac.portComment port ++ ['\n']) ++
        (Pac.findProxyForUrl ip port tld).render)
  /-- The resolver does not refuse what the PAC file sends to the gateway, and the function
  sends a host there by its end. -/
  resolver : ∀ (browser : Pac.Browser) (url : Str) (qtype : UInt16) (labels : List Str),
    labels ≠ [] → (∀ l ∈ labels, IsLdhLabel l) →
      (Dns.decideAnswer (labels.map utf8) qtype tld ≠ .refused ↔
        Pac.proxyFor browser ip port tld url (dotted labels) =
          some (.string (Pac.gatewayProxy ip port)))
  pac : ∀ (browser : Pac.Browser) (url : Str) (labels : List Str),
    labels ≠ [] → (∀ l ∈ labels, IsLdhLabel l) →
      (Pac.proxyFor browser ip port tld url (dotted labels) =
          some (.string (Pac.gatewayProxy ip port)) ↔ EndsWithTld (dotted labels) tld)
  /-- The gateway takes the hosts that the PAC file sends to it. -/
  guard : ∀ labels : List Str, labels ≠ [] → (∀ l ∈ labels, IsLdhLabel l) →
    (EndsWithTld (dotted labels) tld ↔ hostIsUnderTld (dotted labels) tld = true)
  /-- The guard rejects no host that the gateway would serve. -/
  parsed : ∀ host target, parseDigHost codecs host tld = .ok target →
    hostIsUnderTld host tld = true

/-- The tests agree for every TLD that the configuration takes. -/
theorem underTldLaw (codecs : Codecs) (ip : Ipv4Addr) (port : UInt16)
    (htld : isSafeTld tld = true) : UnderTldLaw codecs ip port tld where
  script := Pac.generate_eq ip port htld
  resolver browser url qtype labels hne hlabels := by
    rw [decideAnswer_ne_refused_iff htld, proxyFor_eq_gateway_iff browser ip port url hlabels,
      endsWithTld_dotted_iff htld hne hlabels]
  pac browser url labels _ hlabels := proxyFor_eq_gateway_iff browser ip port url hlabels
  guard labels hne hlabels := (hostIsUnderTld_dotted_iff htld hne hlabels).symm
  parsed _ _ h := hostIsUnderTld_of_parseDigHost htld h

/-- A browser gets the gateway for a name under the default TLD. -/
theorem underTldLaw_dig :
    isSafeTld "dig".toList = true ∧
      Pac.proxyFor .standard ⟨127, 0, 0, 5⟩ 80 "dig".toList [] (dotted ["App".toList, "DIG".toList])
        = some (.string (Pac.gatewayProxy ⟨127, 0, 0, 5⟩ 80)) := by
  have htld : isSafeTld "dig".toList = true := by decide
  have hlabels : ∀ l ∈ ["App".toList, "DIG".toList], IsLdhLabel l := by
    intro l hl
    rcases List.mem_pair.mp hl with rfl | rfl
    · exact ⟨nofun, by decide⟩
    · exact ⟨nofun, by decide⟩
  have hlaw := underTldLaw .reference ⟨127, 0, 0, 5⟩ 80 htld
  refine ⟨htld, ?_⟩
  rw [← hlaw.resolver .standard [] 1 _ (List.cons_ne_nil _ _) hlabels]
  decide

end DigDns
