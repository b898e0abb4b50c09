import DigDns.Gateway
import DigDns.Host.Canonical

/-!
# A final dot and a port

`parse_dig_host` drops a final dot and then cuts at the first colon.  Each of the two
is tolerated alone; with both the dot stays, and the name is no longer under the TLD.
-/

namespace DigDns

open Rust

variable {codecs : Codecs} {host port tld : Str}

/-- The ways to write a host with and without a final dot and a port. -/
def authorities (host port : Str) : List Str :=
  [host, host ++ ['.'], host ++ ':' :: port, host ++ '.' :: ':' :: port]

/-- `<store>.<tld>` or `<root>.<store>.<tld>` in any case. -/
def IsStoreHost (codecs : Codecs) (tld host : Str) : Prop :=
  (∃ store, eqIgnoreAsciiCase host (latestName codecs store tld) = true) ∨
    ∃ store root, eqIgnoreAsciiCase host (pinnedName codecs store root tld) = true

/-- The parser and the gateway make the same of all of them. -/
structure ToleratesDotAndPort (codecs : Codecs) (tld host port : Str) : Prop where
  parsed : ∃ target, ∀ h ∈ authorities host port, parseDigHost codecs h tld = .ok target
  classified : ∀ path, ∀ h ∈ authorities host port,
    classify codecs ⟨none, none, path⟩ (some h) tld =
      classify codecs ⟨none, none, path⟩ (some host) tld

/-! ## One at a time -/

theorem hostName_concat_dot (hhost : IsName host) : hostName (host ++ ['.']) = host := by
  have hname : IsName (host ++ ['.']) := hhost.append IsName.nil.dot_cons
  have hstrip : stripSuffix ['.'] (host ++ ['.']) = some host := by
    rw [stripSuffix, if_pos (List.isSuffixOf_iff_suffix.mpr (List.suffix_append _ _)),
      List.length_append, Nat.add_sub_cancel, List.take_left]
  rw [hostName, hname.trim_eq, hstrip, Option.getD_some, hhost.splitNext_eq]

/-- Only what stands before the port is looked at, a final dot included. -/
theorem hostName_append_port (hhost : IsName host) (hport : ∀ c ∈ port, c.isDigit = true) :
    hostName (host ++ ':' :: port) = host := by
  have hdigits : ∀ {P : Char → Prop}, (∀ c ∈ "0123456789".toList, P c) → P ':' →
      ∀ c ∈ ':' :: port, P c := fun hP hcolon =>
    List.forall_mem_cons.mpr ⟨hcolon, fun c hc => forall_digit hP (hport c hc)⟩
  have htrim : trim (host ++ ':' :: port) = host ++ ':' :: port := by
    apply trim_of_no_whitespace
    refine List.forall_mem_append.mpr ⟨fun c hc => hhost.not_whitespace hc, ?_⟩
    exact hdigits (by decide) (by decide)
  have hstrip : stripSuffix ['.'] (host ++ ':' :: port) = none := by
    rw [stripSuffix, if_neg]
    rw [List.isSuffixOf_iff_suffix]
    rintro ⟨s, hs⟩
    have hlast := congrArg List.getLast? hs
    rw [List.getLast?_concat, List.getLast?_append_of_ne_nil _ (List.cons_ne_nil _ _)] at hlast
    have hdot := hdigits (P := fun c => c ≠ '.') (by decide) (by decide)
    exact hdot '.' (List.mem_of_getLast? hlast.symm) rfl
  rw [hostName, htrim, hstrip, Option.getD_none, splitNext,
    List.splitOn_append_cons_self_of_not_mem hhost.colon_not_mem]
  rfl

theorem parseDigHost_congr {h : Str} (hname : hostName h = hostName host) :
    parseDigHost codecs h tld = parseDigHost codecs host tld := by
  rw [parseDigHost_eq, parseDigHost_eq, hname]

/-- Hosts that the parser takes for one are one to the gateway. -/
theorem classify_congr {h : Str}
    (hparse : parseDigHost codecs h tld = parseDigHost codecs host tld) (path : Str) :
    classify codecs ⟨none, none, path⟩ (some h) tld =
      classify codecs ⟨none, none, path⟩ (some host) tld := by
  have hdirect : (Uri.mk none none path).isProxy = false := rfl
  have hhost : ∀ h : Str, effectiveHost ⟨none, none, path⟩ (some h) = some h := fun _ => rfl
  simp only [classify, hdirect, hhost, Bool.false_and, Bool.false_eq_true, if_false, hparse]

/-! ## Both -/

/-- A name with a final dot is under no TLD. -/
theorem parseDigHost_of_hostName_dot (htld : isSafeTld tld = true) {h : Str}
    (hname : hostName h = host ++ ['.']) : parseDigHost codecs h tld = .error (.notDigTld tld) := by
  have hlower : toAsciiLowercase (hostName h) = toAsciiLowercase host ++ ['.'] := by
    rw [hname, toAsciiLowercase_append]
    rfl
  have hdot := dot_not_mem_of_isSafeTld htld
  have hapex : toAsciiLowercase (hostName h) ≠ tld := by
    rw [hlower]
    rintro rfl
    exact hdot (by simp)
  have hsuffix : ('.' :: tld).isSuffixOf (toAsciiLowercase (hostName h)) = false := by
    rw [hlower, Bool.eq_false_iff, Ne, List.isSuffixOf_iff_suffix]
    rintro ⟨s, hs⟩
    have hlast := congrArg List.getLast? hs
    rw [List.getLast?_concat, List.append_cons, List.getLast?_append_of_ne_nil _
      (ne_nil_of_isSafeTld htld)] at hlast
    exact hdot (List.mem_of_getLast? hlast)
  rw [parseDigHost_eq, toAsciiLowercase_of_isSafeTld htld, if_neg hapex, hsuffix]
  rfl

section StoreHost

variable (hbase32 : codecs.StrictBase32) (htld : isSafeTld tld = true)
  (hhost : IsStoreHost codecs tld host)
include hbase32 htld hhost

theorem isName_of_isStoreHost : IsName host := by
  have hlabel := isName_storeBytesToLabel hbase32
  have hlatest : ∀ store, IsName (latestName codecs store tld) := fun store =>
    (hlabel store).append (isName_of_isSafeTld htld).dot_cons
  apply IsName.of_lower
  rcases hhost with ⟨store, hstore⟩ | ⟨store, root, hroot⟩
  · rw [eqIgnoreAsciiCase_iff.mp hstore, toAsciiLowercase_latestName hbase32 htld]
    exact hlatest store
  · rw [eqIgnoreAsciiCase_iff.mp hroot, toAsciiLowercase_pinnedName hbase32 htld]
    exact (hlabel root).append (hlatest store).dot_cons

/-- A host of a store names a target as it stands. -/
theorem parseDigHost_of_isStoreHost (hhex : codecs.DocumentedHex) :
    hostName host = host ∧ ∃ target, parseDigHost codecs host tld = .ok target := by
  rcases hhost with ⟨store, hstore⟩ | ⟨store, root, hroot⟩
  · rw [eqIgnoreAsciiCase_iff, toAsciiLowercase_latestName hbase32 htld] at hstore
    have hname := hostName_eq_self_of_latest hbase32 htld hstore
    refine ⟨hname, _, (parseDigHost_eq_ok_iff_form hbase32 hhex htld).mpr
      (Or.inl ⟨store, ?_, rfl⟩)⟩
    rw [hname, hstore]
  · rw [eqIgnoreAsciiCase_iff, toAsciiLowercase_pinnedName hbase32 htld] at hroot
    have hname := hostName_eq_self_of_pinned hbase32 htld hroot
    refine ⟨hname, _, (parseDigHost_eq_ok_iff_form hbase32 hhex htld).mpr
      (Or.inr ⟨store, root, ?_, rfl⟩)⟩
    rw [hname, hroot]

end StoreHost

/-- With a dot and a port the parser refuses every name. -/
theorem parseDigHost_dot_port (htld : isSafeTld tld = true) (hhost : IsName host)
    (hport : ∀ c ∈ port, c.isDigit = true) :
    parseDigHost codecs (host ++ '.' :: ':' :: port) tld = .error (.notDigTld tld) := by
  have hname := hostName_append_port (hhost.append IsName.nil.dot_cons) hport
  rw [List.append_assoc, List.singleton_append] at hname
  exact parseDigHost_of_hostName_dot htld hname

theorem not_toleratesDotAndPort (htld : isSafeTld tld = true) (hhost : IsName host)
    (hport : ∀ c ∈ port, c.isDigit = true) : ¬ ToleratesDotAndPort codecs tld host port := by
  intro h
  obtain ⟨target, htarget⟩ := h.parsed
  have hboth := htarget (host ++ '.' :: ':' :: port) (by simp [authorities])
  rw [parseDigHost_dot_port htld hhost hport] at hboth
  cases hboth

/-- A final dot and a port are tolerated one at a time, and never together. -/
theorem parseDigHost_dotAndPort (hbase32 : codecs.StrictBase32) (hhex : codecs.DocumentedHex)
    (htld : isSafeTld tld = true) (hhost : IsStoreHost codecs tld host)
    (hport : ∀ c ∈ port, c.isDigit = true) :
    ¬ ToleratesDotAndPort codecs tld host port ∧
      (∃ target, ∀ h ∈ [host, host ++ ['.'], host ++ ':' :: port],
        parseDigHost codecs h tld = .ok target ∧
          ∀ path, classify codecs ⟨none, none, path⟩ (some h) tld =
            classify codecs ⟨none, none, path⟩ (some host) tld) ∧
      parseDigHost codecs (host ++ '.' :: ':' :: port) tld = .error (.notDigTld tld) := by
  have hname := isName_of_isStoreHost hbase32 htld hhost
  obtain ⟨hself, target, htarget⟩ := parseDigHost_of_isStoreHost hbase32 htld hhost hhex
  refine ⟨not_toleratesDotAndPort htld hname hport, ⟨target, fun h hh => ?_⟩,
    parseDigHost_dot_port htld hname hport⟩
  have hparse : parseDigHost codecs h tld = parseDigHost codecs host tld := by
    apply parseDigHost_congr
    rw [hself]
    simp only [List.mem_cons, List.not_mem_nil, or_false] at hh
    rcases hh with rfl | rfl | rfl
    · exact hself
    · exact hostName_concat_dot hname
    · exact hostName_append_port hname hport
  exact ⟨hparse.trans htarget, classify_congr hparse⟩

/-- A host of the store that is thirty-two bytes of 17. -/
theorem isStoreHost_seventeens : IsStoreHost .reference "dig".toList
    (latestName .reference ⟨List.replicate 32 17, rfl⟩ "dig".toList) :=
  Or.inl ⟨_, eqIgnoreAsciiCase_iff.mpr rfl⟩

/-- It is refused on the fallback port. -/
theorem parseDigHost_dotAndPort_fallback :
    parseDigHost .reference
      (latestName .reference ⟨List.replicate 32 17, rfl⟩ "dig".toList ++ ".:8053".toList)
      "dig".toList = .error (.notDigTld "dig".toList) :=
  (parseDigHost_dotAndPort Codecs.reference_strictBase32
    Codecs.reference_documentedHex (by decide) isStoreHost_seventeens (by decide)).2.2

/-- So not all hosts and ports are tolerated. -/
theorem not_toleratesDotAndPort_fallback :
    ¬ ∀ host, IsStoreHost .reference "dig".toList host → ∀ port, (∀ c ∈ port, c.isDigit = true) →
      ToleratesDotAndPort .reference "dig".toList host port := by
  intro h
  have hname := isName_of_isStoreHost Codecs.reference_strictBase32 (by decide)
    isStoreHost_seventeens
  exact not_toleratesDotAndPort (by decide) hname (by decide)
    (h _ isStoreHost_seventeens "8053".toList (by decide))

end DigDns
