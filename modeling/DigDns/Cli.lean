import DigDns.Host.Canonical
import DigDns.Support.Json

/-!
# The label command

`dig-dns label` of `cli.rs`: `encode` turns a store id into a host, and `decode`
reads the first label of a host as an id.  In a host of two labels the first one is
the pinned root, so there it prints the root under the name of the store.
-/

namespace DigDns

open Rust

inductive LabelAction
  | encode (storeHex : Str) (json : Bool)
  | decode (label : Str) (json : Bool)

/-- What a command prints: a line, or a JSON value. -/
inductive Output
  | text (line : Str)
  | json (value : Serde.Value)

/-- `execute`, for the command `label`. -/
def execute (codecs : Codecs) (get : Str → Option Str) : LabelAction → Except Str Output
  | .encode storeHex json => do
      let cfg ← (fromEnv get).mapError ConfigError.message
      let lbl ← (storeHexToLabel codecs storeHex).mapError LabelError.message
      let host := lbl ++ '.' :: cfg.tld
      if json then
        return .json (.object [("store_id_hex".toList, .string storeHex),
          ("label".toList, .string lbl), ("host".toList, .string host)])
      else return .text host
  | .decode host json => do
      let lbl := splitNext '.' host
      let hex ← (labelToStoreHex codecs lbl).mapError LabelError.message
      if json then
        return .json (.object [("host".toList, .string host), ("label".toList, .string lbl),
          ("store_id_hex".toList, .string hex)])
      else return .text hex

variable {codecs : Codecs} {get : Str → Option Str} {cfg : Config} {host : Str}
  {target : HostTarget}

/-! ## The first label -/

/-- What the parser drops stands behind the name. -/
theorem hostName_prefix_trim (host : Str) : hostName host <+: trim host :=
  (splitNext_prefix_self ':' _).trans (stripSuffix_getD_prefix_self _ _)

/-- The name that the parser takes and the host as it is begin with one label. -/
theorem splitNext_hostName (htrim : trim host = host) (hdot : '.' ∈ hostName host) :
    splitNext '.' host = splitNext '.' (hostName host) := by
  have hprefix := hostName_prefix_trim host
  rw [htrim] at hprefix
  obtain ⟨rest, hrest⟩ := hprefix
  obtain ⟨a, b, hname, ha⟩ := List.eq_append_cons_of_mem hdot
  have hhost : host = a ++ '.' :: (b ++ rest) := by
    refine hrest.symm.trans ?_
    rw [hname, List.append_assoc, List.cons_append]
  calc
    splitNext '.' host = a := by rw [hhost, splitNext_append_cons ha]
    _ = splitNext '.' (hostName host) := by rw [hname, splitNext_append_cons ha]

theorem execute_decode_eq_ok_iff {hex : Str} :
    execute codecs get (.decode host false) = .ok (.text hex) ↔
      labelToStoreHex codecs (splitNext '.' host) = .ok hex := by
  change ((labelToStoreHex codecs (splitNext '.' host)).mapError LabelError.message >>=
    fun hex => .ok (Output.text hex)) = _ ↔ _
  cases labelToStoreHex codecs (splitNext '.' host) with
  | error e =>
      constructor
      · intro h
        cases h
      · intro h
        cases h
  | ok id =>
      constructor
      · intro h
        cases h
        rfl
      · intro h
        cases h
        rfl

/-- Two labels in front of the last one are the same up to ASCII case. -/
def NamesOneId (host : Str) : Prop :=
  ∀ root store last, (hostName host).splitOn '.' = [root, store, last] →
    eqIgnoreAsciiCase root store = true

section Agreement

variable (hbase32 : codecs.StrictBase32) (hhex : codecs.DocumentedHex)
include hbase32 hhex

/-- Two labels name one id exactly when they are the same up to case. -/
theorem labelToStoreHex_eq_iff {l m hex hex' : Str} (hl : labelToStoreHex codecs l = .ok hex)
    (hm : labelToStoreHex codecs m = .ok hex') :
    hex = hex' ↔ eqIgnoreAsciiCase l m = true := by
  obtain ⟨a, hla, rfl⟩ := (labelToStoreHex_eq_ok_iff hbase32 hhex).mp hl
  obtain ⟨b, hmb, rfl⟩ := (labelToStoreHex_eq_ok_iff hbase32 hhex).mp hm
  rw [eqIgnoreAsciiCase_iff]
  constructor
  · intro hhex
    rw [hla, hmb, hexEncode_inj hhex]
  · intro hlower
    have hb := (labelToStoreBytes_eq_ok_iff_lower hbase32).mpr hmb
    have ha := (labelToStoreBytes_eq_ok_iff_lower hbase32).mpr (hlower.symm.trans hla)
    rw [hb] at ha
    cases ha
    rfl

/-- On an accepted host `decode` prints the id of the first label, which is that of the
store unless another root is pinned. -/
theorem execute_decode_iff (htld : isSafeTld tld = true) (htrim : trim host = host)
    (hparse : parseDigHost codecs host tld = .ok target) :
    execute codecs get (.decode host false) = .ok (.text target.storeHex) ↔ NamesOneId host := by
  obtain ⟨front, last, hname, hlast, hlabels⟩ := (parseDigHost_eq_ok_iff htld).mp hparse
  have hdot : '.' ∉ last := by
    intro hmem
    refine dot_not_mem_of_isSafeTld htld ?_
    rw [← hlast]
    exact dot_mem_toAsciiLowercase.mpr hmem
  have hsplit : (hostName host).splitOn '.' = front.splitOn '.' ++ [last] := by
    rw [hname, List.splitOn_append_cons_self, List.splitOn_eq_singleton hdot]
  have hfirst : splitNext '.' host = splitNext '.' (hostName host) :=
    splitNext_hostName htrim (by rw [hname]; simp)
  rw [execute_decode_eq_ok_iff, hfirst, splitNext, hsplit]
  rcases hfront : front.splitOn '.' with _ | ⟨root, _ | ⟨store, _ | ⟨other, labels⟩⟩⟩
  all_goals rw [hfront] at hlabels
  · exact hlabels.elim
  · obtain ⟨storeHex, hstore, htarget⟩ := hlabels
    rw [htarget]
    refine iff_of_true hstore fun root store' last' hthree => ?_
    rw [hsplit, hfront] at hthree
    cases hthree
  · obtain ⟨storeHex, rootHex, hstore, hroot, htarget⟩ := hlabels
    have hone : NamesOneId host ↔ eqIgnoreAsciiCase root store = true := by
      rw [NamesOneId, hsplit, hfront]
      constructor
      · exact fun h => h root store last rfl
      · rintro h _ _ _ ⟨⟩
        exact h
    rw [htarget, hone, ← labelToStoreHex_eq_iff hbase32 hhex hroot hstore]
    change labelToStoreHex codecs root = .ok storeHex ↔ _
    rw [hroot, Except.ok.injEq]
  · exact hlabels.elim

/-- What `encode` prints for 64 hex digits is read back by both. -/
theorem execute_encode (henv : fromEnv get = .ok cfg) {h : Str} (hlen : h.length = 64)
    (hdigits : ∀ c ∈ h, Hex.isAsciiHexdigit c = true) :
    ∃ out, execute codecs get (.encode h false) = .ok (.text out) ∧
      execute codecs get (.decode out false) = .ok (.text (toAsciiLowercase h)) ∧
      parseDigHost codecs out cfg.tld = .ok (.latest (toAsciiLowercase h)) := by
  have htld : isSafeTld cfg.tld = true := ((fromEnv_eq_ok_iff get cfg).mp henv).2.tld
  obtain ⟨label, hlabel, hback⟩ := labelToStoreHex_of_storeHexToLabel hbase32 hhex hlen hdigits
  obtain ⟨id, hlower, hid⟩ := (labelToStoreHex_eq_ok_iff hbase32 hhex).mp hback
  have hdot : '.' ∉ label := by
    intro hmem
    refine dot_not_mem_storeBytesToLabel hbase32 id ?_
    rw [← hlower]
    exact dot_mem_toAsciiLowercase.mpr hmem
  refine ⟨label ++ '.' :: cfg.tld, ?_, ?_, ?_⟩
  · rw [execute, henv, hlabel]
    rfl
  · rw [execute_decode_eq_ok_iff, splitNext_append_cons hdot]
    exact hback
  · rw [hid]
    refine (parseDigHost_hostLaw hbase32 hhex htld).latest id _ ?_
    rw [eqIgnoreAsciiCase_iff, toAsciiLowercase_latestName hbase32 htld, latestName,
      toAsciiLowercase_append, hlower, toAsciiLowercase_cons, toAsciiLowercase_of_isSafeTld htld]
    rfl

/-- The command prints the store of an accepted host exactly when the host names one
id, and reads back every host that it makes. -/
theorem execute_label_iff (henv : fromEnv get = .ok cfg) :
    (∀ host target, trim host = host → parseDigHost codecs host cfg.tld = .ok target →
      (execute codecs get (.decode host false) = .ok (.text target.storeHex) ↔
        NamesOneId host)) ∧
    ∀ h : Str, h.length = 64 → (∀ c ∈ h, Hex.isAsciiHexdigit c = true) →
      ∃ out, execute codecs get (.encode h false) = .ok (.text out) ∧
        execute codecs get (.decode out false) = .ok (.text (toAsciiLowercase h)) ∧
        parseDigHost codecs out cfg.tld = .ok (.latest (toAsciiLowercase h)) :=
  ⟨fun _ _ htrim hparse => execute_decode_iff hbase32 hhex
      ((fromEnv_eq_ok_iff get cfg).mp henv).2.tld htrim hparse,
    fun _ hlen hdigits => execute_encode hbase32 hhex henv hlen hdigits⟩

end Agreement

/-- The documented codecs and the default configuration. -/
theorem execute_label_dig :
    (∀ host target, trim host = host →
      parseDigHost .reference host Config.default.tld = .ok target →
      (execute .reference (fun _ => none) (.decode host false) = .ok (.text target.storeHex) ↔
        NamesOneId host)) ∧
    ∀ h : Str, h.length = 64 → (∀ c ∈ h, Hex.isAsciiHexdigit c = true) →
      ∃ out, execute .reference (fun _ => none) (.encode h false) = .ok (.text out) ∧
        execute .reference (fun _ => none) (.decode out false) =
          .ok (.text (toAsciiLowercase h)) ∧
        parseDigHost .reference out Config.default.tld = .ok (.latest (toAsciiLowercase h)) :=
  execute_label_iff Codecs.reference_strictBase32 Codecs.reference_documentedHex rfl

/-- The host of root `00…01` of store `00…00`. -/
def capsuleHost : Str :=
  List.replicate 51 'a' ++ 'q' :: '.' :: (List.replicate 52 'a' ++ ".dig".toList)

/-- On a host with a pinned root `decode` prints that root. -/
theorem execute_decode_prints_root :
    trim capsuleHost = capsuleHost ∧
      parseDigHost .reference capsuleHost Config.default.tld =
        .ok (.pinned (List.replicate 64 '0') (List.replicate 63 '0' ++ ['1'])) ∧
      execute .reference (fun _ => none) (.decode capsuleHost false) =
        .ok (.text (List.replicate 63 '0' ++ ['1'])) ∧
      execute .reference (fun _ => none) (.decode capsuleHost false) ≠
        .ok (.text (List.replicate 64 '0')) := by
  have hroot : labelToStoreHex .reference (splitNext '.' capsuleHost) =
      .ok (List.replicate 63 '0' ++ ['1']) := by
    decide +kernel
  refine ⟨by decide +kernel, by decide +kernel, execute_decode_eq_ok_iff.mpr hroot, ?_⟩
  intro hstore
  rw [execute_decode_eq_ok_iff.mp hstore] at hroot
  exact absurd hroot (by decide)

end DigDns
