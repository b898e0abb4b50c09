import DigDns.Config
import DigDns.Host
import DigDns.Support.Names

/-!
# Canonical hosts

A target has one host up to ASCII case: the label of its store under the TLD, with
the label of a pinned root in front.  `parse_dig_host` accepts these and nothing
else, once it has trimmed the host, dropped a final dot and cut it at a colon.
-/

namespace DigDns

open Rust

/-- The name that `parse_dig_host` takes from a host. -/
def hostName (host : Str) : Str :=
  splitNext ':' ((stripSuffix ['.'] (trim host)).getD (trim host))

/-- `<store>.<tld>` -/
def latestName (codecs : Codecs) (store : Bytes32) (tld : Str) : Str :=
  storeBytesToLabel codecs store ++ '.' :: tld

/-- `<root>.<store>.<tld>` -/
def pinnedName (codecs : Codecs) (store root : Bytes32) (tld : Str) : Str :=
  storeBytesToLabel codecs root ++ '.' :: latestName codecs store tld

variable {codecs : Codecs} {host tld : Str} {target : HostTarget}

/-- What labels before the TLD name. -/
def LabelsName (codecs : Codecs) : List Str → HostTarget → Prop
  | [store], target =>
      ∃ storeHex, labelToStoreHex codecs store = .ok storeHex ∧ target = .latest storeHex
  | [root, store], target =>
      ∃ storeHex rootHex, labelToStoreHex codecs store = .ok storeHex ∧
        labelToStoreHex codecs root = .ok rootHex ∧ target = .pinned storeHex rootHex
  | _, _ => False

theorem dot_not_mem_of_isSafeTld (htld : isSafeTld tld = true) : '.' ∉ tld :=
  fun hmem => forall_mem_of_isSafeTld (P := fun c => c ≠ '.') htld (by decide) '.' hmem rfl

theorem toAsciiLowercase_of_isSafeTld (htld : isSafeTld tld = true) :
    toAsciiLowercase tld = tld :=
  toAsciiLowercase_of_no_upper (forall_mem_of_isSafeTld htld (by decide))

/-- The last part of `parse_dig_host`, from the labels on. -/
def parseLabels (codecs : Codecs) (labels : List Str) : Except HostError HostTarget :=
  if labels.any (· = []) then .error .noStoreLabel
  else
    match labels with
    | [store] => do
        let storeHex ← (labelToStoreHex codecs store).mapError .badLabel
        return .latest storeHex
    | [root, store] => do
        let storeHex ← (labelToStoreHex codecs store).mapError .badLabel
        let rootHex ← (labelToStoreHex codecs root).mapError .badLabel
        return .pinned storeHex rootHex
    | _ => .error (.tooManyLabels labels.length)

theorem parseDigHost_eq :
    parseDigHost codecs host tld =
      if toAsciiLowercase (hostName host) = toAsciiLowercase tld then .error .noStoreLabel
      else if !('.' :: toAsciiLowercase tld).isSuffixOf (toAsciiLowercase (hostName host)) then
        .error (.notDigTld tld)
      else
        let front :=
          (hostName host).take ((hostName host).length - ('.' :: toAsciiLowercase tld).length)
        if front = [] then .error .noStoreLabel else parseLabels codecs (front.splitOn '.') :=
  rfl

/-- The empty label names nothing. -/
theorem labelToStoreHex_nil (hex : Str) : labelToStoreHex codecs [] ≠ .ok hex := nofun

theorem mapError_bind_eq_ok_iff {α β : Type} {r : Except LabelError α}
    {f : α → Except HostError β} {b : β} :
    (r.mapError .badLabel >>= f) = .ok b ↔ ∃ a, r = .ok a ∧ f a = .ok b := by
  cases r with
  | error e => exact iff_of_false nofun fun ⟨a, ha, _⟩ => nomatch ha
  | ok a =>
      constructor
      · exact fun h => ⟨a, rfl, h⟩
      · rintro ⟨_, ⟨⟩, h⟩
        exact h

theorem parseLabels_eq_ok_iff {labels : List Str} :
    parseLabels codecs labels = .ok target ↔ LabelsName codecs labels target := by
  unfold parseLabels
  split_ifs with hany
  · obtain ⟨l, hl, hempty⟩ := List.any_eq_true.mp hany
    obtain rfl := of_decide_eq_true hempty
    refine iff_of_false nofun fun hlabels => ?_
    match labels, hlabels with
    | [store], ⟨storeHex, hstore, _⟩ =>
        obtain rfl := List.mem_singleton.mp hl
        exact labelToStoreHex_nil storeHex hstore
    | [root, store], ⟨storeHex, rootHex, hstore, hroot, _⟩ =>
        rcases List.mem_pair.mp hl with rfl | rfl
        · exact labelToStoreHex_nil rootHex hroot
        · exact labelToStoreHex_nil storeHex hstore
  · match labels with
    | [] => exact iff_of_false nofun id
    | [store] =>
        refine mapError_bind_eq_ok_iff.trans (exists_congr fun storeHex => ?_)
        exact and_congr_right fun _ => ⟨fun h => (Except.ok.inj h).symm, fun h => h ▸ rfl⟩
    | [root, store] =>
        refine mapError_bind_eq_ok_iff.trans (exists_congr fun storeHex => ?_)
        refine (and_congr_right fun _ => mapError_bind_eq_ok_iff).trans ?_
        constructor
        · rintro ⟨hstore, rootHex, hroot, h⟩
          exact ⟨rootHex, hstore, hroot, (Except.ok.inj h).symm⟩
        · rintro ⟨rootHex, hstore, hroot, rfl⟩
          exact ⟨hstore, rootHex, hroot, rfl⟩
    | _ :: _ :: _ :: _ => exact iff_of_false nofun id

/-- The host is cut into labels and the TLD. -/
theorem parseDigHost_eq_ok_iff (htld : isSafeTld tld = true) :
    parseDigHost codecs host tld = .ok target ↔
      ∃ front last, hostName host = front ++ '.' :: last ∧ toAsciiLowercase last = tld ∧
        LabelsName codecs (front.splitOn '.') target := by
  have hempty : ∀ front : Str, (if front = [] then Except.error HostError.noStoreLabel
      else parseLabels codecs (front.splitOn '.')) = parseLabels codecs (front.splitOn '.') := by
    intro front
    split_ifs with hnil
    · rw [hnil]
      rfl
    · rfl
  have hcut : ∀ {front last : Str}, hostName host = front ++ '.' :: last →
      toAsciiLowercase last = tld →
        (hostName host).take ((hostName host).length - ('.' :: tld).length) = front := by
    intro front last hname hlast
    have hlength : ('.' :: tld).length = ('.' :: last).length := by
      rw [List.length_cons, List.length_cons, ← hlast, toAsciiLowercase, List.length_map]
    rw [hlength, hname, List.length_append, Nat.add_sub_cancel, List.take_left]
  simp only [parseDigHost_eq, toAsciiLowercase_of_isSafeTld htld, hempty]
  constructor
  · intro h
    split_ifs at h with hapex hsuffix
    simp only [Bool.not_eq_true', Bool.not_eq_false, List.isSuffixOf_iff_suffix] at hsuffix
    obtain ⟨x, hx⟩ := hsuffix
    obtain ⟨front, last, hname, -, hlast⟩ := toAsciiLowercase_eq_append_dot_iff.mp hx.symm
    refine ⟨front, last, hname, hlast, ?_⟩
    rw [hcut hname hlast] at h
    exact parseLabels_eq_ok_iff.mp h
  · rintro ⟨front, last, hname, hlast, hlabels⟩
    have hlower : toAsciiLowercase (hostName host) = toAsciiLowercase front ++ '.' :: tld :=
      toAsciiLowercase_eq_append_dot_iff.mpr ⟨front, last, hname, rfl, hlast⟩
    have hapex : toAsciiLowercase (hostName host) ≠ tld := by
      intro heq
      refine dot_not_mem_of_isSafeTld htld ?_
      rw [← heq, hlower]
      simp
    have hsuffix : ('.' :: tld).isSuffixOf (toAsciiLowercase (hostName host)) = true := by
      rw [hlower, List.isSuffixOf_iff_suffix]
      exact List.suffix_append _ _
    rw [if_neg hapex, hsuffix, hcut hname hlast]
    exact parseLabels_eq_ok_iff.mpr hlabels

/-! ## The two forms -/

theorem toAsciiLowercase_hexEncode (bytes : List UInt8) :
    toAsciiLowercase (Hex.hexEncode bytes) = Hex.hexEncode bytes := by
  have hdigit : ∀ n : Fin 16, (Hex.digit n.val).toLower = Hex.digit n.val := by decide
  induction bytes with
  | nil => rfl
  | cons b bytes ih =>
      have hb := b.toNat_lt
      rw [Hex.hexEncode, toAsciiLowercase_cons, toAsciiLowercase_cons, ih,
        hdigit ⟨b.toNat / 16, by omega⟩, hdigit ⟨b.toNat % 16, by omega⟩]

theorem hexEncode_inj {a b : Bytes32} (h : Hex.hexEncode a.bytes = Hex.hexEncode b.bytes) :
    a = b := by
  have ha := Hex.hexDecode_eq_some_iff.mpr (toAsciiLowercase_hexEncode a.bytes)
  have hb := Hex.hexDecode_eq_some_iff.mpr (toAsciiLowercase_hexEncode b.bytes)
  rw [h, hb, Option.some.injEq] at ha
  cases a
  cases b
  simp only [Bytes32.mk.injEq]
  exact ha.symm

section Forms

variable (hbase32 : codecs.StrictBase32) (hhex : codecs.DocumentedHex)
include hbase32

theorem toAsciiLowercase_storeBytesToLabel (id : Bytes32) :
    toAsciiLowercase (storeBytesToLabel codecs id) = storeBytesToLabel codecs id := by
  apply toAsciiLowercase_of_no_upper
  intro c hc
  have hrange := range_of_mem_storeBytesToLabel hbase32 hc
  omega

theorem dot_not_mem_storeBytesToLabel (id : Bytes32) : '.' ∉ storeBytesToLabel codecs id := by
  intro hmem
  rcases range_of_mem_storeBytesToLabel hbase32 hmem with hrange | hrange
  · exact absurd hrange (by decide)
  · exact absurd hrange (by decide)

theorem isName_storeBytesToLabel (id : Bytes32) : IsName (storeBytesToLabel codecs id) := by
  intro c hc
  have hrange := range_of_mem_storeBytesToLabel hbase32 hc
  refine .inl (isLdh_iff.mpr ?_)
  omega

theorem labelToStoreBytes_eq_ok_iff_lower {label : Str} {id : Bytes32} :
    labelToStoreBytes codecs label = .ok id ↔
      toAsciiLowercase label = storeBytesToLabel codecs id := by
  rw [labelToStoreBytes_iff_eqIgnoreAsciiCase hbase32, eqIgnoreAsciiCase_iff,
    toAsciiLowercase_storeBytesToLabel hbase32]

include hhex

theorem labelToStoreHex_eq_ok_iff {label hex : Str} :
    labelToStoreHex codecs label = .ok hex ↔
      ∃ id : Bytes32, toAsciiLowercase label = storeBytesToLabel codecs id ∧
        hex = Hex.hexEncode id.bytes := by
  simp only [← labelToStoreBytes_eq_ok_iff_lower hbase32]
  unfold labelToStoreHex
  cases labelToStoreBytes codecs label with
  | error e => exact iff_of_false nofun fun ⟨id, hid, _⟩ => nomatch hid
  | ok id =>
      change Except.ok (codecs.hexEncode id.bytes) = .ok hex ↔ _
      rw [hhex.encode_eq]
      constructor
      · exact fun h => ⟨id, rfl, (Except.ok.inj h).symm⟩
      · rintro ⟨_, ⟨⟩, rfl⟩
        rfl

/-- Labels that name a target are the label of its store, behind that of its root. -/
theorem labelsName_splitOn_iff {front : Str} :
    LabelsName codecs (front.splitOn '.') target ↔
      (∃ store, toAsciiLowercase front = storeBytesToLabel codecs store ∧
        target = .latest (Hex.hexEncode store.bytes)) ∨
      ∃ store root, toAsciiLowercase front =
          storeBytesToLabel codecs root ++ '.' :: storeBytesToLabel codecs store ∧
        target = .pinned (Hex.hexEncode store.bytes) (Hex.hexEncode root.bytes) := by
  constructor
  · intro hlabels
    have hfront : dotted (front.splitOn '.') = front := List.intercalate_splitOn '.'
    match hsplit : front.splitOn '.', hlabels with
    | [l], ⟨storeHex, hstore, htarget⟩ =>
        obtain ⟨store, hlower, rfl⟩ := (labelToStoreHex_eq_ok_iff hbase32 hhex).mp hstore
        rw [hsplit, dotted_singleton] at hfront
        exact .inl ⟨store, hfront ▸ hlower, htarget⟩
    | [l, m], ⟨storeHex, rootHex, hstore, hroot, htarget⟩ =>
        obtain ⟨store, hm, rfl⟩ := (labelToStoreHex_eq_ok_iff hbase32 hhex).mp hstore
        obtain ⟨root, hl, rfl⟩ := (labelToStoreHex_eq_ok_iff hbase32 hhex).mp hroot
        rw [hsplit, dotted_cons l (List.cons_ne_nil m []), dotted_singleton] at hfront
        refine .inr ⟨store, root, ?_, htarget⟩
        exact toAsciiLowercase_eq_append_dot_iff.mpr ⟨l, m, hfront.symm, hl, hm⟩
  · have hdots : ∀ {l : Str} {id : Bytes32}, toAsciiLowercase l = storeBytesToLabel codecs id →
        '.' ∉ l := by
      intro l id hl hmem
      refine dot_not_mem_storeBytesToLabel hbase32 id ?_
      rw [← hl]
      exact dot_mem_toAsciiLowercase.mpr hmem
    rintro (⟨store, hlower, rfl⟩ | ⟨store, root, hlower, rfl⟩)
    · rw [List.splitOn_eq_singleton (hdots hlower)]
      exact ⟨_, (labelToStoreHex_eq_ok_iff hbase32 hhex).mpr ⟨store, hlower, rfl⟩, rfl⟩
    · obtain ⟨l, m, rfl, hl, hm⟩ := toAsciiLowercase_eq_append_dot_iff.mp hlower
      rw [List.splitOn_append_cons_self_of_not_mem (hdots hl),
        List.splitOn_eq_singleton (hdots hm)]
      exact ⟨_, _, (labelToStoreHex_eq_ok_iff hbase32 hhex).mpr ⟨store, hm, rfl⟩,
        (labelToStoreHex_eq_ok_iff hbase32 hhex).mpr ⟨root, hl, rfl⟩, rfl⟩

/-- The parser accepts the two forms and nothing else. -/
theorem parseDigHost_eq_ok_iff_form (htld : isSafeTld tld = true) :
    parseDigHost codecs host tld = .ok target ↔
      (∃ store, toAsciiLowercase (hostName host) = latestName codecs store tld ∧
        target = .latest (Hex.hexEncode store.bytes)) ∨
      ∃ store root, toAsciiLowercase (hostName host) = pinnedName codecs store root tld ∧
        target = .pinned (Hex.hexEncode store.bytes) (Hex.hexEncode root.bytes) := by
  have hpinned : ∀ store root, pinnedName codecs store root tld =
      (storeBytesToLabel codecs root ++ '.' :: storeBytesToLabel codecs store) ++ '.' :: tld := by
    intro store root
    rw [List.append_assoc]
    rfl
  rw [parseDigHost_eq_ok_iff htld]
  simp only [labelsName_splitOn_iff hbase32 hhex, hpinned]
  constructor
  · rintro ⟨front, last, hname, hlast, ⟨store, hfront, htarget⟩ | ⟨store, root, hfront, htarget⟩⟩
    · exact .inl ⟨store, toAsciiLowercase_eq_append_dot_iff.mpr
        ⟨front, last, hname, hfront, hlast⟩, htarget⟩
    · exact .inr ⟨store, root, toAsciiLowercase_eq_append_dot_iff.mpr
        ⟨front, last, hname, hfront, hlast⟩, htarget⟩
  · rintro (⟨store, hname, htarget⟩ | ⟨store, root, hname, htarget⟩)
    · obtain ⟨front, last, hcut, hfront, hlast⟩ := toAsciiLowercase_eq_append_dot_iff.mp hname
      exact ⟨front, last, hcut, hlast, .inl ⟨store, hfront, htarget⟩⟩
    · obtain ⟨front, last, hcut, hfront, hlast⟩ := toAsciiLowercase_eq_append_dot_iff.mp hname
      exact ⟨front, last, hcut, hlast, .inr ⟨store, root, hfront, htarget⟩⟩

end Forms

/-! ## Names without anything around them -/

theorem isName_of_isSafeTld (htld : isSafeTld tld = true) : IsName tld := by
  intro c hc
  refine .inl (isLdh_iff.mpr ?_)
  rcases range_of_isSafeTld htld hc with hrange | hrange | rfl
  · exact .inl hrange
  · exact .inr (.inr (.inl hrange))
  · exact .inr (.inr (.inr rfl))

theorem stripSuffix_dot_of_lower {front : Str} (htld : isSafeTld tld = true)
    (hhost : toAsciiLowercase host = front ++ tld) : stripSuffix ['.'] host = none := by
  rw [stripSuffix, if_neg]
  rw [List.isSuffixOf_iff_suffix]
  rintro ⟨s, rfl⟩
  rw [toAsciiLowercase_append] at hhost
  change toAsciiLowercase s ++ ['.'] = front ++ tld at hhost
  have hne := ne_nil_of_isSafeTld htld
  have hlast := congrArg List.getLast? hhost
  rw [List.getLast?_concat, List.getLast?_append_of_ne_nil _ hne] at hlast
  exact dot_not_mem_of_isSafeTld htld (List.mem_of_getLast? hlast.symm)

/-- A name under the TLD stays as it is. -/
theorem hostName_eq_self (front : Str) (htld : isSafeTld tld = true) (hfront : IsName front)
    (hhost : toAsciiLowercase host = front ++ tld) : hostName host = host := by
  have hname : IsName host := by
    apply IsName.of_lower
    rw [hhost]
    exact hfront.append (isName_of_isSafeTld htld)
  rw [hostName, hname.trim_eq, stripSuffix_dot_of_lower htld hhost]
  exact hname.splitNext_eq

section Law

/-- The labels in front of the TLD, and the last label, which is the TLD. -/
def HasLabels (codecs : Codecs) (host tld : Str) : Prop :=
  ∃ labels last, (hostName host).splitOn '.' = labels ++ [last] ∧
    eqIgnoreAsciiCase last tld = true ∧ (labels.length = 1 ∨ labels.length = 2) ∧
    ∀ l ∈ labels, isValidLabel codecs l = true

/-- One canonical host for a target. -/
structure HostLaw (codecs : Codecs) (tld : Str) : Prop where
  /-- Every spelling of `<store>.<tld>` is the latest root of the store. -/
  latest : ∀ store host, eqIgnoreAsciiCase host (latestName codecs store tld) = true →
    parseDigHost codecs host tld = .ok (.latest (Hex.hexEncode store.bytes))
  /-- Every spelling of `<root>.<store>.<tld>` is that root of the store. -/
  pinned : ∀ store root host, eqIgnoreAsciiCase host (pinnedName codecs store root tld) = true →
    parseDigHost codecs host tld =
      .ok (.pinned (Hex.hexEncode store.bytes) (Hex.hexEncode root.bytes))
  /-- Nothing else is accepted. -/
  accepted : ∀ host target, parseDigHost codecs host tld = .ok target →
    (∃ store, eqIgnoreAsciiCase (hostName host) (latestName codecs store tld) = true ∧
      target = .latest (Hex.hexEncode store.bytes)) ∨
    ∃ store root, eqIgnoreAsciiCase (hostName host) (pinnedName codecs store root tld) = true ∧
      target = .pinned (Hex.hexEncode store.bytes) (Hex.hexEncode root.bytes)
  /-- Hosts of one target differ in case and in what the parser drops. -/
  canonical : ∀ host host' target, parseDigHost codecs host tld = .ok target →
    parseDigHost codecs host' tld = .ok target →
      eqIgnoreAsciiCase (hostName host) (hostName host') = true
  /-- An accepted host has one or two labels before the TLD, and they decode. -/
  labels : ∀ host target, parseDigHost codecs host tld = .ok target → HasLabels codecs host tld

theorem isValidLabel_of_labelToStoreHex {label hex : Str}
    (h : labelToStoreHex codecs label = .ok hex) : isValidLabel codecs label = true := by
  unfold labelToStoreHex at h
  unfold isValidLabel
  cases hlabel : labelToStoreBytes codecs label with
  | error e =>
      rw [hlabel] at h
      cases h
  | ok id => rfl

theorem hasLabels_of_parseDigHost (htld : isSafeTld tld = true)
    (h : parseDigHost codecs host tld = .ok target) : HasLabels codecs host tld := by
  obtain ⟨front, last, hname, hlast, hlabels⟩ := (parseDigHost_eq_ok_iff htld).mp h
  have hdot : '.' ∉ last := by
    intro hmem
    refine dot_not_mem_of_isSafeTld htld ?_
    rw [← hlast]
    exact dot_mem_toAsciiLowercase.mpr hmem
  refine ⟨front.splitOn '.', last, ?_, ?_, ?_⟩
  · rw [hname, List.splitOn_append_cons_self, List.splitOn_eq_singleton hdot]
  · rw [eqIgnoreAsciiCase_iff, hlast, toAsciiLowercase_of_isSafeTld htld]
  · match front.splitOn '.', hlabels with
    | [store], ⟨storeHex, hstore, _⟩ =>
        refine ⟨.inl rfl, List.forall_mem_singleton.mpr ?_⟩
        exact isValidLabel_of_labelToStoreHex hstore
    | [root, store], ⟨storeHex, rootHex, hstore, hroot, _⟩ =>
        refine ⟨.inr rfl, List.forall_mem_cons.mpr ⟨?_, List.forall_mem_singleton.mpr ?_⟩⟩
        · exact isValidLabel_of_labelToStoreHex hroot
        · exact isValidLabel_of_labelToStoreHex hstore

variable (hbase32 : codecs.StrictBase32) (hhex : codecs.DocumentedHex)
include hbase32

theorem toAsciiLowercase_latestName (htld : isSafeTld tld = true) (store : Bytes32) :
    toAsciiLowercase (latestName codecs store tld) = latestName codecs store tld :=
  toAsciiLowercase_eq_append_dot_iff.mpr ⟨_, _, rfl,
    toAsciiLowercase_storeBytesToLabel hbase32 store, toAsciiLowercase_of_isSafeTld htld⟩

theorem toAsciiLowercase_pinnedName (htld : isSafeTld tld = true) (store root : Bytes32) :
    toAsciiLowercase (pinnedName codecs store root tld) = pinnedName codecs store root tld :=
  toAsciiLowercase_eq_append_dot_iff.mpr ⟨_, _, rfl,
    toAsciiLowercase_storeBytesToLabel hbase32 root,
    toAsciiLowercase_latestName hbase32 htld store⟩

theorem hostName_eq_self_of_latest {store : Bytes32} (htld : isSafeTld tld = true)
    (hhost : toAsciiLowercase host = latestName codecs store tld) : hostName host = host := by
  apply hostName_eq_self (storeBytesToLabel codecs store ++ ['.']) htld
  · exact (isName_storeBytesToLabel hbase32 store).append (IsName.nil.dot_cons)
  · rw [hhost, latestName, List.append_assoc, List.singleton_append]

theorem hostName_eq_self_of_pinned {store root : Bytes32} (htld : isSafeTld tld = true)
    (hhost : toAsciiLowercase host = pinnedName codecs store root tld) :
    hostName host = host := by
  have hlabel := isName_storeBytesToLabel hbase32
  apply hostName_eq_self (storeBytesToLabel codecs root ++ '.' ::
    (storeBytesToLabel codecs store ++ ['.'])) htld
  · exact (hlabel root).append ((hlabel store).append (IsName.nil.dot_cons)).dot_cons
  · rw [hhost, pinnedName, latestName, List.append_assoc, List.cons_append, List.append_assoc,
      List.singleton_append]

include hhex

/-- Each target has one canonical host, and the parser accepts no other. -/
theorem parseDigHost_hostLaw (htld : isSafeTld tld = true) : HostLaw codecs tld := by
  have hlatest : ∀ store (host : Str), eqIgnoreAsciiCase host (latestName codecs store tld) =
      true ↔ toAsciiLowercase host = latestName codecs store tld := fun store host => by
    rw [eqIgnoreAsciiCase_iff, toAsciiLowercase_latestName hbase32 htld]
  have hpinned : ∀ store root (host : Str), eqIgnoreAsciiCase host
      (pinnedName codecs store root tld) = true ↔
        toAsciiLowercase host = pinnedName codecs store root tld := fun store root host => by
    rw [eqIgnoreAsciiCase_iff, toAsciiLowercase_pinnedName hbase32 htld]
  refine ⟨?_, ?_, ?_, ?_, fun host target => hasLabels_of_parseDigHost htld⟩
  · intro store host hhost
    have hlower := (hlatest store host).mp hhost
    refine (parseDigHost_eq_ok_iff_form hbase32 hhex htld).mpr (.inl ⟨store, ?_, rfl⟩)
    rwa [hostName_eq_self_of_latest hbase32 htld hlower]
  · intro store root host hhost
    have hlower := (hpinned store root host).mp hhost
    refine (parseDigHost_eq_ok_iff_form hbase32 hhex htld).mpr (.inr ⟨store, root, ?_, rfl⟩)
    rwa [hostName_eq_self_of_pinned hbase32 htld hlower]
  · intro host target h
    simp only [hlatest, hpinned]
    exact (parseDigHost_eq_ok_iff_form hbase32 hhex htld).mp h
  · intro host host' target h h'
    rw [eqIgnoreAsciiCase_iff]
    have hform := (parseDigHost_eq_ok_iff_form hbase32 hhex htld).mp h
    have hform' := (parseDigHost_eq_ok_iff_form hbase32 hhex htld).mp h'
    rcases hform with ⟨s, hs, rfl⟩ | ⟨s, r, hs, rfl⟩
    · rcases hform' with ⟨s', hs', heq⟩ | ⟨s', r', hs', heq⟩
      · rw [hs, hs', hexEncode_inj (HostTarget.latest.inj heq)]
      · cases heq
    · rcases hform' with ⟨s', hs', heq⟩ | ⟨s', r', hs', heq⟩
      · cases heq
      · obtain ⟨hstore, hroot⟩ := HostTarget.pinned.inj heq
        rw [hs, hs', hexEncode_inj hstore, hexEncode_inj hroot]

end Law

/-- The documented codecs and the default TLD. -/
theorem parseDigHost_hostLaw_dig :
    isSafeTld "dig".toList = true ∧ HostLaw .reference "dig".toList :=
  ⟨by decide, parseDigHost_hostLaw Codecs.reference_strictBase32
    Codecs.reference_documentedHex (by decide)⟩

end DigDns
