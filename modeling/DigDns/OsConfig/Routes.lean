import DigDns.OsConfig
import DigDns.Support.UnitFile

/-!
# How resolvers read the artifacts

What `systemd-resolved`, the `dnsmasq` of NetworkManager and macOS take from the
files that `configure-os` writes, and where the artifacts of a machine send the
names of a TLD.
-/

namespace DigDns.OsConfig

open Rust Posix UnitFile

/-- The words between the blanks of a line. -/
def lineWords (line : Str) : List Str :=
  (line.splitOnP isBlank).filter fun word => word ≠ []

/-- The words that a key has in the group `[Resolve]` of a drop-in. -/
def resolveWords (key text : Str) : List Str :=
  (read text).flatMap fun s =>
    if s.group = "Resolve".toList ∧ s.key = key then lineWords s.value else []

/-- The addresses of a drop-in of `systemd-resolved`. -/
def dropinServers (text : Str) : List Str := resolveWords "DNS".toList text

/-- Its domains, each with whether `~` marks it as one for routing only. -/
def dropinDomains (text : Str) : List (Bool × Str) :=
  (resolveWords "Domains".toList text).map fun word =>
    match stripPrefix ['~'] word with
    | some domain => (true, domain)
    | none => (false, word)

/-- A line of `dnsmasq` up to a `#` that follows a blank. -/
def uncomment : Bool → Str → Str
  | _, [] => []
  | afterBlank, c :: line =>
      if afterBlank && c = '#' then [] else c :: uncomment (isBlank c) line

/-- What a `server` line says: `/domain/…/address`, or an address for all names. -/
def serverLine (line : Str) : Option (List Str × Str) :=
  match splitOnce '=' (uncomment true line) with
  | some (key, value) =>
      if strip key = "server".toList then
        match (strip value).splitOn '/' with
        | [] :: rest => some (rest.dropLast, rest.getLastD [])
        | _ => some ([], strip value)
      else none
  | none => none

/-- The servers of a `dnsmasq` file, with their domains. -/
def dnsmasqServers (text : Str) : List (List Str × Str) :=
  (text.splitOn '\n').filterMap serverLine

/-- The address of a `nameserver` line. -/
def nameserverLine (line : Str) : Option Str :=
  match lineWords line with
  | [key, address] => if key = "nameserver".toList then some address else none
  | _ => none

/-- The name servers of a file under `/etc/resolver`. -/
def resolverServers (text : Str) : List Str :=
  (text.splitOn '\n').filterMap nameserverLine

/-! ## Reading back -/

theorem lineWords_of_not_blank {s : Str} (hs : s ≠ []) (h : ∀ c ∈ s, isBlank c = false) :
    lineWords s = [s] := by
  rw [lineWords, List.splitOnP_eq_singleton h]
  simp [hs]

/-- The marker is a comment of every format. -/
theorem readStripped_markerLine : readStripped (strip ("# ".toList ++ marker)) = .nothing := by
  decide +kernel

theorem newline_not_mem_markerLine : '\n' ∉ "# ".toList ++ marker := by
  decide +kernel

section Artifact

variable (ip : Ipv4Addr) {tld : Str} (htld : isSafeTld tld = true)

theorem ipWord : ip.fmt ≠ [] ∧ ∀ c ∈ ip.fmt, isBlank c = false := by
  refine ⟨?_, Ipv4Addr.forall_mem_fmt ip (by decide)⟩
  rw [Ipv4Addr.fmt]
  exact List.append_ne_nil_of_left_ne_nil (fmtNat_ne_nil _) _

/-- The settings of the drop-in. -/
def dropinSettings (ip : Ipv4Addr) (tld : Str) : List (Str × Str) :=
  [("DNS".toList, ip.fmt), ("Domains".toList, '~' :: tld)]

theorem systemdResolvedDropin_eq (tld : Str) :
    systemdResolvedDropin ip tld = unlines (("# ".toList ++ marker) :: "[Resolve]".toList ::
      (dropinSettings ip tld).map settingLine) := by
  have hgroup : "\n[Resolve]\nDNS=".toList =
      '\n' :: ("[Resolve]".toList ++ '\n' :: ("DNS".toList ++ ['='])) := rfl
  have hdomains : "\nDomains=~".toList = '\n' :: ("Domains".toList ++ ['=', '~']) := rfl
  unfold systemdResolvedDropin
  rw [hgroup, hdomains]
  simp only [unlines, dropinSettings, settingLine, List.map_cons, List.map_nil, List.flatMap_cons,
    List.flatMap_nil, List.append_assoc, List.cons_append, List.nil_append, List.append_nil]
  rfl

/-- A value without blanks is as clean as its key. -/
theorem isClean_of_not_blank {key value : Str} (hkey : UnitFile.IsClean (key, ['x']))
    (hvalue : value ≠ []) (hblank : ∀ c ∈ value, isBlank c = false) :
    UnitFile.IsClean (key, value) where
  start := hkey.start
  key := hkey.key
  first := ⟨_, List.head?_eq_some_head hvalue, hblank _ (List.head_mem hvalue)⟩
  last := ⟨_, List.getLast?_eq_some_getLast hvalue, hblank _ (List.getLast_mem hvalue)⟩
  equals := hkey.equals
  newline := by
    intro hmem
    rcases List.mem_append.mp hmem with hmem | hmem
    · exact hkey.newline (List.mem_append_left _ hmem)
    · exact absurd (hblank _ hmem) (by decide)

include htld in
theorem domainWord : '~' :: tld ≠ [] ∧ ∀ c ∈ '~' :: tld, isBlank c = false := by
  refine ⟨List.cons_ne_nil _ _, fun c hc => ?_⟩
  rcases List.mem_cons.mp hc with rfl | hc
  · decide
  · exact forall_mem_of_isSafeTld (P := fun c => isBlank c = false) htld (by decide) c hc

include htld in
theorem isClean_dropinSettings : ∀ s ∈ dropinSettings ip tld, UnitFile.IsClean s := by
  intro s hs
  rcases List.mem_pair.mp hs with rfl | rfl
  · exact isClean_of_not_blank (by decide) (ipWord ip).1 (ipWord ip).2
  · exact isClean_of_not_blank (by decide) (domainWord htld).1 (domainWord htld).2

include htld in
theorem read_systemdResolvedDropin :
    read (systemdResolvedDropin ip tld) =
      (dropinSettings ip tld).map fun s => ⟨"Resolve".toList, s.1, s.2⟩ := by
  have hclean := isClean_dropinSettings ip htld
  have hlines : ∀ line ∈ ("# ".toList ++ marker) :: "[Resolve]".toList ::
      (dropinSettings ip tld).map settingLine, '\n' ∉ line := by
    intro line hline
    rcases List.mem_cons.mp hline with rfl | hline
    · exact newline_not_mem_markerLine
    rcases List.mem_cons.mp hline with rfl | hline
    · decide
    obtain ⟨s, hs, rfl⟩ := List.mem_map.mp hline
    exact (hclean s hs).newline_not_mem
  have hheader : readStripped (strip "[Resolve]".toList) = .header "Resolve".toList := by decide
  rw [systemdResolvedDropin_eq, read_unlines hlines, readLines, readStripped_markerLine]
  dsimp only
  rw [readLines_header _ _ hheader]
  have hsettings := readLines_settings "Resolve".toList [] hclean
  rw [List.append_nil] at hsettings
  rw [hsettings]
  exact List.append_nil _

/-- The words of a key, where all settings are in the group `[Resolve]`. -/
theorem resolveWords_of_read {text key : Str} {settings : List (Str × Str)}
    (h : read text = settings.map fun s => ⟨"Resolve".toList, s.1, s.2⟩) :
    resolveWords key text =
      settings.flatMap fun s => if s.1 = key then lineWords s.2 else [] := by
  unfold resolveWords
  rw [h, List.flatMap_map]
  refine List.flatMap_congr fun s _ => ?_
  dsimp only
  by_cases hkey : s.1 = key
  · exact (if_pos ⟨rfl, hkey⟩).trans (if_pos hkey).symm
  · exact (if_neg fun hboth => hkey hboth.2).trans (if_neg hkey).symm

include htld in
/-- The drop-in has one server and one domain, for routing only. -/
theorem dropin_systemdResolvedDropin :
    dropinServers (systemdResolvedDropin ip tld) = [ip.fmt] ∧
      dropinDomains (systemdResolvedDropin ip tld) = [(true, tld)] := by
  have hread := read_systemdResolvedDropin ip htld
  have hserver := lineWords_of_not_blank (ipWord ip).1 (ipWord ip).2
  have hdomain := lineWords_of_not_blank (domainWord htld).1 (domainWord htld).2
  have hkeys : "Domains".toList ≠ "DNS".toList := by decide
  constructor
  · unfold dropinServers
    rw [resolveWords_of_read hread, dropinSettings, List.flatMap_cons, List.flatMap_singleton]
    exact congrArg₂ (· ++ ·) ((if_pos rfl).trans hserver) (if_neg hkeys)
  · unfold dropinDomains
    rw [resolveWords_of_read hread, dropinSettings, List.flatMap_cons, List.flatMap_singleton]
    exact congrArg (List.map _)
      (congrArg₂ (· ++ ·) (if_neg hkeys.symm) ((if_pos rfl).trans hdomain))

/-! ## `dnsmasq` and macOS -/

theorem uncomment_of_not_hash {b : Bool} {line : Str} (h : '#' ∉ line) :
    uncomment b line = line := by
  induction line generalizing b with
  | nil => rfl
  | cons c line ih =>
      have hc : c ≠ '#' := fun heq => h (heq ▸ List.mem_cons_self)
      rw [uncomment, if_neg (by simp [hc]), ih fun hmem => h (List.mem_cons_of_mem _ hmem)]

theorem networkmanagerDnsmasqConf_eq (tld : Str) :
    networkmanagerDnsmasqConf ip tld = unlines ["# ".toList ++ marker,
      "server".toList ++ '=' :: '/' :: (tld ++ '/' :: ip.fmt)] := by
  have hserver : "\nserver=/".toList = '\n' :: ("server".toList ++ ['=', '/']) := rfl
  unfold networkmanagerDnsmasqConf
  rw [hserver]
  simp only [unlines, List.flatMap_cons, List.flatMap_nil, List.append_assoc, List.cons_append,
    List.nil_append, List.append_nil]
  rfl

theorem resolverFileContent_eq :
    resolverFileContent ip = unlines ["# ".toList ++ marker,
      "nameserver".toList ++ ' ' :: ip.fmt] := by
  have hserver : "\nnameserver ".toList = '\n' :: ("nameserver".toList ++ [' ']) := rfl
  unfold resolverFileContent
  rw [hserver]
  simp only [unlines, List.flatMap_cons, List.flatMap_nil, List.append_assoc, List.cons_append,
    List.nil_append, List.append_nil]
  rfl

include htld in
theorem serverLine_networkmanagerDnsmasqConf :
    serverLine ("server".toList ++ '=' :: '/' :: (tld ++ '/' :: ip.fmt)) =
      some ([tld], ip.fmt) := by
  have hhash : '#' ∉ "server".toList ++ '=' :: '/' :: (tld ++ '/' :: ip.fmt) := by
    have htldHash := forall_mem_of_isSafeTld (P := fun c => '#' ≠ c) htld (by decide)
    have hipHash := Ipv4Addr.forall_mem_fmt ip (P := fun c => '#' ≠ c) (by decide)
    intro hmem
    rcases List.mem_append.mp hmem with hmem | hmem
    · exact absurd hmem (by decide)
    simp only [List.mem_cons, List.mem_append] at hmem
    rcases hmem with h | h | h | h | h
    · cases h
    · cases h
    · exact htldHash _ h rfl
    · cases h
    · exact hipHash _ h rfl
  have hslash : '/' ∉ tld := fun hmem =>
    forall_mem_of_isSafeTld (P := fun c => '/' ≠ c) htld (by decide) _ hmem rfl
  have hipSlash : '/' ∉ ip.fmt := fun hmem =>
    Ipv4Addr.forall_mem_fmt ip (P := fun c => '/' ≠ c) (by decide) _ hmem rfl
  have hvalue : strip ('/' :: (tld ++ '/' :: ip.fmt)) = '/' :: (tld ++ '/' :: ip.fmt) := by
    refine strip_eq_self ⟨'/', rfl, by decide⟩ ?_
    refine endsVisibly_append ('/' :: tld) '/' ⟨_, List.getLast?_eq_some_getLast (ipWord ip).1, ?_⟩
    exact (ipWord ip).2 _ (List.getLast_mem _)
  rw [serverLine, uncomment_of_not_hash hhash, splitOnce_append (by decide)]
  dsimp only
  rw [if_pos (by decide), hvalue, List.splitOn_cons_eq_if_modifyHead]
  simp only [BEq.rfl, if_true]
  rw [List.splitOn_append_cons_self_of_not_mem hslash, List.splitOn_eq_singleton hipSlash]
  rfl

include htld in
/-- The `dnsmasq` file has one server, for one domain. -/
theorem dnsmasqServers_networkmanagerDnsmasqConf :
    dnsmasqServers (networkmanagerDnsmasqConf ip tld) = [([tld], ip.fmt)] := by
  have hlines : ∀ line ∈ ["# ".toList ++ marker,
      "server".toList ++ '=' :: '/' :: (tld ++ '/' :: ip.fmt)], '\n' ∉ line := by
    have htldLine := forall_mem_of_isSafeTld (P := fun c => '\n' ≠ c) htld (by decide)
    have hipLine := Ipv4Addr.forall_mem_fmt ip (P := fun c => '\n' ≠ c) (by decide)
    intro line hline
    rcases List.mem_pair.mp hline with rfl | rfl
    · exact newline_not_mem_markerLine
    intro hmem
    rcases List.mem_append.mp hmem with hmem | hmem
    · exact absurd hmem (by decide)
    simp only [List.mem_cons, List.mem_append] at hmem
    rcases hmem with h | h | h | h | h
    · cases h
    · cases h
    · exact htldLine _ h rfl
    · cases h
    · exact hipLine _ h rfl
  have hmarker : serverLine ("# ".toList ++ marker) = none := by decide +kernel
  rw [dnsmasqServers, networkmanagerDnsmasqConf_eq, splitOn_unlines hlines, List.cons_append,
    List.filterMap_cons_none hmarker, List.cons_append,
    List.filterMap_cons_some (serverLine_networkmanagerDnsmasqConf ip htld)]
  rfl

/-- The resolver file has one name server. -/
theorem resolverServers_resolverFileContent :
    resolverServers (resolverFileContent ip) = [ip.fmt] := by
  have hlines : ∀ line ∈ ["# ".toList ++ marker, "nameserver".toList ++ ' ' :: ip.fmt],
      '\n' ∉ line := by
    have hipLine := Ipv4Addr.forall_mem_fmt ip (P := fun c => '\n' ≠ c) (by decide)
    intro line hline
    rcases List.mem_pair.mp hline with rfl | rfl
    · exact newline_not_mem_markerLine
    intro hmem
    rcases List.mem_append.mp hmem with hmem | hmem
    · exact absurd hmem (by decide)
    rcases List.mem_cons.mp hmem with h | h
    · cases h
    · exact hipLine _ h rfl
  have hmarker : nameserverLine ("# ".toList ++ marker) = none := by decide +kernel
  have hwords : lineWords ("nameserver".toList ++ ' ' :: ip.fmt) =
      ["nameserver".toList, ip.fmt] := by
    rw [lineWords, List.splitOnP_append_cons_of_forall_mem (by decide) ' ' (by decide),
      List.splitOnP_eq_singleton (ipWord ip).2]
    simp [(ipWord ip).1]
  have hline : nameserverLine ("nameserver".toList ++ ' ' :: ip.fmt) = some ip.fmt := by
    rw [nameserverLine, hwords]
    rfl
  rw [resolverServers, resolverFileContent_eq, splitOn_unlines hlines, List.cons_append,
    List.filterMap_cons_none hmarker, List.cons_append, List.filterMap_cons_some hline]
  rfl

end Artifact

end DigDns.OsConfig
