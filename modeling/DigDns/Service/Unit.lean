import DigDns.Service
import DigDns.Support.UnitFile

/-!
# The unit of the service

`linux_unit_contents` of `service.rs` writes the environment of the plan into a
unit file, value by value and without quoting.  Read back as `systemd` reads it,
the environment is that of the plan exactly when the node's address holds
nothing that the reader cuts, groups or expands.
-/

namespace DigDns

open Rust UnitFile

/-- `NET_BIND_CAPABILITY` -/
def netBindCapability : Str := "CAP_NET_BIND_SERVICE".toList

/-- The settings of the `Unit` group. -/
def unitGroup : List (Str × Str) := [
  ("Description".toList, serviceDisplayName ++
    " — local *.dig resolver (DNS responder + HTTP gateway)".toList),
  ("Documentation".toList, "https://docs.dig.net".toList),
  ("After".toList, "network-online.target".toList),
  ("Wants".toList, "network-online.target".toList)]

/-- The settings before `ExecStart`. -/
def typeSettings : List (Str × Str) := [("Type".toList, "simple".toList)]

/-- The settings that follow `ExecStart`. -/
def restartSettings : List (Str × Str) := [
  ("Restart".toList, "on-failure".toList),
  ("RestartSec".toList, "5".toList)]

/-- The settings that follow the first comment. -/
def privilegeSettings : List (Str × Str) := [
  ("AmbientCapabilities".toList, netBindCapability),
  ("CapabilityBoundingSet".toList, netBindCapability),
  ("StateDirectory".toList, "dig-dns".toList),
  ("NoNewPrivileges".toList, "true".toList),
  ("ProtectSystem".toList, "full".toList)]

/-- The settings that follow the second comment. -/
def homeSettings : List (Str × Str) := [
  ("ProtectHome".toList, "read-only".toList),
  ("PrivateTmp".toList, "true".toList)]

/-- The comment on the capabilities. -/
def privilegeComment : List Str := [
  "# Runs as root so ExecStart can reach the root-owned binary copy (#565); privilege is".toList,
  "# then bounded to exactly the loopback :53/:80 bind (#177).".toList]

/-- The comment on the home directories. -/
def homeComment : List Str := [
  "# read-only: the service holds no secret material and never needs to write a home dir;".toList,
  ("# read-only blocks writes while still allowing reads, a harmless defensive default (#528)."
    ).toList]

/-- The line of `ExecStart`. -/
def execSetting (plan : InstallPlan) : Str × Str :=
  ("ExecStart".toList, plan.program ++ ' ' :: [' '].intercalate plan.args)

/-- The line of a variable. -/
def environmentSetting (entry : Str × Str) : Str × Str :=
  ("Environment".toList, entry.1 ++ '=' :: entry.2)

/-- The lines that start the service with the machine. -/
def wantedByLines (autostart : Bool) : List Str :=
  if autostart then
    [[], "[Install]".toList, settingLine ("WantedBy".toList, "multi-user.target".toList)]
  else []

/-- `linux_unit_contents` -/
def linuxUnitContents (plan : InstallPlan) : Str :=
  unlines (
    "[Unit]".toList :: (unitGroup.map settingLine ++
    [] :: "[Service]".toList :: (typeSettings.map settingLine ++
    settingLine (execSetting plan) :: (restartSettings.map settingLine ++
    (privilegeComment ++ (privilegeSettings.map settingLine ++
    (homeComment ++ (homeSettings.map settingLine ++
    ((plan.environment.map environmentSetting).map settingLine ++
      wantedByLines plan.autostart)))))))))

/-- Settings in one group. -/
def inGroup (group : Str) (settings : List (Str × Str)) : List Setting :=
  settings.map fun setting => ⟨group, setting.1, setting.2⟩

/-- The settings that the template stands for. -/
def templateSettings (plan : InstallPlan) : List Setting :=
  inGroup "Unit".toList unitGroup ++
  (inGroup "Service".toList (typeSettings ++
    ("ExecStart".toList, strip (execSetting plan).2) ::
    (restartSettings ++ (privilegeSettings ++ (homeSettings ++
    plan.environment.map environmentSetting)))) ++
  [⟨"Install".toList, "WantedBy".toList, "multi-user.target".toList⟩])

/-! ## Reading the unit back -/

theorem isClean_unitGroup : ∀ s ∈ unitGroup, IsClean s := by
  refine List.forall_mem_cons.mpr ⟨?_, List.forall_mem_cons.mpr ⟨?_,
    List.forall_mem_cons.mpr ⟨?_, List.forall_mem_singleton.mpr ?_⟩⟩⟩
  · exact of_literal (fun d => IsClean ("Description".toList, serviceDisplayName ++ d)) (by decide)
  · exact isClean_literal (by decide)
  · exact isClean_literal (by decide)
  · exact isClean_literal (by decide)

theorem isClean_restartSettings : ∀ s ∈ restartSettings, IsClean s :=
  List.forall_mem_cons.mpr
    ⟨isClean_literal (by decide), List.forall_mem_singleton.mpr (isClean_literal (by decide))⟩

theorem isClean_privilegeSettings : ∀ s ∈ privilegeSettings, IsClean s := by
  refine List.forall_mem_cons.mpr ⟨?_, List.forall_mem_cons.mpr ⟨?_, List.forall_mem_cons.mpr ⟨?_,
    List.forall_mem_cons.mpr ⟨?_, List.forall_mem_singleton.mpr ?_⟩⟩⟩⟩
  · exact isClean_literal (by decide)
  · exact isClean_literal (by decide)
  · exact isClean_literal (by decide)
  · exact isClean_literal (by decide)
  · exact isClean_literal (by decide)

theorem isClean_homeSettings : ∀ s ∈ homeSettings, IsClean s :=
  List.forall_mem_cons.mpr
    ⟨isClean_literal (by decide), List.forall_mem_singleton.mpr (isClean_literal (by decide))⟩

/-- A line that sets nothing. -/
def IsIgnored (l : Str) : Prop := readStripped (strip l) = .nothing ∧ '\n' ∉ l

theorem isIgnored_privilegeComment : ∀ l ∈ privilegeComment, IsIgnored l :=
  List.forall_mem_cons.mpr ⟨of_literal IsIgnored ⟨by decide, by decide⟩,
    List.forall_mem_singleton.mpr (of_literal IsIgnored ⟨by decide, by decide⟩)⟩

theorem isIgnored_homeComment : ∀ l ∈ homeComment, IsIgnored l :=
  List.forall_mem_cons.mpr ⟨of_literal IsIgnored ⟨by decide, by decide⟩,
    List.forall_mem_singleton.mpr (of_literal IsIgnored ⟨by decide, by decide⟩)⟩

theorem isClean_typeSettings : ∀ s ∈ typeSettings, IsClean s :=
  List.forall_mem_singleton.mpr (isClean_literal (by decide))

theorem newline_not_mem_settings {settings : List (Str × Str)} (h : ∀ s ∈ settings, IsClean s) :
    ∀ l ∈ settings.map settingLine, '\n' ∉ l :=
  List.forall_mem_map.mpr fun s hs => (h s hs).newline_not_mem

theorem isClean_wantedBy : ∀ s ∈ [("WantedBy".toList, "multi-user.target".toList)], IsClean s :=
  List.forall_mem_singleton.mpr (isClean_literal (by decide))

theorem readLines_wantedBy (group : Str) :
    readLines group (wantedByLines true) =
      [⟨"Install".toList, "WantedBy".toList, "multi-user.target".toList⟩] := by
  have hnothing : readStripped (strip []) = .nothing := rfl
  have hinstall : readStripped (strip "[Install]".toList) = .header "Install".toList := by decide
  rw [wantedByLines, if_pos rfl, readLines, hnothing]
  exact (readLines_header group _ hinstall).trans (readLines_settings _ [] isClean_wantedBy)

/-- The arguments end visibly. -/
def HasArgs (plan : InstallPlan) : Prop :=
  ∃ c ∈ ([' '].intercalate plan.args).getLast?, isBlank c = false

theorem readStripped_exec {plan : InstallPlan} (hargs : HasArgs plan) :
    readStripped (strip (settingLine (execSetting plan))) =
      .setting "ExecStart".toList (strip (execSetting plan).2) := by
  have hkey : strip "ExecStart".toList = "ExecStart".toList := by decide
  have hstart : ∃ c ∈ "ExecStart".toList.head?,
      isBlank c = false ∧ c ≠ '#' ∧ c ≠ ';' ∧ c ≠ '[' := by decide
  have hequals : '=' ∉ "ExecStart".toList := by decide
  have hlast : ∃ c ∈ (execSetting plan).2.getLast?, isBlank c = false :=
    endsVisibly_append _ _ hargs
  exact (readStripped_settingLine hstart hlast hequals).trans (congrArg (Line.setting · _) hkey)

/-- The service group. -/
theorem readLines_service (group : Str) {plan : InstallPlan} (ls : List Str)
    (hargs : HasArgs plan)
    (henvironment : ∀ entry ∈ plan.environment, IsClean (environmentSetting entry)) :
    readLines group (typeSettings.map settingLine ++
      settingLine (execSetting plan) :: (restartSettings.map settingLine ++
      (privilegeComment ++ (privilegeSettings.map settingLine ++
      (homeComment ++ (homeSettings.map settingLine ++
      ((plan.environment.map environmentSetting).map settingLine ++ ls))))))) =
    inGroup group (typeSettings ++ ("ExecStart".toList, strip (execSetting plan).2) :: (restartSettings ++
      (privilegeSettings ++ (homeSettings ++ plan.environment.map environmentSetting)))) ++
      readLines group ls := by
  rw [readLines_settings _ _ isClean_typeSettings, readLines_setting _ _ (readStripped_exec hargs),
    readLines_settings _ _ isClean_restartSettings,
    readLines_ignored _ _ fun l hl => (isIgnored_privilegeComment l hl).1,
    readLines_settings _ _ isClean_privilegeSettings,
    readLines_ignored _ _ fun l hl => (isIgnored_homeComment l hl).1,
    readLines_settings _ _ isClean_homeSettings,
    readLines_settings _ _ (List.forall_mem_map.mpr henvironment)]
  simp only [inGroup, List.map_append, List.map_cons, List.append_assoc, List.cons_append]

/-- Two groups of lines under their headers. -/
theorem readLines_groups (group : Str) {header header' name name' : Str}
    {settings : List (Str × Str)} (ls : List Str)
    (hheader : readStripped (strip header) = .header name)
    (hsettings : ∀ s ∈ settings, IsClean s)
    (hheader' : readStripped (strip header') = .header name') :
    readLines group (header :: (settings.map settingLine ++ [] :: header' :: ls)) =
      inGroup name settings ++ readLines name' ls := by
  have hnothing : readStripped (strip []) = .nothing := rfl
  rw [readLines_header _ _ hheader, readLines_settings _ _ hsettings, readLines, hnothing]
  exact congrArg _ (readLines_header _ _ hheader')

theorem newline_not_mem_unit {plan : InstallPlan} (hexec : '\n' ∉ (execSetting plan).2)
    (henvironment : ∀ entry ∈ plan.environment, IsClean (environmentSetting entry)) :
    ∀ l ∈ "[Unit]".toList :: (unitGroup.map settingLine ++
      [] :: "[Service]".toList :: (typeSettings.map settingLine ++
      settingLine (execSetting plan) :: (restartSettings.map settingLine ++
      (privilegeComment ++ (privilegeSettings.map settingLine ++
      (homeComment ++ (homeSettings.map settingLine ++
      ((plan.environment.map environmentSetting).map settingLine ++
        wantedByLines plan.autostart)))))))), '\n' ∉ l := by
  have hline : '\n' ∉ settingLine (execSetting plan) := by
    have hkey : '\n' ∉ "ExecStart".toList := by decide
    intro hmem
    rcases List.mem_append.mp hmem with hmem | hmem
    · exact hkey hmem
    · rcases List.mem_cons.mp hmem with hmem | hmem
      · exact absurd hmem (by decide)
      · exact hexec hmem
  have hwanted : ∀ l ∈ wantedByLines plan.autostart, '\n' ∉ l := by
    have hinstall : '\n' ∉ "[Install]".toList := by decide
    cases plan.autostart with
    | true =>
        exact List.forall_mem_cons.mpr ⟨List.not_mem_nil, List.forall_mem_cons.mpr ⟨hinstall,
          newline_not_mem_settings isClean_wantedBy⟩⟩
    | false => exact List.forall_mem_nil _
  refine List.forall_mem_cons.mpr ⟨by decide, List.forall_mem_append.mpr
    ⟨newline_not_mem_settings isClean_unitGroup, List.forall_mem_cons.mpr ⟨by decide,
    List.forall_mem_cons.mpr ⟨by decide, List.forall_mem_append.mpr
    ⟨newline_not_mem_settings isClean_typeSettings, List.forall_mem_cons.mpr ⟨hline,
    List.forall_mem_append.mpr ⟨newline_not_mem_settings isClean_restartSettings,
    List.forall_mem_append.mpr ⟨fun l hl => (isIgnored_privilegeComment l hl).2,
    List.forall_mem_append.mpr ⟨newline_not_mem_settings isClean_privilegeSettings,
    List.forall_mem_append.mpr ⟨fun l hl => (isIgnored_homeComment l hl).2,
    List.forall_mem_append.mpr ⟨newline_not_mem_settings isClean_homeSettings,
    List.forall_mem_append.mpr
      ⟨newline_not_mem_settings (List.forall_mem_map.mpr henvironment), hwanted⟩⟩⟩⟩⟩⟩⟩⟩⟩⟩⟩⟩

/-- The unit has the settings of the template and no others. -/
theorem read_linuxUnitContents {plan : InstallPlan} (hargs : HasArgs plan)
    (hautostart : plan.autostart = true) (hexec : '\n' ∉ (execSetting plan).2)
    (henvironment : ∀ entry ∈ plan.environment, IsClean (environmentSetting entry)) :
    UnitFile.read (linuxUnitContents plan) = templateSettings plan := by
  have hunit : readStripped (strip "[Unit]".toList) = .header "Unit".toList := by decide
  have hservice : readStripped (strip "[Service]".toList) = .header "Service".toList := by decide
  have hwanted : ∀ group, readLines group (wantedByLines plan.autostart) =
      [⟨"Install".toList, "WantedBy".toList, "multi-user.target".toList⟩] := by
    rw [hautostart]
    exact readLines_wantedBy
  refine (read_unlines (newline_not_mem_unit hexec henvironment)).trans ?_
  refine (readLines_groups [] _ hunit isClean_unitGroup hservice).trans (congrArg _ ?_)
  refine (readLines_service _ _ hargs henvironment).trans (congrArg _ ?_)
  exact hwanted _

/-! ## The environment of the unit -/

theorem environment_append (specifier : Char → Option Str) (as bs : List Setting) :
    environment specifier (as ++ bs) = environment specifier as ++ environment specifier bs :=
  List.flatMap_append

theorem environment_inGroup (specifier : Char → Option Str) (group : Str)
    (settings : List (Str × Str)) :
    environment specifier (inGroup group settings) = settings.flatMap fun s =>
      if group = "Service".toList ∧ s.1 = "Environment".toList then assignments specifier s.2
      else [] := by
  rw [environment, inGroup, List.flatMap_map]

/-- Only the variables of the template are read as variables. -/
theorem environment_inGroup_eq_nil {specifier : Char → Option Str} {group : Str}
    {settings : List (Str × Str)}
    (h : ∀ s ∈ settings, ¬(group = "Service".toList ∧ s.1 = "Environment".toList)) :
    environment specifier (inGroup group settings) = [] := by
  rw [environment_inGroup]
  exact List.flatMap_eq_nil_iff.mpr fun s hs => if_neg (h s hs)

theorem environment_variables (specifier : Char → Option Str) (entries : List (Str × Str)) :
    environment specifier (inGroup "Service".toList (entries.map environmentSetting)) =
      entries.flatMap fun entry => assignments specifier (entry.1 ++ '=' :: entry.2) := by
  rw [environment_inGroup, List.flatMap_map]
  exact List.flatMap_congr fun entry _ => if_pos ⟨rfl, rfl⟩

/-- The settings of the service before its variables. -/
def serviceSettings (plan : InstallPlan) : List (Str × Str) :=
  typeSettings ++ ("ExecStart".toList, strip (execSetting plan).2) ::
    (restartSettings ++ (privilegeSettings ++ homeSettings))

theorem key_ne_environment (plan : InstallPlan) :
    ∀ s ∈ serviceSettings plan, s.1 ≠ "Environment".toList := by
  have hkeys : ∀ key ∈ (serviceSettings plan).map Prod.fst, key ≠ "Environment".toList := by
    change ∀ key ∈ ["Type".toList, "ExecStart".toList, "Restart".toList, "RestartSec".toList,
      "AmbientCapabilities".toList, "CapabilityBoundingSet".toList, "StateDirectory".toList,
      "NoNewPrivileges".toList, "ProtectSystem".toList, "ProtectHome".toList,
      "PrivateTmp".toList], key ≠ "Environment".toList
    decide
  exact fun s hs => hkeys s.1 (List.mem_map_of_mem hs)

theorem environment_template (specifier : Char → Option Str) (plan : InstallPlan) :
    environment specifier (templateSettings plan) =
      plan.environment.flatMap fun entry => assignments specifier (entry.1 ++ '=' :: entry.2) := by
  have hsplit : templateSettings plan = inGroup "Unit".toList unitGroup ++
      (inGroup "Service".toList (serviceSettings plan) ++
      (inGroup "Service".toList (plan.environment.map environmentSetting) ++
      inGroup "Install".toList [("WantedBy".toList, "multi-user.target".toList)])) := by
    simp only [templateSettings, serviceSettings, inGroup, List.map_append, List.map_cons,
      List.append_assoc, List.cons_append, List.map_nil]
  have hunit : "Unit".toList ≠ "Service".toList := by decide
  have hinstall : "Install".toList ≠ "Service".toList := by decide
  rw [hsplit, environment_append, environment_append, environment_append, environment_variables,
    environment_inGroup_eq_nil fun s _ hboth => hunit hboth.1,
    environment_inGroup_eq_nil fun s hs hboth => key_ne_environment plan s hs hboth.2,
    environment_inGroup_eq_nil fun s _ hboth => hinstall hboth.1,
    List.nil_append, List.nil_append, List.append_nil]

/-! ## The values of a plan -/

/-- The node's address, where there is one to bake in. -/
def bakedNodeUrl (cfg : Config) : List (Str × Str) :=
  match cfg.nodeUrl with
  | some url => if trim url ≠ [] then [(envNodeUrl, trim url)] else []
  | none => []

theorem environment_buildPlan (windows : Bool) (cfg : Config) (program : Str) :
    (buildPlan windows cfg program).environment = bakedSettings cfg ++ bakedNodeUrl cfg := by
  rw [buildPlan, bakedNodeUrl]
  cases cfg.nodeUrl with
  | none => rfl
  | some url =>
      by_cases h : trim url = []
      · simp [h, bakedSettings]
      · simp [h, bakedSettings]

/-- A name for a variable. -/
def IsVariable (key : Str) : Prop :=
  (∃ c ∈ key.head?, isBlank c = false) ∧ '=' ∉ key ∧ '%' ∉ key ∧
    ∀ c ∈ key, isSpecial c = false

instance (key : Str) : Decidable (IsVariable key) :=
  inferInstanceAs (Decidable (_ ∧ _ ∧ _ ∧ _))

theorem isVariable_keys : ∀ key ∈ [envIp, envDnsPort, envHttpPort, envHttpFallbackPort, envTld,
    envDnsTtl, envNodeUrl], IsVariable key := by
  decide

theorem newline_not_mem_of_not_special {s : Str} (h : ∀ c ∈ s, isSpecial c = false) :
    '\n' ∉ s :=
  fun hmem => absurd (h _ hmem) (by decide)

theorem isClean_environmentSetting {key value : Str} (hkey : IsVariable key)
    (hlast : ∃ c ∈ value.getLast?, isBlank c = false) (hnewline : '\n' ∉ value) :
    IsClean (environmentSetting (key, value)) := by
  obtain ⟨hfirst, -, -, hspecial⟩ := hkey
  have hequals : '=' ∉ "Environment".toList := by decide
  have hsetting : '\n' ∉ "Environment".toList := by decide
  have hseparator : ¬ '\n' = '=' := by decide
  refine ⟨⟨'E', rfl, by decide⟩, ⟨'t', rfl, by decide⟩, startsVisibly_append _ hfirst,
    endsVisibly_append _ _ hlast, hequals, List.not_mem_append hsetting ?_⟩
  refine List.not_mem_append (newline_not_mem_of_not_special hspecial) ?_
  exact List.not_mem_cons_of_ne_of_not_mem hseparator hnewline

/-- A value of letters, digits, dots and hyphens. -/
def IsWord (value : Str) : Prop := value ≠ [] ∧ ∀ c ∈ value, 45 ≤ c.toNat

theorem not_special_of_le {c : Char} (hc : 45 ≤ c.toNat) : isSpecial c = false ∧ c ≠ '%' := by
  have hne : ∀ d : Char, d.toNat < 45 → c ≠ d := by
    rintro d hd rfl
    omega
  simp only [isSpecial, isBlank, hne ' ' (by decide), hne '\t' (by decide), hne '\r' (by decide),
    hne '\n' (by decide), hne '"' (by decide), hne '\'' (by decide), decide_false, Bool.or_self,
    true_and]
  exact hne '%' (by decide)

theorem IsWord.special {value : Str} (h : IsWord value) : ∀ c ∈ value, isSpecial c = false :=
  fun c hc => (not_special_of_le (h.2 c hc)).1

theorem IsWord.plain (letters : Char → Bool) {value : Str} (h : IsWord value) :
    Plain letters value := by
  refine ⟨h.special, ?_⟩
  refine (List.pairwise_of_forall_mem_list fun c hc d _ => ?_).isChain
  exact fun hpercent => absurd hpercent (not_special_of_le (h.2 c hc)).2

theorem IsWord.endsVisibly {value : Str} (h : IsWord value) :
    ∃ c ∈ value.getLast?, isBlank c = false := by
  have hlast := List.getLast?_eq_some_getLast h.1
  have hspecial := (not_special_of_le (h.2 _ (List.getLast_mem h.1))).1
  rw [isSpecial, Bool.or_eq_false_iff, Bool.or_eq_false_iff] at hspecial
  exact ⟨_, hlast, hspecial.1.1⟩

theorem isWord_fmtNat (n : Nat) : IsWord (fmtNat n) := by
  refine ⟨fmtNat_ne_nil n, fun c hc => ?_⟩
  exact le_trans (by decide) (Char.isDigit_iff_toNat.mp (isDigit_of_mem_fmtNat hc)).1

theorem isWord_fmt (ip : Ipv4Addr) : IsWord ip.fmt := by
  constructor
  · intro hnil
    have hone : '.' ∈ ip.fmt := by simp [Ipv4Addr.fmt]
    simp [hnil] at hone
  · intro c hc
    rcases Ipv4Addr.dot_or_isDigit_of_mem_fmt hc with rfl | hdigit
    · decide
    · exact le_trans (by decide) (Char.isDigit_iff_toNat.mp hdigit).1

theorem isWord_tld {tld : Str} (h : isSafeTld tld = true) : IsWord tld := by
  refine ⟨ne_nil_of_isSafeTld h, fun c hc => ?_⟩
  rcases range_of_isSafeTld h hc with hrange | hrange | rfl
  · omega
  · omega
  · decide

theorem isWord_bakedSettings {cfg : Config} (hvalid : cfg.Valid) :
    ∀ entry ∈ bakedSettings cfg, IsVariable entry.1 ∧ IsWord entry.2 := by
  have hkeys := isVariable_keys
  simp only [List.forall_mem_cons] at hkeys
  obtain ⟨hip, hdns, hhttp, hfallback, htld, httl, -⟩ := hkeys
  simp only [bakedSettings, List.forall_mem_cons]
  exact ⟨⟨hip, isWord_fmt _⟩, ⟨hdns, isWord_fmtNat _⟩, ⟨hhttp, isWord_fmtNat _⟩,
    ⟨hfallback, isWord_fmtNat _⟩, ⟨htld, isWord_tld hvalid.tld⟩, ⟨httl, isWord_fmtNat _⟩,
    List.forall_mem_nil _⟩

/-- A trimmed address ends visibly. -/
theorem endsVisibly_trim {url : Str} (h : trim url ≠ []) :
    ∃ c ∈ (trim url).getLast?, isBlank c = false := by
  refine ⟨_, List.getLast?_eq_some_getLast h, ?_⟩
  have hlast := List.rdropWhile_last_not isWhitespace _ h
  by_contra hblank
  simp only [isBlank, Bool.not_eq_false, Bool.or_eq_true, decide_eq_true_eq] at hblank
  apply hlast
  change isWhitespace ((trim url).getLast h) = true
  rcases hblank with ((hc | hc) | hc) | hc
  · rw [hc]; decide
  · rw [hc]; decide
  · rw [hc]; decide
  · rw [hc]; decide

theorem newline_not_mem_trim {url : Str} (h : isSafeNodeUrl url = true) : '\n' ∉ trim url := by
  intro hmem
  have hurl : '\n' ∈ url :=
    (List.dropWhile_suffix _).subset ((List.rdropWhile_prefix _ _).subset hmem)
  have hbyte : (10 : UInt8) ∈ utf8 url :=
    List.mem_flatMap.mpr ⟨'\n', hurl, by decide⟩
  simp only [isSafeNodeUrl, Bool.not_eq_true', List.any_eq_false] at h
  exact h 10 hbyte (by decide)

theorem isClean_buildPlan (windows : Bool) {cfg : Config} (program : Str) (hvalid : cfg.Valid) :
    ∀ entry ∈ (buildPlan windows cfg program).environment, IsClean (environmentSetting entry) := by
  rw [environment_buildPlan]
  refine List.forall_mem_append.mpr ⟨fun entry hentry => ?_, ?_⟩
  · obtain ⟨hkey, hword⟩ := isWord_bakedSettings hvalid entry hentry
    exact isClean_environmentSetting hkey hword.endsVisibly
      (newline_not_mem_of_not_special hword.special)
  · rw [bakedNodeUrl]
    cases hurl : cfg.nodeUrl with
    | none => exact List.forall_mem_nil _
    | some url =>
        by_cases htrim : trim url = []
        · simp [htrim]
        · simp only [ne_eq, htrim, not_false_eq_true, if_true, List.forall_mem_singleton]
          exact isClean_environmentSetting (isVariable_keys _ (by simp)) (endsVisibly_trim htrim)
            (newline_not_mem_trim (hvalid.nodeUrl url hurl))

/-- The unit has the settings of the template and no others, and on every host,
whatever its specifiers stand for, it gives the environment of the plan. -/
def SaysThePlan (letters : Char → Bool) (plan : InstallPlan) : Prop :=
  UnitFile.read (linuxUnitContents plan) = templateSettings plan ∧
  ∀ host : Char → Str,
    environment (fun c => if letters c then some (host c) else none)
      (UnitFile.read (linuxUnitContents plan)) = plan.environment

theorem read_buildPlan {cfg : Config} {program : Str} (hvalid : cfg.Valid)
    (hprogram : '\n' ∉ program) :
    UnitFile.read (linuxUnitContents (buildPlan false cfg program)) =
      templateSettings (buildPlan false cfg program) := by
  have hargs : HasArgs (buildPlan false cfg program) := by
    change ∃ c ∈ ([' '].intercalate ["serve".toList]).getLast?, isBlank c = false
    decide
  have hserve : '\n' ∉ ' ' :: [' '].intercalate ["serve".toList] := by decide
  exact read_linuxUnitContents hargs rfl (List.not_mem_append hprogram hserve)
    (isClean_buildPlan false program hvalid)

/-- The settings that every plan bakes in are read as they stand. -/
theorem assignments_bakedSettings {cfg : Config} (hvalid : cfg.Valid) (letters : Char → Bool)
    (host : Char → Str) :
    ((bakedSettings cfg).flatMap fun entry =>
      assignments (fun c => if letters c then some (host c) else none)
        (entry.1 ++ '=' :: entry.2)) = bakedSettings cfg := by
  have hone : ∀ entry ∈ bakedSettings cfg,
      assignments (fun c => if letters c then some (host c) else none)
        (entry.1 ++ '=' :: entry.2) = [entry] := by
    intro entry hentry
    obtain ⟨⟨-, hequals, hpercent, hspecial⟩, hword⟩ := isWord_bakedSettings hvalid entry hentry
    have hplain := (plain_assignment_iff hspecial hpercent).mpr (hword.plain letters)
    exact (assignments_iff hequals).mpr hplain host
  rw [List.flatMap_congr hone]
  exact List.flatMap_singleton' _

/-- The address of the node is read as it stands, on every host. -/
theorem assignments_bakedNodeUrl_iff (cfg : Config) (letters : Char → Bool) :
    (∀ host : Char → Str, ((bakedNodeUrl cfg).flatMap fun entry =>
      assignments (fun c => if letters c then some (host c) else none)
        (entry.1 ++ '=' :: entry.2)) = bakedNodeUrl cfg) ↔
      ∀ url ∈ cfg.nodeUrl, Plain letters (trim url) := by
  obtain ⟨-, hequals, hpercent, hspecial⟩ : IsVariable envNodeUrl := isVariable_keys _ (by simp)
  rw [bakedNodeUrl]
  cases cfg.nodeUrl with
  | none => simp
  | some url =>
      by_cases htrim : trim url = []
      · simp only [htrim, ne_eq, not_true_eq_false, if_false, List.flatMap_nil, Option.mem_def,
          Option.some.injEq, forall_eq']
        exact ⟨fun _ => ⟨List.forall_mem_nil _, .nil⟩, fun _ _ => trivial⟩
      · simp only [ne_eq, htrim, not_false_eq_true, if_true, List.flatMap_singleton,
          Option.mem_def, Option.some.injEq, forall_eq']
        rw [assignments_iff hequals, plain_assignment_iff hspecial hpercent]

theorem environment_buildPlan_iff {cfg : Config} {program : Str} (hvalid : cfg.Valid)
    (letters : Char → Bool) :
    (∀ host : Char → Str, environment (fun c => if letters c then some (host c) else none)
      (templateSettings (buildPlan false cfg program)) =
        (buildPlan false cfg program).environment) ↔
      ∀ url ∈ cfg.nodeUrl, Plain letters (trim url) := by
  rw [← assignments_bakedNodeUrl_iff]
  refine forall_congr' fun host => ?_
  rw [environment_template, environment_buildPlan, List.flatMap_append,
    assignments_bakedSettings hvalid, List.append_cancel_left_eq]

/-- The unit says what the plan says exactly when the trimmed address of the node
holds no blank, no quote and no specifier. -/
theorem linuxUnitContents_saysThePlan_iff {cfg : Config} (hvalid : cfg.validate = .ok ())
    {program : Str} (hprogram : '\n' ∉ program) (letters : Char → Bool) :
    SaysThePlan letters (buildPlan false cfg program) ↔
      ∀ url ∈ cfg.nodeUrl, Plain letters (trim url) := by
  have hcfg := (Config.validate_eq_ok_iff cfg).mp hvalid
  rw [SaysThePlan, read_buildPlan hcfg hprogram, environment_buildPlan_iff hcfg]
  exact and_iff_right rfl

/-- The specifiers of `systemd`. -/
def systemdSpecifiers (c : Char) : Bool :=
  "aAbBCdDEfgGhHiIjJlLmMnNopPqsStTuUvVwWyY".toList.contains c

/-- The unit of a service with a node of its own. -/
theorem linuxUnitContents_saysThePlan_home :
    SaysThePlan systemdSpecifiers (buildPlan false homeConfig linuxProgramDest) := by
  have hvalid : homeConfig.validate = .ok () := by decide +kernel
  have hprogram : '\n' ∉ linuxProgramDest :=
    linuxProgramDest_eq ▸ of_literal ('\n' ∉ ·) (by decide)
  refine (linuxUnitContents_saysThePlan_iff hvalid hprogram systemdSpecifiers).mpr ?_
  rintro url ⟨⟩
  exact ⟨by decide +kernel, by decide +kernel⟩

/-- A configuration whose node address holds a space. -/
def spacedNodeUrl : Config :=
  { Config.default with nodeUrl := some "http://n/a b".toList }

theorem linuxUnitContents_spacedNodeUrl :
    ¬∀ cfg : Config, cfg.validate = .ok () → ∀ program : Str, '\n' ∉ program →
      ∀ letters, SaysThePlan letters (buildPlan false cfg program) := by
  intro hclaim
  have hvalid : spacedNodeUrl.validate = .ok () := by rfl
  obtain ⟨hread, henvironment⟩ := hclaim spacedNodeUrl hvalid [] List.not_mem_nil fun _ => false
  rw [hread] at henvironment
  have hplain := (environment_buildPlan_iff ((Config.validate_eq_ok_iff _).mp hvalid) _).mp
    henvironment _ rfl
  have hspace : ' ' ∈ trim "http://n/a b".toList := by decide
  exact absurd (hplain.special ' ' hspace) (by decide)

end DigDns
