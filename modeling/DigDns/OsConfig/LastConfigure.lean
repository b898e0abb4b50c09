import DigDns.OsConfig.Routes
import DigDns.OsConfig.Uninstall

/-!
# The last configuration

Where the artifacts send the names of a TLD after runs of `configure-os` and
`unconfigure-os` that end with `configure-os`.  A file is overwritten, so it has
the last address.  A Windows rule is only added when there is none, so it keeps
the first address since the rules were last removed.
-/

namespace DigDns.OsConfig

open Rust Interaction Posix

/-- The artifacts of a machine send the names of a TLD to an address. -/
def Routes (psEq : Str → Str → Bool) (os : Os) (owner : ResolvOwner) (m : Machine)
    (tld address : Str) : Prop :=
  match os, owner with
  | .linux, .systemdResolved =>
      ∃ text, m.files.read (names linuxResolvedDropin) = some (utf8 text) ∧
        tld ∈ (dropinDomains text).map Prod.snd ∧ address ∈ dropinServers text
  | .linux, .networkManagerDnsmasq =>
      ∃ text, m.files.read (names linuxNmDnsmasqConf) = some (utf8 text) ∧
        ∃ server ∈ dnsmasqServers text, tld ∈ server.1 ∧ address = server.2
  | .macos, _ =>
      ∃ text, m.files.read (names (macosResolverPath tld)) = some (utf8 text) ∧
        address ∈ resolverServers text
  | .windows, _ =>
      ∃ rule ∈ m.rules, (rule.namespaces.any fun ns => psEq ns ('.' :: tld)) = true ∧
        address = rule.nameServers
  | _, _ => False

/-! ## Files -/

/-- What is written is read. -/
theorem Written.read {path content : Str} {m m' : Machine} (h : Written path content m m') :
    m'.files.read (names path) = some (utf8 content) := by
  rcases h with ⟨rfl, -, hread⟩ | ⟨dir, files, place, attrs, -, hplace, hstop, rfl⟩
  · exact hread
  · refine FileTree.read_of_locate ?_ (FileTree.set_self ..)
    rw [FileTree.locate_set_file hstop, hplace]

section Files

variable {psEq : Str → Str → Bool} {ps : PowerShell} {ip ourIp : Ipv4Addr} {tld : Str}
  {m m' : Machine}

/-- After a text is read, the routes are those of the text. -/
theorem exists_text_iff {files : FileTree Attrs} {path content : Str} {P : Str → Prop}
    (hread : files.read (names path) = some (utf8 content)) :
    (∃ text, files.read (names path) = some (utf8 text) ∧ P text) ↔ P content := by
  constructor
  · rintro ⟨text, htext, hholds⟩
    rw [hread, Option.some.injEq] at htext
    rwa [utf8_injective htext]
  · exact fun hholds => ⟨content, hread, hholds⟩

/-- Away from Windows, the plan leaves the address of its own configuration. -/
theorem routes_of_effects {os : Os} {owner : ResolvOwner} (htld : isSafeTld tld = true)
    (hos : os.isSupported = true) (hwindows : os ≠ .windows)
    (howner : os = .linux → owner ≠ .unknown)
    (h : Effects ps ourIp (configureResolverSteps os owner ip tld) m m') (address : Str) :
    Routes psEq os owner m' tld address ↔ address = ip.fmt := by
  cases os with
  | linux =>
      cases owner with
      | systemdResolved =>
          obtain ⟨m₁, hwrite, m₂, rfl, m₃, rfl, rfl⟩ := h
          obtain ⟨hservers, hdomains⟩ := dropin_systemdResolvedDropin ip htld
          rw [Routes, exists_text_iff (Written.read hwrite), hservers, hdomains]
          simp
      | networkManagerDnsmasq =>
          obtain ⟨m₁, hwrite, m₂, rfl, rfl⟩ := h
          rw [Routes, exists_text_iff (Written.read hwrite),
            dnsmasqServers_networkmanagerDnsmasqConf ip htld]
          simp
      | unknown => exact absurd rfl (howner rfl)
  | macos =>
      obtain ⟨m₁, -, m₂, -, m₃, -, m₄, -, m₅, -, m₆, hwrite, m₇, rfl, m₈, rfl, rfl⟩ := h
      rw [Routes, exists_text_iff (Written.read hwrite), resolverServers_resolverFileContent]
      simp
  | windows => exact absurd rfl hwindows
  | other name => cases hos

end Files

/-! ## Rules -/

/-- The rules for a TLD. -/
def rulesFor (psEq : Str → Str → Bool) (tld : Str) (rules : List NrptRule) : List NrptRule :=
  rules.filter fun rule => rule.namespaces.any fun ns => psEq ns ('.' :: tld)

/-- The rule for a TLD, if there is one, is the tool's own, with this address. -/
def HasStanding (psEq : Str → Str → Bool) (tld : Str) (standing : Option Ipv4Addr)
    (m : Machine) : Prop :=
  (rulesFor psEq tld m.rules).map (fun rule => (rule.nameServers, rule.comment)) =
    standing.toList.map fun ip => (ip.fmt, marker)

/-- The address of the rule for a TLD after a run, from the one before. -/
def Command.standing (tld : Str) (before : Option Ipv4Addr) : Command → Option Ipv4Addr
  | .configureOs config => if config.tld = tld then before.or (some config.loopbackIp) else before
  | .unconfigureOs _ => none

/-- The first address for a TLD since the rules were last removed. -/
def standingAddress (tld : Str) (commands : List Command) : Option Ipv4Addr :=
  commands.foldl (Command.standing tld) none

theorem rulesFor_append (psEq : Str → Str → Bool) (tld : Str) (rules rules' : List NrptRule) :
    rulesFor psEq tld (rules ++ rules') = rulesFor psEq tld rules ++ rulesFor psEq tld rules' :=
  List.filter_append ..

/-- No rule is for the TLD exactly if none stands. -/
theorem any_iff_rulesFor {psEq : Str → Str → Bool} {tld : Str} {rules : List NrptRule} :
    (rules.any fun rule => rule.namespaces.any fun ns => psEq ns ('.' :: tld)) = true ↔
      rulesFor psEq tld rules ≠ [] := by
  rw [rulesFor, ne_eq, List.filter_eq_nil_iff, List.any_eq_true]
  push Not
  exact Iff.rfl

section Rules

variable {psEq : Str → Str → Bool} {ps : PowerShell} {tld : Str} {standing : Option Ipv4Addr}
  {m m' : Machine}

/-- A rule is added for the TLD of the run, when none stands. -/
theorem HasStanding.configure (hps : WorkingPowerShell psEq ps) {config : Config}
    (htld : isSafeTld tld = true) (hconfig : isSafeTld config.tld = true)
    (hadd : ps (nrptAddPsCommand config.loopbackIp config.tld) m.rules (.ok true) m'.rules)
    (h : HasStanding psEq tld standing m) :
    HasStanding psEq tld ((Command.configureOs config).standing tld standing) m' := by
  have hadded := hps.add hconfig hadd
  rw [Command.standing]
  by_cases hsame : config.tld = tld
  · subst hsame
    rw [if_pos rfl]
    split at hadded
    · rename_i hany
      have hne := any_iff_rulesFor.mp hany
      cases standing with
      | none => exact absurd (List.map_eq_nil_iff.mp h) hne
      | some ip => rwa [HasStanding, hadded]
    · rename_i hany
      obtain ⟨name, hrules⟩ := hadded
      have hnone : rulesFor psEq config.tld m.rules = [] := by
        by_contra hne
        exact hany (any_iff_rulesFor.mpr hne)
      cases standing with
      | some ip =>
          rw [HasStanding, hnone] at h
          cases h
      | none =>
          rw [HasStanding, hrules, rulesFor_append, hnone]
          simp [rulesFor, hps.refl]
  · rw [if_neg hsame]
    split at hadded
    · rwa [HasStanding, hadded]
    · obtain ⟨name, hrules⟩ := hadded
      have hother : psEq ('.' :: config.tld) ('.' :: tld) = false := by
        rw [← Bool.not_eq_true]
        exact fun heq => hsame (hps.tld hconfig htld heq)
      rw [HasStanding, hrules, rulesFor_append]
      have hempty : rulesFor psEq tld
          [⟨name, ['.' :: config.tld], config.loopbackIp.fmt, marker⟩] = [] := by
        simp [rulesFor, hother]
      rw [hempty, List.append_nil]
      exact h

/-- The tool's own rule is removed. -/
theorem HasStanding.unconfigure (hps : WorkingPowerShell psEq ps)
    (hrules : m'.rules = m.rules.filter fun rule =>
      !(psEq rule.comment marker || psEq rule.comment legacyInstallerMarker))
    (h : HasStanding psEq tld standing m) : HasStanding psEq tld none m' := by
  have hown : ∀ rule ∈ rulesFor psEq tld m.rules, rule.comment = marker := by
    intro rule hrule
    have hpair := List.mem_map_of_mem (f := fun rule => (rule.nameServers, rule.comment)) hrule
    rw [HasStanding] at h
    rw [h] at hpair
    obtain ⟨ip, -, heq⟩ := List.mem_map.mp hpair
    exact (Prod.mk.inj heq).2.symm
  rw [HasStanding, hrules, rulesFor, List.filter_comm]
  refine List.map_eq_nil_iff.mpr (List.filter_eq_nil_iff.mpr fun rule hrule => ?_)
  rw [hown rule hrule, hps.refl]
  exact Bool.false_ne_true

end Rules

/-! ## Runs -/

section Runs

variable {psEq : Str → Str → Bool} {ps : PowerShell} {mayLink : Except Str Str → Prop}
  {mayDir : Bool → Prop} {os : Os} {owner : ResolvOwner} {paths : List Str} {m m' : Machine}

/-- A run on Windows leaves the address that stands after it. -/
theorem hasStanding_command (hps : WorkingPowerShell psEq ps) {command : Command} {tld : Str}
    {standing : Option Ipv4Addr} {r : Report} (htld : isSafeTld tld = true)
    (hvalid : command.config.validate = .ok ())
    (h : Exec (WorkingRun ps mayLink mayDir paths) m (command.prog .windows) r m')
    (hstanding : HasStanding psEq tld standing m) :
    HasStanding psEq tld (command.standing tld standing) m' := by
  have hsafe := ((Config.validate_eq_ok_iff command.config).mp hvalid).tld
  cases command with
  | configureOs config =>
      have hplan : ∀ owner, PlanWithin .windows paths
          (configureResolverSteps .windows owner config.loopbackIp config.tld) := by
        intro owner
        constructor
        · intro path content hstep
          have hwritten := written_of_write_mem hstep
          rw [written_configure] at hwritten
          cases hwritten
        · intro path hstep
          have hremoved := removedPath_of_mem hstep
          rw [removedPaths_configure] at hremoved
          cases hremoved
      obtain ⟨owner, -, m₁, ⟨-, hadd⟩, m₂, ⟨-, hflush⟩, rfl⟩ := exec_configure rfl hplan h
      rw [← hps.flush hflush] at hadd
      exact hstanding.configure hps htld hsafe hadd
  | unconfigureOs config =>
      have hplan : PlanWithin .windows paths
          (unconfigureResolverSteps .windows config.loopbackIp config.tld) := by
        constructor
        · intro path content hstep
          exact absurd hstep (write_not_mem_unconfigure _ _ _ _ _)
        · intro path hstep
          have hremoved := removedPath_of_mem hstep
          rw [removedPaths_unconfigure] at hremoved
          cases hremoved
      obtain ⟨m₁, heffects, hshrinks⟩ := exec_unconfigure rfl hplan h
      have hrules := rules_unconfigure_windows hps heffects
      rw [← hshrinks.1] at hrules
      exact hstanding.unconfigure hps hrules

/-- So do runs one after the other. -/
theorem hasStanding_runCommands (hps : WorkingPowerShell psEq ps) {commands : List Command}
    {tld : Str} {reports : List Report} (htld : isSafeTld tld = true)
    (hvalid : ∀ command ∈ commands, command.config.validate = .ok ())
    (h : Exec (WorkingRun ps mayLink mayDir paths) m (runCommands .windows commands) reports m')
    (hnone : HasStanding psEq tld none m) :
    HasStanding psEq tld (standingAddress tld commands) m' := by
  induction commands using List.reverseRecOn generalizing m' reports with
  | nil =>
      obtain ⟨-, rfl⟩ := exec_ret_iff.mp h
      exact hnone
  | append_singleton commands command ih =>
      obtain ⟨before, m₁, after, hbefore, hlast⟩ := exec_runCommands_append h
      obtain ⟨r, hcommand⟩ := exec_runCommands_singleton hlast
      rw [standingAddress, List.foldl_append]
      refine hasStanding_command hps htld (hvalid command (by simp)) hcommand ?_
      exact ih (fun c hc => hvalid c (List.mem_append_left _ hc)) hbefore

/-- The names of a TLD go to the address that stands. -/
theorem routes_of_hasStanding {tld : Str} {ip : Ipv4Addr}
    (h : HasStanding psEq tld (some ip) m) (address : Str) :
    Routes psEq .windows owner m tld address ↔ address = ip.fmt := by
  have hservers : (rulesFor psEq tld m.rules).map NrptRule.nameServers = [ip.fmt] := by
    have hfirst := congrArg (List.map Prod.fst) h
    rwa [List.map_map] at hfirst
  rw [← List.mem_singleton, ← hservers]
  constructor
  · rintro ⟨rule, hrule, hns, rfl⟩
    exact List.mem_map_of_mem (List.mem_filter.mpr ⟨hrule, hns⟩)
  · intro haddress
    obtain ⟨rule, hrule, rfl⟩ := List.mem_map.mp haddress
    obtain ⟨hmem, hns⟩ := List.mem_filter.mp hrule
    exact ⟨rule, hmem, hns, rfl⟩

/-- After runs that end with a configuration, its names go to its address and to no
other exactly if, on Windows, no other address stood for its TLD before the last run. -/
theorem runCommands_routes_iff (hps : WorkingPowerShell psEq ps) (os : Os)
    (hos : os.isSupported = true) (owner : ResolvOwner)
    (howner : os = .linux → owner ≠ .unknown ∧ ∀ link dir, mayLink link → mayDir dir →
      detectResolvOwner link.toOption dir = owner)
    (history : List Command) (cfg : Config)
    (hvalid : ∀ command ∈ history, command.config.validate = .ok ())
    (hcfg : cfg.validate = .ok ()) (m m' : Machine) (reports : List Report)
    (hforeign : ∀ rule ∈ m.rules, ∀ ns ∈ rule.namespaces, psEq ns ('.' :: cfg.tld) = false)
    (h : Exec (WorkingRun ps mayLink mayDir (artifactPaths os [cfg.tld])) m
      (runCommands os (history ++ [.configureOs cfg])) reports m') :
    (∀ address, Routes psEq os owner m' cfg.tld address ↔ address = cfg.loopbackIp.fmt) ↔
      (os = .windows → ∀ ip ∈ standingAddress cfg.tld history, ip = cfg.loopbackIp) := by
  have hsafe := ((Config.validate_eq_ok_iff cfg).mp hcfg).tld
  by_cases hwindows : os = .windows
  · subst hwindows
    have hnone : HasStanding psEq cfg.tld none m := by
      refine List.map_eq_nil_iff.mpr (List.filter_eq_nil_iff.mpr fun rule hrule => ?_)
      simpa using hforeign rule hrule
    have hall : ∀ command ∈ history ++ [.configureOs cfg],
        command.config.validate = .ok () := by
      intro command hcommand
      rcases List.mem_append.mp hcommand with hcommand | hlast
      · exact hvalid command hcommand
      · rwa [List.mem_singleton.mp hlast]
    have hstanding := hasStanding_runCommands hps hsafe hall h hnone
    rw [standingAddress, List.foldl_append, ← standingAddress, List.foldl_cons, List.foldl_nil,
      Command.standing, if_pos rfl] at hstanding
    cases hbefore : standingAddress cfg.tld history with
    | none =>
        rw [hbefore] at hstanding
        exact iff_of_true (routes_of_hasStanding hstanding) fun _ ip hip => nomatch hip
    | some ip =>
        rw [hbefore] at hstanding
        have hroutes : ∀ address, Routes psEq .windows owner m' cfg.tld address ↔
            address = ip.fmt := routes_of_hasStanding hstanding
        constructor
        · rintro hwins - _ ⟨⟩
          exact Ipv4Addr.fmt_injective ((hwins ip.fmt).mp ((hroutes ip.fmt).mpr rfl))
        · intro hsame
          rw [← hsame rfl ip rfl]
          exact hroutes
  · refine iff_of_true ?_ fun hos => absurd hos hwindows
    obtain ⟨_, m₁, _, -, hlast⟩ := exec_runCommands_append h
    obtain ⟨r, hconfigure⟩ := exec_runCommands_singleton hlast
    obtain ⟨found, hfound, heffects⟩ := exec_configure hos
      (fun owner => planWithin_configure hsafe List.mem_cons_self) hconfigure
    intro address
    have hsame : os = .linux → found = owner := by
      intro hlinux
      obtain ⟨link, dir, hlink, hdir, rfl⟩ := hfound hlinux
      exact (howner hlinux).2 link dir hlink hdir
    cases os with
    | linux =>
        rw [hsame rfl] at heffects
        exact routes_of_effects hsafe hos hwindows (fun _ => (howner rfl).1) heffects address
    | macos =>
        change Routes psEq .macos found m' cfg.tld address ↔ _
        exact routes_of_effects hsafe hos hwindows nofun heffects address
    | windows => exact absurd rfl hwindows
    | other name => cases hos

end Runs

/-! ## Two runs on Windows -/

/-- A configuration that is taken back before the address changes. -/
def movedHistory : List Command := [.configureOs Config.default, .unconfigureOs Config.default]

/-- The machine after it and a run for the new address. -/
def movedMachine : Machine :=
  ((runCommands .windows (movedHistory ++ [.configureOs nineConfig])).eval serve Machine.bare).2

/-- Then the names go to the new address, and no longer to the old one. -/
theorem runCommands_routes_moved :
    Routes eqIgnoreAsciiCase .windows .unknown movedMachine nineConfig.tld
        nineConfig.loopbackIp.fmt ∧
      ¬ Routes eqIgnoreAsciiCase .windows .unknown movedMachine nineConfig.tld
        defaultLoopbackIp.fmt := by
  have hvalid : ∀ command ∈ movedHistory, command.config.validate = .ok () := by
    intro command hcommand
    rcases List.mem_pair.mp hcommand with rfl | rfl
    · exact default_validate
    · exact default_validate
  have hrun : Exec (WorkingRun PowerShell.reference (fun _ => True) (fun _ => True)
      (artifactPaths .windows [nineConfig.tld])) Machine.bare
      (runCommands .windows (movedHistory ++ [.configureOs nineConfig])) _ movedMachine :=
    exec_serve (by decide +kernel)
  have hnone : standingAddress nineConfig.tld movedHistory = none := by decide +kernel
  have hroutes := (runCommands_routes_iff workingPowerShell_reference .windows rfl .unknown nofun
    movedHistory nineConfig hvalid nineConfig_validate Machine.bare movedMachine _
    (List.forall_mem_nil _) hrun).mpr fun _ ip hip => by simp [hnone] at hip
  refine ⟨(hroutes _).mpr rfl, fun hold => ?_⟩
  exact absurd ((hroutes _).mp hold) (by decide +kernel)

/-- When the address changes, the names still go to the old one. -/
theorem runCommands_routes_stale :
    ∃ reports m', Exec (WorkingRun PowerShell.reference (fun _ => True) (fun _ => True)
        (artifactPaths .windows [nineConfig.tld])) Machine.bare
      (runCommands .windows ([.configureOs Config.default] ++ [.configureOs nineConfig]))
        reports m' ∧
      Config.default.validate = .ok () ∧ nineConfig.validate = .ok () ∧
      Machine.bare.rules = [] ∧
      ¬∀ address, Routes eqIgnoreAsciiCase .windows .unknown m' nineConfig.tld address ↔
        address = nineConfig.loopbackIp.fmt := by
  have hrules : ((runCommands .windows
      ([.configureOs Config.default] ++ [.configureOs nineConfig])).eval serve
        Machine.bare).2.rules = [⟨[], ['.' :: defaultTld], defaultLoopbackIp.fmt, marker⟩] := by
    decide +kernel
  refine ⟨_, _, exec_serve (by decide +kernel), default_validate, nineConfig_validate, rfl,
    fun hwins => ?_⟩
  have hold : defaultLoopbackIp.fmt = nineConfig.loopbackIp.fmt := by
    refine (hwins _).mp ⟨⟨[], ['.' :: defaultTld], _, marker⟩, ?_, ?_, rfl⟩
    · rw [hrules]
      exact List.mem_singleton_self _
    · decide +kernel
  exact absurd (Ipv4Addr.fmt_injective hold) (by decide)

end DigDns.OsConfig
