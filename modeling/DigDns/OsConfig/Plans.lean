import DigDns.OsConfig

/-!
# What the plans touch

The paths that the plans of `configure-os` and `unconfigure-os` write and remove, and the
PowerShell commands that they run, system by system.
-/

namespace DigDns.OsConfig

open Rust

/-! ## Paths -/

/-- The drop-in that a plan for Linux writes. -/
def ResolvOwner.dropin : ResolvOwner → Option Str
  | systemdResolved => some linuxResolvedDropin
  | networkManagerDnsmasq => some linuxNmDnsmasqConf
  | unknown => none

/-- The paths of the artifacts of configurations with some TLDs. -/
def artifactPaths (os : Os) (tlds : List Str) : List Str :=
  match os with
  | .linux => [linuxResolvedDropin, linuxNmDnsmasqConf]
  | .macos => macosLo0Plist :: tlds.map macosResolverPath
  | _ => []

/-- The paths that a plan of `configure-os` writes. -/
def writtenPaths (os : Os) (owner : ResolvOwner) (tld : Str) : List Str :=
  if os = .linux then owner.dropin.toList else artifactPaths os [tld]

/-- The paths of the artifacts and of the browser policies. -/
def ownPaths (os : Os) (tld : Str) : List Str :=
  artifactPaths os [tld] ++
    match os with
    | .linux => [linuxChromePolicy, linuxChromiumPolicy]
    | .macos => [macosChromePlist]
    | _ => []

theorem mem_ownPaths_of_artifact {os : Os} {tld path : Str} (h : path ∈ artifactPaths os [tld]) :
    path ∈ ownPaths os tld :=
  List.mem_append_left _ h

theorem artifactPaths_subset {os : Os} {tld path : Str} {tlds : List Str} (hmem : tld ∈ tlds)
    (hpath : path ∈ artifactPaths os [tld]) : path ∈ artifactPaths os tlds := by
  cases os with
  | macos =>
      rcases List.mem_pair.mp hpath with rfl | rfl
      · exact List.mem_cons_self
      · exact List.mem_cons_of_mem _ (List.mem_map_of_mem hmem)
  | _ => exact hpath

/-! ## Steps -/

/-- What a step writes. -/
def Step.written : Step → Option (Str × Str)
  | .write path content => some (path, content)
  | _ => none

/-- What a plan writes. -/
theorem written_configure (os : Os) (owner : ResolvOwner) (ip : Ipv4Addr) (tld : Str) :
    (configureResolverSteps os owner ip tld).filterMap Step.written =
      match os, owner with
      | .linux, .systemdResolved => [(linuxResolvedDropin, systemdResolvedDropin ip tld)]
      | .linux, .networkManagerDnsmasq =>
          [(linuxNmDnsmasqConf, networkmanagerDnsmasqConf ip tld)]
      | .macos, _ => [(macosLo0Plist, launchdLo0AliasPlist ip),
          (macosResolverPath tld, resolverFileContent ip)]
      | _, _ => [] := by
  cases os with
  | linux => cases owner <;> rfl
  | _ => rfl

theorem written_of_write_mem {steps : List Step} {path content : Str}
    (h : .write path content ∈ steps) : (path, content) ∈ steps.filterMap Step.written :=
  List.mem_filterMap.mpr ⟨_, h, rfl⟩

/-- The paths of a plan are the named ones. -/
theorem mem_writtenPaths_of_write {os : Os} {owner : ResolvOwner} {ip : Ipv4Addr}
    {tld path content : Str} (h : .write path content ∈ configureResolverSteps os owner ip tld) :
    path ∈ writtenPaths os owner tld := by
  have hmem := written_of_write_mem h
  rw [written_configure] at hmem
  cases os with
  | linux =>
      cases owner with
      | systemdResolved =>
          cases List.mem_singleton.mp hmem
          exact List.mem_singleton_self _
      | networkManagerDnsmasq =>
          cases List.mem_singleton.mp hmem
          exact List.mem_singleton_self _
      | unknown => cases hmem
  | macos =>
      rcases List.mem_pair.mp hmem with hplist | hresolver
      · cases hplist
        exact List.mem_cons_self
      · cases hresolver
        exact List.mem_cons_of_mem _ List.mem_cons_self
  | windows => cases hmem
  | other name => cases hmem

/-- The path that a step empties. -/
def Step.removedPath : Step → Option Str
  | .removeOurs path => some path
  | _ => none

theorem removedPath_of_mem {steps : List Step} {path : Str} (h : .removeOurs path ∈ steps) :
    path ∈ steps.filterMap Step.removedPath :=
  List.mem_filterMap.mpr ⟨_, h, rfl⟩

/-- `unconfigure-os` looks at all paths of the artifacts of its own TLD. -/
theorem removedPaths_unconfigure (os : Os) (ip : Ipv4Addr) (tld : Str) :
    (unconfigureResolverSteps os ip tld).filterMap Step.removedPath = artifactPaths os [tld] := by
  cases os <;> rfl

theorem removedPaths_configure (os : Os) (owner : ResolvOwner) (ip : Ipv4Addr) (tld : Str) :
    (configureResolverSteps os owner ip tld).filterMap Step.removedPath = [] := by
  cases os with
  | linux => cases owner <;> rfl
  | _ => rfl

/-- The command of a step that is recorded, and of one that is not. -/
def Step.psCommand : Step → Option Str
  | .ps command _ _ => some command
  | _ => none

def Step.psExecCommand : Step → Option Str
  | .psExec command => some command
  | _ => none

/-- Only the plans for Windows have commands: one for the rules, and the flush. -/
theorem psCommands_configure (os : Os) (owner : ResolvOwner) (ip : Ipv4Addr) (tld : Str) :
    (configureResolverSteps os owner ip tld).filterMap Step.psCommand =
      if os = .windows then [nrptAddPsCommand ip tld] else [] := by
  cases os with
  | linux => cases owner <;> rfl
  | _ => rfl

theorem psExecCommands_configure (os : Os) (owner : ResolvOwner) (ip : Ipv4Addr) (tld : Str) :
    (configureResolverSteps os owner ip tld).filterMap Step.psExecCommand =
      if os = .windows then [clearDnsClientCache] else [] := by
  cases os with
  | linux => cases owner <;> rfl
  | _ => rfl

theorem psCommands_unconfigure (os : Os) (ip : Ipv4Addr) (tld : Str) :
    (unconfigureResolverSteps os ip tld).filterMap Step.psCommand =
      if os = .windows then [nrptRemovePsCommand] else [] := by
  cases os <;> rfl

theorem psExecCommands_unconfigure (os : Os) (ip : Ipv4Addr) (tld : Str) :
    (unconfigureResolverSteps os ip tld).filterMap Step.psExecCommand =
      if os = .windows then [clearDnsClientCache] else [] := by
  cases os <;> rfl

section Commands

variable {steps : List Step} {os : Os} {text command label : Str} {bucket : Bucket}

/-- A command of a plan is the one that its system has. -/
theorem windows_of_ps_mem
    (hsteps : steps.filterMap Step.psCommand = if os = .windows then [text] else [])
    (h : .ps command label bucket ∈ steps) : os = .windows ∧ command = text := by
  have hmem : command ∈ steps.filterMap Step.psCommand := List.mem_filterMap.mpr ⟨_, h, rfl⟩
  rw [hsteps] at hmem
  split at hmem
  · exact ⟨‹_›, List.mem_singleton.mp hmem⟩
  · cases hmem

theorem windows_of_psExec_mem
    (hsteps : steps.filterMap Step.psExecCommand = if os = .windows then [text] else [])
    (h : .psExec command ∈ steps) : os = .windows ∧ command = text := by
  have hmem : command ∈ steps.filterMap Step.psExecCommand := List.mem_filterMap.mpr ⟨_, h, rfl⟩
  rw [hsteps] at hmem
  split at hmem
  · exact ⟨‹_›, List.mem_singleton.mp hmem⟩
  · cases hmem

end Commands

/-- No plan for Windows writes a file, and no plan of `unconfigure-os` does. -/
theorem ne_windows_of_write_mem {os : Os} {owner : ResolvOwner} {ip : Ipv4Addr}
    {tld path content : Str} (h : Step.write path content ∈ configureResolverSteps os owner ip tld) :
    os ≠ .windows := by
  rintro rfl
  simp [configureResolverSteps] at h

theorem write_not_mem_unconfigure (os : Os) (ip : Ipv4Addr) (tld path content : Str) :
    Step.write path content ∉ unconfigureResolverSteps os ip tld := by
  cases os <;> simp [unconfigureResolverSteps, exec]

end DigDns.OsConfig
