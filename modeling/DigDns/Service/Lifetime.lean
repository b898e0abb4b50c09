import DigDns.Service.Commands

/-!
# The life of the service

Whole histories of the service commands, where each may succeed or fail and where
between two of them the process may end or be started again.  Every history of the host
is one of the service that the caller knows; so the host never runs anything but the
unit that is on its disk, and that is the one of the last install.
-/

namespace DigDns.Service

open Rust Interaction Posix OsConfig

/-! ## Histories -/

/-- What happens to the service: a command, or nothing that a command does. -/
inductive Happening
  | ran (action : Action) (succeeded : Bool)
  | drifted

/-- Left alone, a service may end or be started again. -/
inductive Life : Option Registration → List Happening → Option Registration → Prop
  | nil (service : Option Registration) : Life service [] service
  | ran {service service' service'' : Option Registration} {history : List Happening}
      {action : Action} {succeeded : Bool} (h : Life service history service')
      (hstep : Permits service' action succeeded service'') :
      Life service (history ++ [.ran action succeeded]) service''
  | drifted {service service' service'' : Option Registration} {history : List Happening}
      (h : Life service history service')
      (hstep : service'' = service' ∨ ∃ running, service'' = withRunning running service') :
      Life service (history ++ [.drifted]) service''

/-- What may happen between two commands: the process ends, or is started again, and
other files come and go. -/
structure Drifts (host host' : LinuxHost) : Prop where
  dirs : host'.machine.files.HasDirs unitPlace
  unpackaged : Unpackaged host'.machine.files
  unit : host'.machine.files unitPlace = host.machine.files unitPlace
  loaded : host'.systemd.loaded = host.systemd.loaded
  active : host'.systemd.active = none ∨ host'.systemd.active = host.systemd.active ∨
    ∃ definition, host.systemd.loaded = some definition ∧
      host'.systemd.active = some ⟨definition, true⟩

/-- The commands that were run on a host, and what happened between them. -/
inductive Lifetime (ps : PowerShell) : LinuxHost → List Happening → LinuxHost → Prop
  | nil (host : LinuxHost) : Lifetime ps host [] host
  | ran {host host' host'' : LinuxHost} {history : List Happening} {action : Action}
      {result : Except Str ServiceOutcome} (h : Lifetime ps host history host')
      (hstep : Exec (Dependable ps) host' action.program result host'') :
      Lifetime ps host (history ++ [.ran action result.isOk]) host''
  | drifted {host host' host'' : LinuxHost} {history : List Happening}
      (h : Lifetime ps host history host') (hstep : Drifts host' host'') :
      Lifetime ps host (history ++ [.drifted]) host''

variable {ps : PowerShell} {host host' : LinuxHost} {service service' : Option Registration}
  {history : List Happening}

/-- Between two commands the service stays registered as it was. -/
theorem represents_drifts (h : Represents host service) (hdrift : Drifts host host') :
    ∃ service', (service' = service ∨ ∃ running, service' = withRunning running service) ∧
      Represents host' service' := by
  have hshows : Shows host'.machine.files (service.map Registration.plan) := by
    have hbefore := h.files.shows
    cases service with
    | none => exact hdrift.unit.trans hbefore
    | some r =>
        obtain ⟨attrs, hfile⟩ := hbefore
        exact ⟨attrs, hdrift.unit.trans hfile⟩
  have hfiles : UnitFiles host'.machine.files (service.map Registration.plan) :=
    ⟨hdrift.dirs, hdrift.unpackaged, hshows⟩
  have hloaded := hdrift.loaded.trans h.loaded
  rcases hdrift.active with hended | hsame | ⟨definition, hdefinition, hstarted⟩
  · refine ⟨withRunning false service, Or.inr ⟨false, rfl⟩, ?_, ?_, ?_, ?_⟩
    · rw [plan_withRunning]
      exact hfiles
    · rw [plan_withRunning]
      exact hloaded
    · rw [hended, process_withRunning_false]
      rfl
    · rw [hended]
      simp
  · refine ⟨service, Or.inl rfl, hfiles, hloaded, ?_, ?_⟩
    · rw [hsame]
      exact h.active
    · rw [hsame]
      exact h.stoppable
  · refine ⟨withRunning true service, Or.inr ⟨true, rfl⟩, ?_, ?_, ?_, ?_⟩
    · rw [plan_withRunning]
      exact hfiles
    · rw [plan_withRunning]
      exact hloaded
    · rw [hstarted, process_withRunning_true, ← h.loaded, hdefinition]
      rfl
    · rw [hstarted]
      simp

/-- The histories of the host are histories of the service. -/
theorem exists_life {history : List Happening} (hstart : Represents host service)
    (h : Lifetime ps host history host') :
    ∃ service', Life service history service' ∧ Represents host' service' := by
  induction h with
  | nil => exact ⟨service, .nil service, hstart⟩
  | ran h hstep ih =>
      obtain ⟨service₁, hlife, hrep⟩ := ih
      obtain ⟨service₂, hpermits, hrep₂⟩ := permits_program hrep hstep
      exact ⟨service₂, hlife.ran hpermits, hrep₂⟩
  | drifted h hstep ih =>
      obtain ⟨service₁, hlife, hrep⟩ := ih
      obtain ⟨service₂, hdrifted, hrep₂⟩ := represents_drifts hrep hstep
      exact ⟨service₂, hlife.drifted hdrifted, hrep₂⟩


/-! ## What runs -/

/-- What runs is what `systemd` has read, that is what is on the disk, and a reinstall
would find it. -/
structure InStep (host : LinuxHost) : Prop where
  read : host.systemd.loaded = unitDefinition host.machine.files
  runs : ∀ process ∈ host.systemd.active, host.systemd.loaded = some process.definition
  survivor : host.survivor = none

theorem Represents.runs (h : Represents host service) :
    ∀ process ∈ host.systemd.active, host.systemd.loaded = some process.definition := by
  intro process hprocess
  have hactive := h.active
  rw [show host.systemd.active = some process from hprocess] at hactive
  rcases process_eq_or service with hnone | ⟨hdefinition, -⟩
  · rw [hnone] at hactive
    cases hactive
  · rw [h.loaded, ← hdefinition, ← hactive]
    rfl

theorem Represents.inStep (h : Represents host service) : InStep host where
  read := h.loaded.trans h.files.unitDefinition_eq.symm
  runs := h.runs
  survivor := by
    rw [LinuxHost.survivor, h.files.isFile_eq, Option.isSome_map]
    cases hactive : host.systemd.active with
    | none =>
        simp only [Systemd.afterStop, hactive]
        split <;> rfl
    | some process =>
        have hstoppable := h.stoppable process hactive
        have hregistered : service.isSome = true := by
          have hprocess := h.active
          rw [hactive] at hprocess
          cases service with
          | none => cases hprocess
          | some r => rfl
        rw [if_pos hregistered, Systemd.afterStop, hactive, Option.filter, hstoppable]
        rfl

/-- Whatever commands were run on the host, with whatever results, and whatever happened
between them, it does not get out of step. -/
theorem lifetime_inStep (hstart : Represents host service)
    (h : Lifetime ps host history host') : InStep host' := by
  obtain ⟨service', -, hrep⟩ := exists_life hstart h
  exact hrep.inStep

/-! ## The last install -/

/-- The configuration of the last install, if no uninstall came after it. -/
def configAfter (config : Option Config) : Happening → Option Config
  | .ran (.install _ config') true => some config'
  | .ran .uninstall true => none
  | _ => config

def lastInstall (history : List Happening) : Option Config := history.foldl configAfter none

theorem lastInstall_concat (history : List Happening) (happening : Happening) :
    lastInstall (history ++ [happening]) = configAfter (lastInstall history) happening := by
  rw [lastInstall, List.foldl_append]
  rfl

/-- An install of a valid configuration, whose address of a node a unit can hold. -/
def Installable (letters : Char → Bool) (config : Config) : Prop :=
  config.validate = .ok () ∧ ∀ url ∈ config.nodeUrl, UnitFile.Plain letters (trim url)

/-- Installs succeed, with the staged program and such a configuration. -/
def IsSound (letters : Char → Bool) : Happening → Prop
  | .ran (.install staged config) succeeded =>
      succeeded = true ∧ staged = .ok linuxProgramDest ∧ Installable letters config
  | _ => True

/-- The plan that the last install leaves. -/
def lastPlan (history : List Happening) : Option InstallPlan :=
  (lastInstall history).map fun config => buildPlan false config linuxProgramDest

/-- A step leaves the plan of the last install. -/
theorem plan_of_permits {letters : Char → Bool} {action : Action} {succeeded : Bool}
    (hpermits : Permits service action succeeded service')
    (hsound : IsSound letters (.ran action succeeded))
    (hplan : service.map Registration.plan = lastPlan history) :
    service'.map Registration.plan = lastPlan (history ++ [.ran action succeeded]) := by
  rw [lastPlan, lastInstall_concat]
  cases action with
  | install staged config =>
      obtain ⟨rfl, rfl, -⟩ := hsound
      obtain ⟨program, hprogram, rfl⟩ := hpermits
      cases hprogram
      rfl
  | uninstall =>
      cases succeeded with
      | true =>
          obtain rfl : service' = none := hpermits
          rfl
      | false =>
          rcases hpermits with rfl | rfl
          · exact hplan
          · exact (plan_withRunning false service).trans hplan
  | start =>
      cases succeeded with
      | true =>
          obtain ⟨-, rfl⟩ := hpermits
          exact (plan_withRunning true service).trans hplan
      | false =>
          obtain rfl : service' = service := hpermits
          exact hplan
  | stop =>
      obtain rfl : service' = withRunning false service := by
        cases succeeded <;> exact hpermits
      exact (plan_withRunning false service).trans hplan

theorem installable_of_permits {letters : Char → Bool} {happening : Happening}
    (hsound : IsSound letters happening)
    (hlast : ∀ config ∈ lastInstall history, Installable letters config) :
    ∀ config ∈ lastInstall (history ++ [happening]), Installable letters config := by
  rw [lastInstall_concat]
  cases happening with
  | drifted => exact hlast
  | ran action succeeded =>
      cases action with
      | install staged config =>
          obtain ⟨rfl, -, hinstallable⟩ := hsound
          rintro config' hconfig
          cases hconfig
          exact hinstallable
      | uninstall =>
          cases succeeded with
          | true => exact fun config hconfig => by cases hconfig
          | false => exact hlast
      | start => exact hlast
      | stop => exact hlast

/-- A history without a failed install leaves the plan of the last one. -/
theorem Life.plan_eq {letters : Char → Bool} (h : Life none history service')
    (hsound : ∀ happening ∈ history, IsSound letters happening) :
    service'.map Registration.plan = lastPlan history ∧
      ∀ config ∈ lastInstall history, Installable letters config := by
  induction h with
  | nil => exact ⟨rfl, fun config hconfig => by cases hconfig⟩
  | ran h hstep ih =>
      obtain ⟨hbefore, hlast⟩ := List.forall_mem_append.mp hsound
      have hnow := List.forall_mem_singleton.mp hlast
      obtain ⟨hplan, hinstallable⟩ := ih hbefore
      exact ⟨plan_of_permits hstep hnow hplan, installable_of_permits hnow hinstallable⟩
  | drifted h hstep ih =>
      obtain ⟨hbefore, hlast⟩ := List.forall_mem_append.mp hsound
      obtain ⟨hplan, hinstallable⟩ := ih hbefore
      refine ⟨?_, installable_of_permits (List.forall_mem_singleton.mp hlast) hinstallable⟩
      rw [lastPlan, lastInstall_concat]
      rcases hstep with rfl | ⟨running, rfl⟩
      · exact hplan
      · exact (plan_withRunning running _).trans hplan

/-- On a host that began without the service, and where no install failed, the service is
registered if there was an install that no uninstall took back, and a process runs
the plan of the last one. -/
theorem lifetime_lastInstall {letters : Char → Bool} (hstart : Represents host none)
    (h : Lifetime ps host history host')
    (hsound : ∀ happening ∈ history, IsSound letters happening) :
    host'.machine.files.isFile (names linuxUnitFilePath) = (lastInstall history).isSome ∧
      ∀ process ∈ host'.systemd.active, ∃ config, lastInstall history = some config ∧
        StartsThePlan letters (buildPlan false config linuxProgramDest) process.definition := by
  obtain ⟨service', hlife, hrep⟩ := exists_life hstart h
  obtain ⟨hplan, hinstallable⟩ := hlife.plan_eq hsound
  refine ⟨by rw [hrep.files.isFile_eq, hplan, lastPlan, Option.isSome_map],
    fun process hprocess => ?_⟩
  have hloaded := hrep.loaded
  rw [hrep.runs process hprocess, hplan, lastPlan] at hloaded
  cases hlast : lastInstall history with
  | none =>
      rw [hlast] at hloaded
      cases hloaded
  | some config =>
      rw [hlast] at hloaded
      obtain ⟨hvalid, hplain⟩ := hinstallable config hlast
      have hstarts := (startsThePlan_linuxUnitContents_iff
        ((Config.validate_eq_ok_iff config).mp hvalid) letters).mpr hplain
      refine ⟨config, rfl, ?_⟩
      rw [Option.some.inj hloaded]
      exact hstarts

/-! ## A small host -/

/-- Nothing fails, and the caller is root. -/
def serveRoot (host : LinuxHost) : (q : LinuxCall) → LinuxAnswer q × LinuxHost
  | .os (.spawn program args) =>
      if program = "id".toList then (.ok ⟨true, "0\n".toList⟩, host)
      else serveHost host (.os (.spawn program args))
  | q => serveHost host q

/-- A host without the service. -/
def bareHost : LinuxHost where
  machine := {
    files := FileTree.makeDirs (fun _ => none) rootAttrs (names linuxUnitDir)
    rules := [] }
  systemd := ⟨none, none⟩

theorem represents_bareHost : Represents bareHost none where
  files := {
    dirs := by decide +kernel
    unpackaged := by decide +kernel
    shows := show bareHost.machine.files unitPlace = none by decide +kernel }
  loaded := rfl
  active := rfl
  stoppable := fun process hprocess => by cases hprocess

theorem stoppable_serveSystemctl (files : FileTree Attrs) (s : Systemd) (args : List Str)
    (h : ∀ process ∈ s.active, process.stoppable = true) :
    ∀ process ∈ (serveSystemctl files s args).2.active, process.stoppable = true := by
  intro process hprocess
  rw [serveSystemctl] at hprocess
  split at hprocess
  · split at hprocess
    · exact h process hprocess
    · split at hprocess
      · cases hprocess
      · exact h process hprocess
  · split at hprocess
    · split at hprocess
      · exact h process hprocess
      · cases hprocess
        rfl
      · exact h process hprocess
    · split at hprocess
      · exact h process hprocess
      · exact h process hprocess

/-- Its answers are dependable. -/
theorem dependable_serveRoot (host : LinuxHost) (q : LinuxCall) :
    Dependable PowerShell.reference host q (serveRoot host q).1 (serveRoot host q).2 := by
  cases q with
  | isFile path => exact hostAnswers_serve host (.isFile path)
  | os q =>
      have hserve := hostAnswers_serve host (.os q)
      cases q with
      | spawn program args =>
          rw [serveRoot]
          split_ifs with hid
          · refine ⟨⟨rfl, ?_⟩, fun _ => rfl, fun h => h⟩
            rw [if_neg (by rw [hid]; decide)]
          · refine ⟨hserve, fun hargs => ?_, fun h => ?_⟩
            · subst hargs
              rw [serveHost]
              split_ifs with htool
              · rw [serveSystemctl, if_neg (by simp), if_neg (by simp), if_pos rfl]
                rfl
              · rfl
            · rw [serveHost]
              split_ifs with htool
              · exact stoppable_serveSystemctl _ _ _ h
              · exact h
      | pathExists path => exact ⟨hserve, fun hpresent => hpresent⟩
      | _ => exact hserve

/-- Another resolver address. -/
def movedConfig : Config := { Config.default with loopbackIp := ⟨127, 0, 0, 9⟩ }

def firstInstall : Action := .install (.ok linuxProgramDest) Config.default

def secondInstall : Action := .install (.ok linuxProgramDest) movedConfig

/-- The host after an install. -/
def installedOnce : LinuxHost := (firstInstall.program.eval serveRoot bareHost).2

/-- The host after a second one, with a stop between them. -/
def installedTwice : LinuxHost :=
  (secondInstall.program.eval serveRoot
    (Action.stop.program.eval serveRoot installedOnce).2).2

def twoInstalls : List Happening :=
  [.ran firstInstall true, .ran .stop true, .ran secondInstall true]

/-- A command that succeeds on this host goes into its history. -/
theorem Lifetime.serve (h : Lifetime PowerShell.reference host history host') {action : Action}
    (hok : (action.program.eval serveRoot host').1.isOk = true) :
    Lifetime PowerShell.reference host (history ++ [.ran action true])
      (action.program.eval serveRoot host').2 := by
  rw [← hok]
  exact h.ran (exec_eval dependable_serveRoot host' action.program)

theorem lifetime_installedTwice :
    Lifetime PowerShell.reference bareHost twoInstalls installedTwice :=
  (((Lifetime.nil bareHost).serve (by decide +kernel)).serve (by decide +kernel)).serve
    (by decide +kernel)

theorem lifetime_inStep_twice :
    installedTwice.systemd.active.isSome = true ∧ InStep installedTwice :=
  ⟨by decide +kernel, lifetime_inStep represents_bareHost lifetime_installedTwice⟩

theorem isSound_twoInstalls : ∀ happening ∈ twoInstalls, IsSound systemdSpecifiers happening := by
  intro happening hmem
  simp only [twoInstalls, List.mem_cons, List.not_mem_nil, or_false] at hmem
  rcases hmem with rfl | rfl | rfl
  · exact ⟨rfl, rfl, by decide +kernel, fun url hurl => by cases hurl⟩
  · trivial
  · exact ⟨rfl, rfl, by decide +kernel, fun url hurl => by cases hurl⟩

/-- The second install is taken over. -/
theorem lifetime_lastInstall_twice : ∃ process ∈ installedTwice.systemd.active,
    StartsThePlan systemdSpecifiers (buildPlan false movedConfig linuxProgramDest)
      process.definition := by
  have hactive : installedTwice.systemd.active.isSome = true := by decide +kernel
  obtain ⟨process, hprocess⟩ := Option.isSome_iff_exists.mp hactive
  obtain ⟨config, hconfig, hstarts⟩ := (lifetime_lastInstall represents_bareHost
    lifetime_installedTwice isSound_twoInstalls).2 process hprocess
  obtain rfl : movedConfig = config := Option.some.inj hconfig
  exact ⟨process, hprocess, hstarts⟩

end DigDns.Service
