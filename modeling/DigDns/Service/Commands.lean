import DigDns.Probe
import DigDns.Service.TakeOver

/-!
# The service commands

`install`, `uninstall`, `start` and `stop` of `service.rs` on Linux.  For the caller
there is one thing: a service that is registered with a plan or not, and that runs or
not.  The host has a unit file, a definition that `systemd` read, and a process.  On a
dependable host each command keeps the three in step, and does to the service what
its result tells.
-/

namespace DigDns.Service

open Rust Interaction Posix OsConfig

/-! ## The commands -/

/-- `has_required_elevation` -/
def hasRequiredElevation : LinuxProg Bool := osProg (isElevated .linux)

/-- `elevation_refusal` -/
def elevationRefusal (action : Str) : Str :=
  "dig-dns: ".toList ++ action ++ " the service requires root. Re-run with sudo.".toList

/-- What `install` reports. -/
def installOutcome (config : Config) (program : Str) (report : ReinstallReport) :
    ServiceOutcome :=
  let action :=
    if report.existed then
      "reinstalled (stopped + deleted the existing service, then recreated it)".toList
    else "installed".toList
  let addr := address config.loopbackIp.fmt config.httpPort.toNat
  { summary := "dig-dns: ".toList ++ action ++ " as a system-level service\n  id:      ".toList ++
      serviceLabel ++ "\n  display: ".toList ++ serviceDisplayName ++
      "\n  program: ".toList ++ program ++ "\n  serves:  http://".toList ++ addr ++
      " (+ DNS :".toList ++ fmtNat config.dnsPort.toNat ++
      ")\n  The service was started; check it with: dig-dns status".toList
    json := .object [
      ("installed".toList, .bool true),
      ("reinstalled".toList, .bool report.existed),
      ("started".toList, .bool report.started),
      ("label".toList, .string serviceLabel),
      ("display_name".toList, .string serviceDisplayName),
      ("scope".toList, .string "system".toList),
      ("program".toList, .string program),
      ("addr".toList, .string addr)] }

/-- `install`, where `staged` is what `stage_service_program` returns. -/
def install (staged : Except Str Str) (config : Config) :
    LinuxProg (Except Str ServiceOutcome) := do
  if !(← hasRequiredElevation) then return .error (elevationRefusal "installing".toList)
  else
    match staged with
    | .error e => return .error e
    | .ok program =>
        let report ← linuxReinstall (buildPlan false config program)
        return report.map (installOutcome config program)

/-- `uninstall` -/
def uninstall : LinuxProg (Except Str ServiceOutcome) := do
  if !(← hasRequiredElevation) then return .error (elevationRefusal "uninstalling".toList)
  else
    -- A service that is not running is no reason to leave its registration.
    let _ ← SystemServiceBackend.stop
    let deleted ← SystemServiceBackend.delete
    return deleted.map fun _ =>
      { summary := "dig-dns: uninstalled service \"".toList ++ serviceLabel ++ "\"".toList
        json := .object [("installed".toList, .bool false),
          ("label".toList, .string serviceLabel)] }

/-- `start` -/
def start : LinuxProg (Except Str ServiceOutcome) := do
  let started ← SystemServiceBackend.start
  return started.map fun _ =>
    { summary := "dig-dns: start requested for \"".toList ++ serviceLabel ++ "\"".toList
      json := .object [("started".toList, .bool true), ("label".toList, .string serviceLabel)] }

/-- `stop` -/
def stop : LinuxProg (Except Str ServiceOutcome) := do
  let stopped ← SystemServiceBackend.stop
  return stopped.map fun _ =>
    { summary := "dig-dns: stop requested for \"".toList ++ serviceLabel ++ "\"".toList
      json := .object [("stopped".toList, .bool true), ("label".toList, .string serviceLabel)] }

/-- The commands of the service. -/
inductive Action
  | install (staged : Except Str Str) (config : Config)
  | uninstall
  | start
  | stop

def Action.program : Action → LinuxProg (Except Str ServiceOutcome)
  | .install staged config => Service.install staged config
  | .uninstall => Service.uninstall
  | .start => Service.start
  | .stop => Service.stop

/-! ## The service -/

/-- A service that is registered: its plan, and whether it runs. -/
structure Registration where
  plan : InstallPlan
  running : Bool

/-- The service with its process there or not. -/
def withRunning (running : Bool) (service : Option Registration) : Option Registration :=
  service.map fun r => { r with running }

/-- What a command may do to the service, given whether it succeeds. -/
def Permits (service : Option Registration) :
    Action → Bool → Option Registration → Prop
  | .install staged config, true, service' =>
      ∃ program, staged = .ok program ∧ service' = some ⟨buildPlan false config program, true⟩
  | .install staged config, false, service' =>
      service' = service ∨ service' = withRunning false service ∨ service' = none ∨
        ∃ program, staged = .ok program ∧ service' = some ⟨buildPlan false config program, false⟩
  | .uninstall, true, service' => service' = none
  | .uninstall, false, service' => service' = service ∨ service' = withRunning false service
  | .start, true, service' => service.isSome = true ∧ service' = withRunning true service
  | .start, false, service' => service' = service
  | .stop, _, service' => service' = withRunning false service

/-! ## The host -/

/-- Where the unit stands. -/
def unitPlace : Names := names linuxUnitFilePath

/-- No unit of a package is found, and none would be found in `/etc/systemd/system`. -/
def Unpackaged (files : FileTree Attrs) : Prop :=
  files.read (names systemdUnitPath) = none ∧
    ∀ place ∈ files.locate true (names systemdUnitPath), ¬names linuxUnitDir <+: place

instance (files : FileTree Attrs) : Decidable (Unpackaged files) :=
  inferInstanceAs (Decidable (_ ∧ ∀ place ∈ files.locate true (names systemdUnitPath), _))

/-- The unit of a plan. -/
def unitOf (plan : InstallPlan) : List UInt8 := utf8 (linuxUnitContents plan)

/-- The unit stands in its place, or nothing does. -/
def Shows (files : FileTree Attrs) : Option InstallPlan → Prop
  | none => files unitPlace = none
  | some plan => ∃ attrs, files unitPlace = some (.file attrs (unitOf plan))

/-- The files are those of a service with this plan, or of none. -/
structure UnitFiles (files : FileTree Attrs) (plan : Option InstallPlan) : Prop where
  dirs : files.HasDirs unitPlace
  unpackaged : Unpackaged files
  shows : Shows files plan

/-- The definition that a service runs. -/
def Registration.process (r : Registration) : Option (List UInt8) :=
  if r.running then some (unitOf r.plan) else none

/-- The host is one where this is the service. -/
structure Represents (host : LinuxHost) (service : Option Registration) : Prop where
  files : UnitFiles host.machine.files (service.map Registration.plan)
  loaded : host.systemd.loaded = (service.map Registration.plan).map unitOf
  active : host.systemd.active.map Process.definition = service.bind Registration.process
  stoppable : ∀ process ∈ host.systemd.active, process.stoppable = true

/-- The host answers as it may, and dependably: `daemon-reload` succeeds, since otherwise a
definition outlives its file; a process that is started can be stopped; and what is there
is told to be there. -/
def Dependable (ps : PowerShell) (host : LinuxHost) :
    (q : LinuxCall) → LinuxAnswer q → LinuxHost → Prop
  | .os (.spawn program args), answer, host' =>
      HostAnswers ps host (.os (.spawn program args)) answer host' ∧
        (args = ["daemon-reload".toList] → Succeeded answer) ∧
        ((∀ process ∈ host.systemd.active, process.stoppable = true) →
          ∀ process ∈ host'.systemd.active, process.stoppable = true)
  | .os (.pathExists path), answer, host' =>
      HostAnswers ps host (.os (.pathExists path)) answer host' ∧
        (host.machine.files.isPresent (names path) = true → answer = true)
  | q, answer, host' => HostAnswers ps host q answer host'

/-! ## The files -/

/-- What the name of a temporary unit file looks like. -/
def tempName (pid : Nat) : Str :=
  '.' :: (linuxUnitFileName ++ ".dig-dns.".toList ++ fmtNat pid ++ ".tmp".toList)

theorem slash_not_mem_tempName (pid : Nat) : '/' ∉ tempName pid := by
  have hdigits : '/' ∉ fmtNat pid :=
    fun hmem => forall_mem_fmtNat pid (P := fun c => c ≠ '/') (by decide) _ hmem rfl
  have hname : '/' ∉ linuxUnitFileName := by decide
  have hmiddle : '/' ∉ ".dig-dns.".toList := by decide
  have hend : '/' ∉ ".tmp".toList := by decide
  simp only [tempName, List.mem_cons, List.mem_append, not_or]
  exact ⟨by decide, ⟨⟨hname, hmiddle⟩, hdigits⟩, hend⟩

theorem unitPlace_eq : unitPlace = names linuxUnitDir ++ [linuxUnitFileName] := by decide

theorem tempName_ne (pid : Nat) : tempName pid ≠ linuxUnitFileName := by
  intro h
  have hfirst : some '.' = linuxUnitFileName.head? := congrArg List.head? h
  exact absurd hfirst (by decide)

/-- The temporary file is made next to the unit. -/
theorem names_tempPath (pid : Nat) :
    names (tempPath linuxUnitDir linuxUnitFileName pid) = names linuxUnitDir ++ [tempName pid] := by
  have hpath : tempPath linuxUnitDir linuxUnitFileName pid =
      linuxUnitDir ++ '/' :: tempName pid := by
    rw [tempPath, join, if_neg (by decide)]
    rfl
  rw [hpath, names, List.splitOn_append_cons_self, List.filter_append,
    List.splitOn_eq_singleton (slash_not_mem_tempName pid), names]
  simp [tempName]

section Files

variable {files : FileTree Attrs} {plan : Option InstallPlan} {place : Names}

/-- Directories above one name are directories above every name. -/
theorem hasDirs_sibling {dir : Names} {name name' : List Char}
    (h : files.HasDirs (dir ++ [name])) : files.HasDirs (dir ++ [name']) := by
  intro above habove hne hproper
  have hprefix : above <+: dir := by
    rcases List.prefix_concat_iff.mp ((List.mem_inits _ _).mp habove) with heq | hprefix
    · exact absurd heq hproper
    · exact hprefix
  exact h.into (List.cons_ne_nil _ _) hprefix hne

/-- A temporary unit file is made at a place of its own. -/
theorem vacancy_tempPath (hdirs : files.HasDirs unitPlace) {pid : Nat}
    (h : files.vacancy (names (tempPath linuxUnitDir linuxUnitFileName pid)) = some place) :
    place = names linuxUnitDir ++ [tempName pid] ∧ files place = none := by
  obtain ⟨hplace, -, hnone⟩ := FileTree.vacancy_eq_some_iff.mp h
  rw [unitPlace_eq] at hdirs
  have hdots : ['.', '.'] ∉ names linuxUnitDir ++ [tempName pid] := by
    have hdir : ['.', '.'] ∉ names linuxUnitDir := by decide
    rw [List.mem_append, List.mem_singleton, not_or]
    refine ⟨hdir, fun h => ?_⟩
    have hsecond : some '.' = linuxUnitFileName.head? := congrArg List.head? (List.cons.inj h).2
    exact absurd hsecond (by decide)
  rw [names_tempPath, FileTree.locate_of_hasDirs hdots (hasDirs_sibling hdirs),
    Option.some.injEq] at hplace
  exact ⟨hplace.symm, hnone⟩

theorem UnitFiles.onward_eq (h : UnitFiles files plan) : onward (files unitPlace) = .stop := by
  cases plan with
  | none => rw [show files unitPlace = none from h.shows]; rfl
  | some plan =>
      obtain ⟨attrs, hfile⟩ := h.shows
      rw [hfile]
      rfl

theorem UnitFiles.locate_eq (h : UnitFiles files plan) (follow : Bool) :
    files.locate follow (names linuxUnitFilePath) = some unitPlace := by
  have hdots : ['.', '.'] ∉ names linuxUnitFilePath := by decide
  cases follow with
  | false => exact FileTree.locate_of_hasDirs hdots h.dirs
  | true =>
      refine FileTree.locate_true_of_hasDirs hdots h.dirs fun target hlink => ?_
      have honward := h.onward_eq
      rw [unitPlace, hlink] at honward
      cases honward

theorem UnitFiles.read_eq (h : UnitFiles files plan) :
    files.read (names linuxUnitFilePath) = plan.map unitOf := by
  cases plan with
  | none =>
      refine FileTree.read_eq_none (h.locate_eq true) fun attrs bytes hfile => ?_
      rw [show files unitPlace = none from h.shows] at hfile
      cases hfile
  | some plan =>
      obtain ⟨attrs, hfile⟩ := h.shows
      exact FileTree.read_of_locate (h.locate_eq false) hfile

theorem UnitFiles.unitDefinition_eq (h : UnitFiles files plan) :
    unitDefinition files = plan.map unitOf := by
  rw [unitDefinition, h.read_eq, h.unpackaged.1, Option.or_none]

theorem UnitFiles.isFile_eq (h : UnitFiles files plan) :
    files.isFile (names linuxUnitFilePath) = plan.isSome := by
  rw [FileTree.isFile, h.read_eq, Option.isSome_map]

theorem UnitFiles.isPresent_of_some {plan : InstallPlan} (h : UnitFiles files (some plan)) :
    files.isPresent (names linuxUnitFilePath) = true := by
  obtain ⟨attrs, hfile⟩ := h.shows
  rw [FileTree.isPresent, h.locate_eq true]
  simp [hfile]

/-- Files that come and go below `/etc/systemd/system` lead no walk elsewhere, and are
not taken for the unit of a package. -/
theorem Unpackaged.set (h : Unpackaged files) {node : Option (Node Attrs)}
    (honward : onward node = onward (files place)) (hplace : names linuxUnitDir <+: place) :
    Unpackaged (files.set place node) := by
  have hlocate := FileTree.locate_set honward true (names systemdUnitPath)
  refine ⟨?_, ?_⟩
  · rw [← h.1, FileTree.read, FileTree.read, hlocate]
    cases hway : files.locate true (names systemdUnitPath) with
    | none => rfl
    | some other =>
        have hother : other ≠ place := fun heq => h.2 other hway (heq ▸ hplace)
        simp only [Option.bind_eq_bind, Option.bind_some]
        rw [FileTree.set_of_ne hother]
  · rw [hlocate]
    exact h.2

/-- A unit that is written or taken away. -/
theorem UnitFiles.set (h : UnitFiles files plan) {node : Option (Node Attrs)}
    {plan' : Option InstallPlan} (hnode : onward node = .stop)
    (hshows : Shows (files.set unitPlace node) plan') :
    UnitFiles (files.set unitPlace node) plan' where
  dirs := h.dirs.set node
  unpackaged := by
    refine h.unpackaged.set (hnode.trans h.onward_eq.symm) ?_
    rw [unitPlace_eq]
    exact List.prefix_append _ _
  shows := hshows

/-- A temporary file that is left. -/
theorem UnitFiles.set_temp (h : UnitFiles files plan) {pid : Nat} {attrs : Attrs}
    {bytes : List UInt8}
    (hvacancy : files.vacancy (names (tempPath linuxUnitDir linuxUnitFileName pid)) = some place) :
    UnitFiles (files.set place (some (.file attrs bytes))) plan := by
  obtain ⟨rfl, hnone⟩ := vacancy_tempPath h.dirs hvacancy
  have hother : unitPlace ≠ names linuxUnitDir ++ [tempName pid] := by
    rw [unitPlace_eq]
    intro heq
    exact tempName_ne pid (List.cons.inj (List.append_cancel_left heq)).1.symm
  have honward : onward (some (Node.file attrs bytes)) =
      onward (files (names linuxUnitDir ++ [tempName pid])) := by
    rw [hnone]
    rfl
  have hsame : files.set (names linuxUnitDir ++ [tempName pid]) (some (.file attrs bytes))
      unitPlace = files unitPlace := FileTree.set_of_ne hother
  refine ⟨fun dir hdir hne hproper => ?_, h.unpackaged.set honward (List.prefix_append _ _), ?_⟩
  · have hinto := h.dirs dir hdir hne hproper
    rw [FileTree.set_of_ne]
    · exact hinto
    · rintro rfl
      rw [hnone] at hinto
      cases hinto
  · cases plan with
    | none => exact hsame.trans h.shows
    | some plan =>
        obtain ⟨old, hfile⟩ := h.shows
        exact ⟨old, hsame.trans hfile⟩

end Files

/-! ## The operations of the backend -/

variable {ps : PowerShell} {host host' : LinuxHost} {service : Option Registration}

theorem Represents.of_same (h : Represents host service) (hmachine : host'.machine = host.machine)
    (hsystemd : host'.systemd = host.systemd) : Represents host' service := by
  cases host
  cases host'
  cases hmachine
  cases hsystemd
  exact h

/-- A dependable answer is an answer. -/
theorem Dependable.answers {q : LinuxCall} {answer : LinuxAnswer q}
    (h : Dependable ps host q answer host') : HostAnswers ps host q answer host' := by
  cases q with
  | isFile path => exact h
  | os q =>
      cases q with
      | spawn program args => exact h.1
      | pathExists path => exact h.1
      | _ => exact h

theorem Exec.answers {α : Type} {p : LinuxProg α} {a : α}
    (h : Exec (Dependable ps) host p a host') : Exec (HostAnswers ps) host p a host' :=
  h.mono fun _ _ _ _ => Dependable.answers

theorem exec_systemctl {args : List Str} {result : Except Str Unit}
    (h : Exec (Dependable ps) host (SystemServiceBackend.systemctl args) result host') :
    ∃ answer, host'.machine = host.machine ∧
      SystemctlAnswers host.machine.files host.systemd args answer host'.systemd ∧
      (Succeeded answer ↔ result.isOk = true) ∧
      (args = ["daemon-reload".toList] → Succeeded answer) ∧
      ((∀ process ∈ host.systemd.active, process.stoppable = true) →
        ∀ process ∈ host'.systemd.active, process.stoppable = true) := by
  obtain ⟨answer, host₁, hcall, hrest⟩ := exec_bind_iff.mp h
  obtain ⟨⟨hmachine, hsystemd⟩, hreload, hstoppable⟩ := exec_query_iff.mp hcall
  rw [if_pos rfl] at hsystemd
  have hdone : host' = host₁ ∧ (Succeeded answer ↔ result.isOk = true) := by
    cases answer with
    | error e =>
        obtain ⟨rfl, rfl⟩ := exec_ret_iff.mp hrest
        exact ⟨rfl, Iff.rfl⟩
    | ok exit =>
        change Exec _ _ (if exit.success = true then _ else _) _ _ at hrest
        have hexit : Succeeded (.ok exit) ↔ exit.success = true := Iff.rfl
        rw [hexit]
        cases hsuccess : exit.success with
        | true =>
            rw [if_pos hsuccess] at hrest
            obtain ⟨rfl, rfl⟩ := exec_ret_iff.mp hrest
            exact ⟨rfl, by simp [Except.isOk, Except.toBool]⟩
        | false =>
            rw [if_neg (by simp [hsuccess])] at hrest
            obtain ⟨rfl, rfl⟩ := exec_ret_iff.mp hrest
            exact ⟨rfl, by simp [Except.isOk, Except.toBool]⟩
  obtain ⟨rfl, hresult⟩ := hdone
  exact ⟨answer, hmachine, hsystemd, hresult, hreload, hstoppable⟩

@[simp] theorem plan_withRunning (running : Bool) (service : Option Registration) :
    (withRunning running service).map Registration.plan = service.map Registration.plan := by
  cases service <;> rfl

@[simp] theorem process_withRunning_false (service : Option Registration) :
    (withRunning false service).bind Registration.process = none := by
  cases service <;> rfl

@[simp] theorem process_withRunning_true (service : Option Registration) :
    (withRunning true service).bind Registration.process =
      (service.map Registration.plan).map unitOf := by
  cases service <;> rfl

/-- What a service runs, it is registered with. -/
theorem process_eq_or (service : Option Registration) :
    service.bind Registration.process = none ∨
      (service.bind Registration.process = (service.map Registration.plan).map unitOf ∧
        withRunning true service = service) := by
  cases service with
  | none => exact Or.inl rfl
  | some r =>
      obtain ⟨plan, running⟩ := r
      cases running with
      | false => exact Or.inl rfl
      | true => exact Or.inr ⟨rfl, rfl⟩

theorem represents_stop {result : Except Str Unit} (h : Represents host service)
    (hexec : Exec (Dependable ps) host SystemServiceBackend.stop result host') :
    Represents host' (withRunning false service) := by
  obtain ⟨answer, hmachine, hsystemd, -, -, -⟩ := exec_systemctl hexec
  have hstopped : host'.systemd = { host.systemd with active := none } := by
    rw [SystemctlAnswers, if_pos rfl] at hsystemd
    cases hactive : host.systemd.active with
    | none =>
        simp only [hactive] at hsystemd
        rw [hsystemd, ← hactive]
    | some process =>
        simp only [hactive] at hsystemd
        rw [if_pos (h.stoppable process hactive)] at hsystemd
        exact hsystemd.2
  constructor
  · rw [hmachine, plan_withRunning]
    exact h.files
  · rw [hstopped, plan_withRunning]
    exact h.loaded
  · rw [hstopped, process_withRunning_false]
    rfl
  · rw [hstopped]
    simp

theorem represents_start {result : Except Str Unit} (h : Represents host service)
    (hexec : Exec (Dependable ps) host SystemServiceBackend.start result host') :
    (result.isOk = true ∧ service.isSome = true ∧ Represents host' (withRunning true service)) ∨
      (result.isOk = false ∧ Represents host' service) := by
  obtain ⟨answer, hmachine, hsystemd, hresult, -, hstoppable⟩ := exec_systemctl hexec
  have hverb : ¬["start".toList, linuxUnitFileName] = ["stop".toList, linuxUnitFileName] :=
    fun h => absurd (List.cons.inj h).1 (by decide)
  rw [SystemctlAnswers, if_neg hverb, if_pos rfl] at hsystemd
  have hsame : host'.systemd = host.systemd → Represents host' service := h.of_same hmachine
  cases hactive : host.systemd.active with
  | some process =>
      simp only [hactive] at hsystemd
      have hrunning := h.active
      rw [hactive] at hrunning
      rcases process_eq_or service with hnone | ⟨-, hsaturated⟩
      · rw [hnone] at hrunning
        cases hrunning
      · have hregistered : service.isSome = true := by
          cases service with
          | none => cases hrunning
          | some r => rfl
        cases hok : result.isOk with
        | true => exact Or.inl ⟨rfl, hregistered, hsaturated.symm ▸ hsame hsystemd⟩
        | false => exact Or.inr ⟨rfl, hsame hsystemd⟩
  | none =>
      simp only [hactive] at hsystemd
      cases hok : result.isOk with
      | false =>
          have hfailed : ¬Succeeded answer := by
            rw [hresult, hok]
            exact Bool.false_ne_true
          rw [if_neg hfailed] at hsystemd
          exact Or.inr ⟨rfl, hsame hsystemd⟩
      | true =>
          rw [if_pos (hresult.mpr hok)] at hsystemd
          obtain ⟨definition, stoppable, hloaded, hstarted⟩ := hsystemd
          refine Or.inl ⟨rfl, ?_, ?_, ?_, ?_, hstoppable h.stoppable⟩
          · have hregistered := h.loaded
            rw [hloaded] at hregistered
            cases service with
            | none => cases hregistered
            | some r => rfl
          · rw [hmachine, plan_withRunning]
            exact h.files
          · rw [hstarted, plan_withRunning]
            exact h.loaded
          · rw [hstarted, process_withRunning_true, ← h.loaded, hloaded]
            rfl

/-- Once the definitions are read again, the files tell what is registered. -/
theorem represents_reload {result : Except Str Unit}
    (hfiles : UnitFiles host.machine.files (service.map Registration.plan))
    (hactive : host.systemd.active.map Process.definition = service.bind Registration.process)
    (hstoppable : ∀ process ∈ host.systemd.active, process.stoppable = true)
    (hexec : Exec (Dependable ps) host
      (SystemServiceBackend.systemctl ["daemon-reload".toList]) result host') :
    result.isOk = true ∧ Represents host' service := by
  obtain ⟨answer, hmachine, hsystemd, hresult, hreload, hstays⟩ := exec_systemctl hexec
  have hsucceeded := hreload rfl
  rw [SystemctlAnswers, if_neg (by simp), if_neg (by simp), if_pos rfl,
    if_pos hsucceeded] at hsystemd
  refine ⟨hresult.mp hsucceeded, ?_, ?_, ?_, hstays hstoppable⟩
  · rw [hmachine]
    exact hfiles
  · rw [hsystemd]
    exact hfiles.unitDefinition_eq
  · rw [hsystemd]
    exact hactive

/-- Enabling and disabling change nothing that counts. -/
theorem represents_enablement {verb : Str} {result : Except Str Unit}
    (hstop : verb ≠ "stop".toList) (hstart : verb ≠ "start".toList) (h : Represents host service)
    (hexec : Exec (Dependable ps) host
      (SystemServiceBackend.systemctl [verb, linuxUnitFileName]) result host') :
    Represents host' service := by
  obtain ⟨hmachine, hactive, hloaded⟩ := exec_enablement hstop hstart (Exec.answers hexec)
  obtain ⟨-, -, -, -, -, hstays⟩ := exec_systemctl hexec
  refine ⟨?_, ?_, ?_, hstays h.stoppable⟩
  · rw [hmachine]
    exact h.files
  · rcases hloaded with hsame | hread
    · rw [hsame]
      exact h.loaded
    · rw [hread]
      exact h.files.unitDefinition_eq
  · rw [hactive]
    exact h.active

theorem unitFiles_remove {plan : Option InstallPlan} {result : Except Str Unit}
    (h : UnitFiles host.machine.files plan)
    (hexec : Exec (Dependable ps) host SystemServiceBackend.removeUnitFile result host') :
    host'.systemd = host.systemd ∧
      ((result.isOk = true ∧ UnitFiles host'.machine.files none) ∨
        (result.isOk = false ∧ host'.machine = host.machine)) := by
  obtain ⟨present, host₁, hpresent, hremove⟩ := exec_bind_iff.mp hexec
  obtain ⟨⟨⟨hmachine₁, -⟩, hsystemd₁⟩, htold⟩ := exec_query_iff.mp hpresent
  rw [← hsystemd₁]
  rw [← hmachine₁] at h htold ⊢
  cases present with
  | false =>
      obtain ⟨rfl, rfl⟩ := exec_ret_iff.mp hremove
      refine ⟨rfl, Or.inl ⟨rfl, ?_⟩⟩
      cases plan with
      | none => exact h
      | some plan => cases htold h.isPresent_of_some
  | true =>
      obtain ⟨hfiles, hsystemd⟩ := exec_query_iff.mp hremove
      refine ⟨hsystemd, ?_⟩
      cases result with
      | error e => exact Or.inr ⟨rfl, hfiles⟩
      | ok _ =>
          obtain ⟨files, hremoved, hmachine⟩ := hfiles
          obtain ⟨place, hplace, -, rfl⟩ := FileTree.removeFile_eq_some hremoved
          rw [h.locate_eq false, Option.some.injEq] at hplace
          subst hplace
          rw [hmachine]
          exact Or.inl ⟨rfl, h.set rfl (FileTree.set_self _ _ _)⟩

/-- A service that does not run is deleted, or it stays. -/
theorem represents_delete {result : Except Str Unit} (h : Represents host service)
    (hidle : service.bind Registration.process = none)
    (hexec : Exec (Dependable ps) host SystemServiceBackend.delete result host') :
    (result.isOk = true ∧ Represents host' none) ∨
      (result.isOk = false ∧ Represents host' service) := by
  obtain ⟨disabled, host₁, hdisable, hrest⟩ := exec_bind_iff.mp hexec
  have h₁ := represents_enablement (by decide) (by decide) h hdisable
  obtain ⟨removed, host₂, hremove, hrest⟩ := exec_bind_iff.mp hrest
  obtain ⟨hsystemd, hremoved⟩ := unitFiles_remove h₁.files hremove
  cases removed with
  | error e =>
      obtain ⟨rfl, rfl⟩ := exec_ret_iff.mp hrest
      rcases hremoved with ⟨hok, -⟩ | ⟨-, hmachine⟩
      · cases hok
      · exact Or.inr ⟨rfl, h₁.of_same hmachine hsystemd⟩
  | ok _ =>
      obtain ⟨reloaded, host₃, hreload, hrest⟩ := exec_bind_iff.mp hrest
      obtain ⟨rfl, rfl⟩ := exec_ret_iff.mp hrest
      rcases hremoved with ⟨-, hfiles⟩ | ⟨hok, -⟩
      · have hnone : host₂.systemd.active.map Process.definition =
            (none : Option Registration).bind Registration.process := by
          rw [hsystemd, h₁.active, hidle]
          rfl
        have hstoppable : ∀ process ∈ host₂.systemd.active, process.stoppable = true := by
          rw [hsystemd]
          exact h₁.stoppable
        exact Or.inl ⟨rfl, (represents_reload hfiles hnone hstoppable hreload).2⟩
      · cases hok

/-! ## The reinstall -/

/-- The unit is written, or a temporary file is left. -/
theorem unitFiles_atomicWrite {plan : InstallPlan} {before : Option InstallPlan}
    {result : Except Str Unit} (h : UnitFiles host.machine.files before)
    (hexec : Exec (Dependable ps) host
      (osProg (atomicWrite .linux linuxUnitFilePath (linuxUnitContents plan))) result host') :
    host'.systemd = host.systemd ∧
      ((result.isOk = true ∧ UnitFiles host'.machine.files (some plan)) ∨
        (result.isOk = false ∧ UnitFiles host'.machine.files before)) := by
  obtain ⟨hwrite, hsystemd⟩ := exec_osProg (asks_atomicWrite _ _ _) (Exec.answers hexec)
  refine ⟨hsystemd, ?_⟩
  cases result with
  | ok _ =>
      obtain ⟨place, attrs, hplace, -, hmachine⟩ :=
        exec_atomicWrite_ok (fun hstep _ => hstep) (by decide) hwrite
      rw [h.locate_eq false, Option.some.injEq] at hplace
      subst hplace
      rw [hmachine]
      exact Or.inl ⟨rfl, h.set rfl ⟨attrs, FileTree.set_self _ _ _⟩⟩
  | error e =>
      refine Or.inr ⟨rfl, ?_⟩
      have hdir : parent linuxUnitFilePath = some linuxUnitDir := by decide
      have hname : fileName linuxUnitFilePath = some linuxUnitFileName := by decide
      rcases exec_atomicWrite_error (by decide) hdir hname hwrite with
        hsame | ⟨pid, file, attrs, bytes, hvacancy, hleft⟩
      · rw [hsame]
        exact h
      · rw [hleft]
        exact h.set_temp hvacancy

/-- A service that is not there is registered, or it is not. -/
theorem represents_create {plan : InstallPlan} {result : Except Str Unit}
    (h : Represents host none)
    (hexec : Exec (Dependable ps) host (SystemServiceBackend.create plan) result host') :
    Represents host' (some ⟨plan, false⟩) ∨ (result.isOk = false ∧ Represents host' none) := by
  obtain ⟨written, host₁, hwrite, hrest⟩ := exec_bind_iff.mp hexec
  obtain ⟨hsystemd, hwritten⟩ := unitFiles_atomicWrite h.files hwrite
  cases written with
  | error e =>
      obtain ⟨rfl, rfl⟩ := exec_ret_iff.mp hrest
      rcases hwritten with ⟨hok, -⟩ | ⟨-, hfiles⟩
      · cases hok
      · refine Or.inr ⟨rfl, hfiles, ?_, ?_, ?_⟩
        · rw [hsystemd]
          exact h.loaded
        · rw [hsystemd]
          exact h.active
        · rw [hsystemd]
          exact h.stoppable
  | ok _ =>
      refine Or.inl ?_
      rcases hwritten with ⟨-, hfiles⟩ | ⟨hok, -⟩
      · obtain ⟨reloaded, host₂, hreload, hrest⟩ := exec_bind_iff.mp hrest
        have hactive : host₁.systemd.active.map Process.definition =
            (some (Registration.mk plan false)).bind Registration.process := by
          rw [hsystemd, h.active]
          rfl
        have hstoppable : ∀ process ∈ host₁.systemd.active, process.stoppable = true := by
          rw [hsystemd]
          exact h.stoppable
        obtain ⟨hok, hrep⟩ := represents_reload hfiles hactive hstoppable hreload
        cases reloaded with
        | error e => cases hok
        | ok _ =>
            change Exec _ _ (if plan.autostart = true then _ else _) _ _ at hrest
            cases hautostart : plan.autostart with
            | true =>
                rw [if_pos hautostart] at hrest
                exact represents_enablement (by decide) (by decide) hrep hrest
            | false =>
                rw [if_neg (by simp [hautostart])] at hrest
                obtain ⟨-, rfl⟩ := exec_ret_iff.mp hrest
                exact hrep
      · cases hok

/-- The operations of the backend on a dependable host. -/
def BackendActs (ps : PowerShell) (host : LinuxHost) (q : ServiceCall) (answer : ServiceAnswer q)
    (host' : LinuxHost) : Prop :=
  Exec (Dependable ps) host (SystemServiceBackend.answer q) answer host'

theorem exec_isInstalled {result : Except Str Bool}
    (h : Exec (Dependable ps) host SystemServiceBackend.isInstalled result host') :
    host' = host ∧ result = .ok (host.machine.files.isFile (names linuxUnitFilePath)) :=
  DigDns.exec_isInstalled (Exec.answers h)

theorem exec_pollRemoval {attempts : Nat} {result : Except Str Unit}
    (h : Exec (BackendActs ps) host (pollRemoval attempts) result host') : host' = host :=
  DigDns.exec_pollRemoval (h.mono fun _ _ _ _ => Exec.answers)

/-- After `takeDown` the service is gone, or it no longer runs. -/
theorem represents_takeDown {report : ReinstallReport} {result : Except Str ReinstallReport}
    (h : Represents host service)
    (hexec : Exec (BackendActs ps) host (takeDown report) result host') :
    Represents host' none ∨
      (result.isOk = false ∧ Represents host' (withRunning false service)) := by
  obtain ⟨stopped, host₁, hstop, hrest⟩ := exec_bind_iff.mp hexec
  have h₁ := represents_stop h (exec_query_iff.mp hstop)
  obtain ⟨deleted, host₂, hdelete, hrest⟩ := exec_bind_iff.mp hrest
  have h₂ := represents_delete h₁ (process_withRunning_false service) (exec_query_iff.mp hdelete)
  cases deleted with
  | error e =>
      obtain ⟨rfl, rfl⟩ := exec_ret_iff.mp hrest
      rcases h₂ with ⟨hok, -⟩ | ⟨-, hstays⟩
      · cases hok
      · exact Or.inr ⟨rfl, hstays⟩
  | ok _ =>
      rcases h₂ with ⟨-, hgone⟩ | ⟨hok, -⟩
      · obtain ⟨removed, host₃, hpoll, hrest⟩ := exec_bind_iff.mp hrest
        obtain rfl := exec_pollRemoval hpoll
        refine Or.inl ?_
        cases removed with
        | error e =>
            obtain ⟨-, rfl⟩ := exec_ret_iff.mp hrest
            exact hgone
        | ok _ =>
            obtain ⟨-, rfl⟩ := exec_ret_iff.mp hrest
            exact hgone
      · cases hok

/-- After `putUp` the new service runs, or it does not, or there is none. -/
theorem represents_putUp {plan : InstallPlan} {report : ReinstallReport}
    {result : Except Str ReinstallReport} (h : Represents host none)
    (hexec : Exec (BackendActs ps) host (putUp plan report) result host') :
    (result.isOk = true ∧ Represents host' (some ⟨plan, true⟩)) ∨
      (result.isOk = false ∧
        (Represents host' none ∨ Represents host' (some ⟨plan, false⟩))) := by
  obtain ⟨created, host₁, hcreate, hrest⟩ := exec_bind_iff.mp hexec
  have h₁ := represents_create h (exec_query_iff.mp hcreate)
  cases created with
  | error e =>
      obtain ⟨rfl, rfl⟩ := exec_ret_iff.mp hrest
      rcases h₁ with hregistered | ⟨-, hnone⟩
      · exact Or.inr ⟨rfl, Or.inr hregistered⟩
      · exact Or.inr ⟨rfl, Or.inl hnone⟩
  | ok _ =>
      rcases h₁ with hregistered | ⟨hok, -⟩
      · obtain ⟨started, host₂, hstart, hrest⟩ := exec_bind_iff.mp hrest
        have h₂ := represents_start hregistered (exec_query_iff.mp hstart)
        cases started with
        | error e =>
            obtain ⟨rfl, rfl⟩ := exec_ret_iff.mp hrest
            rcases h₂ with ⟨hok, -⟩ | ⟨-, hidle⟩
            · cases hok
            · exact Or.inr ⟨rfl, Or.inr hidle⟩
        | ok _ =>
            obtain ⟨rfl, rfl⟩ := exec_ret_iff.mp hrest
            rcases h₂ with ⟨-, -, hruns⟩ | ⟨hok, -⟩
            · exact Or.inl ⟨rfl, hruns⟩
            · cases hok
      · cases hok

/-- After a reinstall the new service runs; one that fails leaves the old service as it
is or without its process, or the new one without its process, or none. -/
theorem represents_reinstall {plan : InstallPlan} {result : Except Str ReinstallReport}
    (h : Represents host service)
    (hexec : Exec (Dependable ps) host (linuxReinstall plan) result host') :
    (result.isOk = true ∧ Represents host' (some ⟨plan, true⟩)) ∨
      (result.isOk = false ∧ (Represents host' (withRunning false service) ∨
        Represents host' none ∨ Represents host' (some ⟨plan, false⟩))) := by
  have hsteps : Exec (BackendActs ps) host (reinstall plan) result host' :=
    exec_interpret_iff.mp hexec
  obtain ⟨installed, host₁, hquery, hrest⟩ := exec_bind_iff.mp hsteps
  obtain ⟨rfl, rfl⟩ := exec_isInstalled (exec_query_iff.mp hquery)
  rw [h.files.isFile_eq, Option.isSome_map] at hrest
  cases service with
  | none =>
      rcases represents_putUp h hrest with hdone | ⟨hfailed, hleft⟩
      · exact Or.inl hdone
      · exact Or.inr ⟨hfailed, Or.inr hleft⟩
  | some r =>
      obtain ⟨down, host₂, hdown, hrest⟩ := exec_bind_iff.mp hrest
      have h₂ := represents_takeDown h hdown
      cases down with
      | error e =>
          obtain ⟨rfl, rfl⟩ := exec_ret_iff.mp hrest
          rcases h₂ with hgone | ⟨-, hidle⟩
          · exact Or.inr ⟨rfl, Or.inr (Or.inl hgone)⟩
          · exact Or.inr ⟨rfl, Or.inl hidle⟩
      | ok report =>
          rcases h₂ with hgone | ⟨hok, -⟩
          · rcases represents_putUp hgone hrest with hdone | ⟨hfailed, hleft⟩
            · exact Or.inl hdone
            · exact Or.inr ⟨hfailed, Or.inr hleft⟩
          · cases hok

/-! ## The commands -/

theorem represents_hasRequiredElevation {elevated : Bool} (h : Represents host service)
    (hexec : Exec (Dependable ps) host hasRequiredElevation elevated host') :
    Represents host' service := by
  have hsteps := exec_interpret_iff.mp hexec
  obtain ⟨answer, host₁, hcall, hrest⟩ := exec_bind_iff.mp hsteps
  obtain ⟨⟨hmachine, hsystemd⟩, -⟩ := exec_query_iff.mp (exec_query_iff.mp hcall)
  rw [if_neg (by decide)] at hsystemd
  obtain rfl : host' = host₁ := by
    cases answer with
    | error e => exact (exec_ret_iff.mp hrest).2
    | ok exit => exact (exec_ret_iff.mp hrest).2
  exact h.of_same hmachine hsystemd

theorem isOk_map {ε α β : Type} (f : α → β) (x : Except ε α) : (x.map f).isOk = x.isOk := by
  cases x <;> rfl

/-- A command does to the service what it is permitted to. -/
theorem permits_program {action : Action} {result : Except Str ServiceOutcome}
    (h : Represents host service)
    (hexec : Exec (Dependable ps) host action.program result host') :
    ∃ service', Permits service action result.isOk service' ∧ Represents host' service' := by
  cases action with
  | install staged config =>
      obtain ⟨elevated, host₁, helevated, hrest⟩ := exec_bind_iff.mp hexec
      have h₁ := represents_hasRequiredElevation h helevated
      cases elevated with
      | false =>
          obtain ⟨rfl, rfl⟩ := exec_ret_iff.mp hrest
          exact ⟨service, Or.inl rfl, h₁⟩
      | true =>
          cases staged with
          | error e =>
              obtain ⟨rfl, rfl⟩ := exec_ret_iff.mp hrest
              exact ⟨service, Or.inl rfl, h₁⟩
          | ok program =>
              obtain ⟨report, host₂, hreinstall, hrest⟩ := exec_bind_iff.mp hrest
              obtain ⟨rfl, rfl⟩ := exec_ret_iff.mp hrest
              rw [isOk_map]
              rcases represents_reinstall h₁ hreinstall with
                ⟨hok, hruns⟩ | ⟨hfailed, hidle | hgone | hleft⟩
              · exact ⟨_, by rw [hok]; exact ⟨program, rfl, rfl⟩, hruns⟩
              · exact ⟨_, by rw [hfailed]; exact Or.inr (Or.inl rfl), hidle⟩
              · exact ⟨_, by rw [hfailed]; exact Or.inr (Or.inr (Or.inl rfl)), hgone⟩
              · refine ⟨_, ?_, hleft⟩
                rw [hfailed]
                exact Or.inr (Or.inr (Or.inr ⟨program, rfl, rfl⟩))
  | uninstall =>
      obtain ⟨elevated, host₁, helevated, hrest⟩ := exec_bind_iff.mp hexec
      have h₁ := represents_hasRequiredElevation h helevated
      cases elevated with
      | false =>
          obtain ⟨rfl, rfl⟩ := exec_ret_iff.mp hrest
          exact ⟨service, Or.inl rfl, h₁⟩
      | true =>
          obtain ⟨stopped, host₂, hstop, hrest⟩ := exec_bind_iff.mp hrest
          have h₂ := represents_stop h₁ hstop
          obtain ⟨deleted, host₃, hdelete, hrest⟩ := exec_bind_iff.mp hrest
          obtain ⟨rfl, rfl⟩ := exec_ret_iff.mp hrest
          rw [isOk_map]
          rcases represents_delete h₂ (process_withRunning_false service) hdelete with
            ⟨hok, hgone⟩ | ⟨hfailed, hidle⟩
          · exact ⟨none, by rw [hok]; rfl, hgone⟩
          · exact ⟨_, by rw [hfailed]; exact Or.inr rfl, hidle⟩
  | start =>
      obtain ⟨started, host₁, hstart, hrest⟩ := exec_bind_iff.mp hexec
      obtain ⟨rfl, rfl⟩ := exec_ret_iff.mp hrest
      rw [isOk_map]
      rcases represents_start h hstart with ⟨hok, hregistered, hruns⟩ | ⟨hfailed, hsame⟩
      · exact ⟨_, by rw [hok]; exact ⟨hregistered, rfl⟩, hruns⟩
      · exact ⟨service, by rw [hfailed]; rfl, hsame⟩
  | stop =>
      obtain ⟨stopped, host₁, hstop, hrest⟩ := exec_bind_iff.mp hexec
      obtain ⟨rfl, rfl⟩ := exec_ret_iff.mp hrest
      exact ⟨withRunning false service, rfl, represents_stop h hstop⟩

end DigDns.Service
