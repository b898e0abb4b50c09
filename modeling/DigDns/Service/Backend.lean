import DigDns.OsConfig.Machine
import DigDns.Service.Unit

/-!
# Reinstalling the service

The clean reinstall of `service.rs` composes five operations of a service
backend.  On Linux the backend is a unit file in `/etc/systemd/system` together
with `systemctl`.  Of `systemd` the model has what decides which process runs:
the definition that it read last, the process of the unit, and the definition
that the process was started from.
-/

namespace DigDns

open Rust Interaction Posix OsConfig

/-! ## The clean reinstall -/

/-- The operations of a `ServiceBackend`. -/
inductive ServiceCall
  | isInstalled
  | stop
  | delete
  | create (plan : InstallPlan)
  | start

/-- Their results; an error comes with its text. -/
abbrev ServiceAnswer : ServiceCall → Type
  | .isInstalled => Except Str Bool
  | .stop => Except Str Unit
  | .delete => Except Str Unit
  | .create _ => Except Str Unit
  | .start => Except Str Unit

/-- Call the backend. -/
def backend (q : ServiceCall) : Prog ServiceAnswer (ServiceAnswer q) := .ask q .ret

/-- `ReinstallReport`. -/
structure ReinstallReport where
  existed : Bool
  stopped : Bool
  deleted : Bool
  created : Bool
  started : Bool
deriving DecidableEq

/-- `ReinstallReport::default()` -/
def ReinstallReport.fresh : ReinstallReport := ⟨false, false, false, false, false⟩

/-- `REMOVAL_POLL_ATTEMPTS` -/
def removalPollAttempts : Nat := 40

/-- The error of a removal that takes too long. -/
def removalTimedOut : Str :=
  "dig-dns: service \"".toList ++ serviceLabel ++
    "\" was deleted but is still present after waiting for removal; cannot cleanly ".toList ++
    "recreate it (a handle may be held open — close the Services console and retry)".toList

/-- The rounds of `wait_for_removal` that are left; it sleeps between them. -/
def pollRemoval : Nat → Prog ServiceAnswer (Except Str Unit)
  | 0 => return .error removalTimedOut
  | attempts + 1 => do
      match ← backend .isInstalled with
      | .error e => return .error e
      | .ok false => return .ok ()
      | .ok true => pollRemoval attempts

/-- `wait_for_removal` -/
def waitForRemoval : Prog ServiceAnswer (Except Str Unit) := pollRemoval removalPollAttempts

/-- The part of `reinstall` for a service that exists. -/
def takeDown (report : ReinstallReport) : Prog ServiceAnswer (Except Str ReinstallReport) := do
  let report := { report with existed := true }
  -- A service that is not running is no reason to leave its registration.
  let stopped ← backend .stop
  let report := { report with stopped := stopped.isOk }
  match ← backend .delete with
  | .error e => return .error e
  | .ok _ =>
      match ← waitForRemoval with
      | .error e => return .error e
      | .ok _ => return .ok { report with deleted := true }

/-- The part of `reinstall` that registers the service afresh. -/
def putUp (plan : InstallPlan) (report : ReinstallReport) :
    Prog ServiceAnswer (Except Str ReinstallReport) := do
  match ← backend (.create plan) with
  | .error e => return .error e
  | .ok _ =>
      match ← backend .start with
      | .error e => return .error e
      | .ok _ => return .ok { report with created := true, started := true }

/-- `reinstall` -/
def reinstall (plan : InstallPlan) : Prog ServiceAnswer (Except Str ReinstallReport) := do
  match ← backend .isInstalled with
  | .error e => return .error e
  | .ok false => putUp plan .fresh
  | .ok true =>
      match ← takeDown .fresh with
      | .error e => return .error e
      | .ok report => putUp plan report

/-! ## The backend on Linux -/

/-- `LINUX_UNIT_FILE_NAME`. -/
def linuxUnitFileName : Str := "net.dignetwork.dig-dns.service".toList

/-- `LINUX_UNIT_DIR`. -/
def linuxUnitDir : Str := "/etc/systemd/system".toList

/-- `linux_unit_file_path` -/
def linuxUnitFilePath : Str := join linuxUnitDir linuxUnitFileName

/-- `SYSTEMD_UNIT_PATH`, where the package puts its unit. -/
def systemdUnitPath : Str := "/lib/systemd/system/net.dignetwork.dig-dns.service".toList

/-- The calls of the system: those of `os_config.rs`, and `Path::is_file`. -/
inductive LinuxCall
  | isFile (path : Str)
  | os (q : Call)

abbrev LinuxAnswer : LinuxCall → Type
  | .isFile _ => Bool
  | .os q => Answer q

abbrev LinuxProg := Prog LinuxAnswer

/-- Make a call. -/
def linuxCall (q : LinuxCall) : LinuxProg (LinuxAnswer q) := .ask q .ret

/-- A program of `os_config.rs` among the others. -/
def osProg {α : Type} (p : OsProg α) : LinuxProg α := p.interpret fun q => linuxCall (.os q)

namespace SystemServiceBackend

/-- `SystemServiceBackend::systemctl` -/
def systemctl (args : List Str) : LinuxProg (Except Str Unit) := do
  match ← linuxCall (.os (.spawn "systemctl".toList args)) with
  | .error e => return .error e
  | .ok exit =>
      if exit.success then return .ok ()
      else return .error ("systemctl ".toList ++ [' '].intercalate args ++
        " exited non-zero".toList)

/-- `is_installed` -/
def isInstalled : LinuxProg (Except Str Bool) := do
  return .ok (← linuxCall (.isFile linuxUnitFilePath))

/-- `stop` -/
def stop : LinuxProg (Except Str Unit) := systemctl ["stop".toList, linuxUnitFileName]

/-- The unit file is removed where there is one. -/
def removeUnitFile : LinuxProg (Except Str Unit) := do
  if ← linuxCall (.os (.pathExists linuxUnitFilePath)) then
    linuxCall (.os (.removeFile linuxUnitFilePath))
  else return .ok ()

/-- `delete` -/
def delete : LinuxProg (Except Str Unit) := do
  let _ ← systemctl ["disable".toList, linuxUnitFileName]
  match ← removeUnitFile with
  | .error e => return .error e
  | .ok _ => do
      let _ ← systemctl ["daemon-reload".toList]
      return .ok ()

/-- `create` -/
def create (plan : InstallPlan) : LinuxProg (Except Str Unit) := do
  match ← osProg (atomicWrite .linux linuxUnitFilePath (linuxUnitContents plan)) with
  | .error e => return .error e
  | .ok _ =>
      match ← systemctl ["daemon-reload".toList] with
      | .error e => return .error e
      | .ok _ =>
          if plan.autostart then systemctl ["enable".toList, linuxUnitFileName]
          else return .ok ()

/-- `start` -/
def start : LinuxProg (Except Str Unit) := systemctl ["start".toList, linuxUnitFileName]

/-- The backend. -/
def answer : (q : ServiceCall) → LinuxProg (ServiceAnswer q)
  | .isInstalled => isInstalled
  | .stop => stop
  | .delete => delete
  | .create plan => create plan
  | .start => start

end SystemServiceBackend

/-- `reinstall` with the Linux backend. -/
def linuxReinstall (plan : InstallPlan) : LinuxProg (Except Str ReinstallReport) :=
  (reinstall plan).interpret SystemServiceBackend.answer

/-! ## The host -/

/-- A process of the unit: the definition that it was started from, and whether a
request to stop it gets through. -/
structure Process where
  definition : List UInt8
  stoppable : Bool
deriving DecidableEq

/-- The unit as `systemd` has it. -/
structure Systemd where
  loaded : Option (List UInt8)
  active : Option Process
deriving DecidableEq

structure LinuxHost where
  machine : Machine
  systemd : Systemd

/-- The definition of the unit in the files: one in `/etc` overrides one in `/lib`. -/
def unitDefinition (files : FileTree Attrs) : Option (List UInt8) :=
  (files.read (names linuxUnitFilePath)).or (files.read (names systemdUnitPath))

/-- The command ran, and exited with zero. -/
def Succeeded (answer : Except Str Exit) : Prop := answer.toOption.any Exit.success = true

instance (answer : Except Str Exit) : Decidable (Succeeded answer) :=
  inferInstanceAs (Decidable (_ = true))

/-- What `systemctl` does.  A stop ends the process if it can be stopped, a start
begins one from the loaded definition unless there is one, and the definition
is read again at `daemon-reload`; `enable` and `disable` may read it too. -/
def SystemctlAnswers (files : FileTree Attrs) (s : Systemd) (args : List Str)
    (answer : Except Str Exit) (s' : Systemd) : Prop :=
  if args = ["stop".toList, linuxUnitFileName] then
    match s.active with
    | none => s' = s
    | some process =>
        if process.stoppable then Succeeded answer ∧ s' = { s with active := none }
        else ¬Succeeded answer ∧ s' = s
  else if args = ["start".toList, linuxUnitFileName] then
    match s.active with
    | some _ => s' = s
    | none =>
        if Succeeded answer then
          ∃ definition stoppable, s.loaded = some definition ∧
            s' = { s with active := some ⟨definition, stoppable⟩ }
        else s' = s
  else if args = ["daemon-reload".toList] then
    s' = if Succeeded answer then { s with loaded := unitDefinition files } else s
  else s'.active = s.active ∧ (s'.loaded = s.loaded ∨ s'.loaded = unitDefinition files)

/-- What a call can be answered with, and what host it leaves. -/
def HostAnswers (ps : PowerShell) (host : LinuxHost) :
    (q : LinuxCall) → LinuxAnswer q → LinuxHost → Prop
  | .isFile path, answer, host' =>
      host' = host ∧ answer = host.machine.files.isFile (names path)
  | .os (.spawn program args), answer, host' =>
      host'.machine = host.machine ∧
        if program = "systemctl".toList then
          SystemctlAnswers host.machine.files host.systemd args answer host'.systemd
        else host'.systemd = host.systemd
  | .os q, answer, host' =>
      Answers ps host.machine q answer host'.machine ∧ host'.systemd = host.systemd

/-! ## A host on which no call fails -/

/-- Every command succeeds if it can. -/
def serveSystemctl (files : FileTree Attrs) (s : Systemd) (args : List Str) :
    Except Str Exit × Systemd :=
  if args = ["stop".toList, linuxUnitFileName] then
    match s.active with
    | none => (.ok ⟨true, []⟩, s)
    | some process =>
        if process.stoppable then (.ok ⟨true, []⟩, { s with active := none })
        else (.ok ⟨false, []⟩, s)
  else if args = ["start".toList, linuxUnitFileName] then
    match s.active, s.loaded with
    | some _, _ => (.ok ⟨true, []⟩, s)
    | none, some definition => (.ok ⟨true, []⟩, { s with active := some ⟨definition, true⟩ })
    | none, none => (.ok ⟨false, []⟩, s)
  else if args = ["daemon-reload".toList] then
    (.ok ⟨true, []⟩, { s with loaded := unitDefinition files })
  else (.ok ⟨true, []⟩, s)

theorem systemctlAnswers_serve (files : FileTree Attrs) (s : Systemd) (args : List Str) :
    SystemctlAnswers files s args (serveSystemctl files s args).1
      (serveSystemctl files s args).2 := by
  rw [SystemctlAnswers, serveSystemctl]
  by_cases hstop : args = ["stop".toList, linuxUnitFileName]
  · rw [if_pos hstop, if_pos hstop]
    cases s.active with
    | none => rfl
    | some process =>
        dsimp only
        by_cases hstoppable : process.stoppable = true
        · rw [if_pos hstoppable, if_pos hstoppable]
          exact ⟨rfl, rfl⟩
        · rw [if_neg hstoppable, if_neg hstoppable]
          exact ⟨Bool.false_ne_true, rfl⟩
  rw [if_neg hstop, if_neg hstop]
  by_cases hstart : args = ["start".toList, linuxUnitFileName]
  · rw [if_pos hstart, if_pos hstart]
    cases hactive : s.active with
    | some process => rfl
    | none =>
        cases hloaded : s.loaded with
        | some definition => exact ⟨definition, true, rfl, rfl⟩
        | none => rfl
  rw [if_neg hstart, if_neg hstart]
  by_cases hreload : args = ["daemon-reload".toList]
  · rw [if_pos hreload, if_pos hreload]
    rfl
  · rw [if_neg hreload, if_neg hreload]
    exact ⟨rfl, Or.inl rfl⟩

def serveHost (host : LinuxHost) : (q : LinuxCall) → LinuxAnswer q × LinuxHost
  | .isFile path => (host.machine.files.isFile (names path), host)
  | .os (.spawn program args) =>
      if program = "systemctl".toList then
        let (answer, systemd) := serveSystemctl host.machine.files host.systemd args
        (answer, { host with systemd })
      else (.ok ⟨true, []⟩, host)
  | .os q =>
      let (answer, machine) := serve host.machine q
      (answer, { host with machine })

/-- What it answers are answers of the host. -/
theorem hostAnswers_serve (host : LinuxHost) (q : LinuxCall) :
    HostAnswers PowerShell.reference host q (serveHost host q).1 (serveHost host q).2 := by
  cases q with
  | isFile path => exact ⟨rfl, rfl⟩
  | os q =>
      cases q with
      | spawn program args =>
          rw [HostAnswers, serveHost]
          split_ifs with htool
          · exact ⟨rfl, systemctlAnswers_serve _ _ _⟩
          · exact ⟨rfl, rfl⟩
      | _ => exact ⟨answers_serve _ _, rfl⟩

end DigDns
