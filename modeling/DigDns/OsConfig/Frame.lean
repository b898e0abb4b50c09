import DigDns.OsConfig.Machine
import DigDns.OsConfig.Plans

/-!
# What a sequence of runs leaves alone

Which files and resolver rules of a machine survive any sequence of
`configure-os` and `unconfigure-os` runs, whatever calls fail on the way.
-/

namespace DigDns.OsConfig

open Rust Interaction Posix

/-! ## Sequences of runs -/

/-- One run of the tool, without `--browser-policy`. -/
inductive Command
  | configureOs (config : Config)
  | unconfigureOs (config : Config)

namespace Command

def config : Command → Config
  | configureOs config => config
  | unconfigureOs config => config

def prog (os : Os) : Command → OsProg Report
  | configureOs config => configure os config false
  | unconfigureOs config => unconfigure os config

end Command

/-- The runs, one after the other. -/
def runCommands (os : Os) : List Command → OsProg (List Report)
  | [] => return []
  | command :: commands => do
      let report ← command.prog os
      let reports ← runCommands os commands
      return report :: reports

/-- Runs with their reports, one after the other; the calls of each may be limited in its
own way. -/
def Session (step : Command × Report → Machine → (q : Call) → Answer q → Machine → Prop)
    (os : Os) : Machine → List (Command × Report) → Machine → Prop
  | m, [], m' => m' = m
  | m, run :: runs, m' =>
      ∃ m₁, Exec (step run) m (run.1.prog os) run.2 m₁ ∧ Session step os m₁ runs m'

/-- Without such limits they are those of the whole sequence. -/
theorem session_iff_exec {step : Machine → (q : Call) → Answer q → Machine → Prop} {os : Os}
    {m m' : Machine} {runs : List (Command × Report)} :
    Session (fun _ => step) os m runs m' ↔
      Exec step m (runCommands os (runs.map Prod.fst)) (runs.map Prod.snd) m' := by
  induction runs generalizing m with
  | nil =>
      constructor
      · rintro rfl
        exact .ret _ _
      · exact fun h => (exec_ret_iff.mp h).2
  | cons run runs ih =>
      constructor
      · rintro ⟨m₁, hfirst, hrest⟩
        exact exec_bind_iff.mpr ⟨run.2, m₁, hfirst,
          exec_bind_iff.mpr ⟨runs.map Prod.snd, m', ih.mp hrest, .ret _ _⟩⟩
      · intro h
        obtain ⟨report, m₁, hfirst, hrest⟩ := exec_bind_iff.mp h
        obtain ⟨reports, m₂, htail, hret⟩ := exec_bind_iff.mp hrest
        obtain ⟨hreports, rfl⟩ := exec_ret_iff.mp hret
        rw [List.map_cons, List.cons.injEq] at hreports
        obtain ⟨rfl, rfl⟩ := hreports
        exact ⟨m₁, hfirst, ih.mpr htail⟩

/-! ## How a run is made of calls -/

/-- The calls that edit files or rules, other than by adding directories or new
files. -/
def Call.isEdit : Call → Bool
  | .powershell _ | .writeAll _ _ | .fsWrite _ _ | .rename _ _ | .removeFile _ => true
  | _ => false

section Runs

variable {step : Machine → (q : Call) → Answer q → Machine → Prop} {Inv Pre : Machine → Prop}

theorem triple_call {q : Call} {Post : Answer q → Machine → Prop}
    (h : ∀ m r m', step m q r m' → Pre m → Post r m') : Triple step Pre (call q) Post :=
  triple_ask h fun _ => triple_ret fun _ hm => hm

variable (hcalm : ∀ q, q.isEdit = false → Keeps step Inv (call q))
include hcalm

theorem keeps_run (cmd : Str) (args : List Str) : Keeps step Inv (run cmd args) := by
  refine keeps_bind (hcalm _ rfl) fun answer => ?_
  cases answer with
  | error e => exact keeps_ret _
  | ok exit =>
      simp only
      split <;> exact keeps_ret _

theorem keeps_isElevated (os : Os) : Keeps step Inv (isElevated os) := by
  rw [isElevated]
  split <;>
    · refine keeps_bind (hcalm _ rfl) fun answer => ?_
      cases answer <;> exact keeps_ret _

theorem keeps_detectResolvOwnerLive : Keeps step Inv detectResolvOwnerLive :=
  keeps_bind (hcalm _ rfl) fun _ => keeps_bind (hcalm _ rfl) fun _ => keeps_ret _

theorem keeps_verifyOsRouting (config : Config) : Keeps step Inv (verifyOsRouting config) :=
  keeps_bind (hcalm _ rfl) fun _ => keeps_ret _

omit hcalm in
theorem keeps_removeWindowsBrowserPolicy (hreg : ∀ args, Keeps step Inv (reg args)) (key : Str) :
    Keeps step Inv (removeWindowsBrowserPolicy key) := by
  have hpresent : ∀ args, Keeps step Inv (regPresent args) := fun args =>
    keeps_bind (hreg args) fun _ => keeps_ret _
  have hmarked : Keeps step Inv (regMarked key) := by
    refine keeps_bind (hpresent _) fun present => ?_
    cases present
    · exact hpresent _
    · exact keeps_ret _
  refine keeps_bind hmarked fun marked => ?_
  cases marked
  · exact keeps_ret _
  · exact keeps_bind (hreg _) fun _ => keeps_bind (hreg _) fun _ =>
      keeps_bind (hreg _) fun _ => keeps_bind (hreg _) fun _ => keeps_ret _

omit hcalm in
theorem keeps_runPs {command : Str} (h : Keeps step Inv (call (.powershell command))) :
    Keeps step Inv (runPs command) := by
  refine keeps_bind h fun answer => ?_
  cases answer with
  | error e => exact keeps_ret _
  | ok success => cases success <;> exact keeps_ret _

/-- The edit of a step keeps the property. -/
def StepKept (step : Machine → (q : Call) → Answer q → Machine → Prop) (Inv : Machine → Prop)
    (os : Os) (ourIp : Ipv4Addr) : Step → Prop
  | .write path content => Keeps step Inv (atomicWrite os path content)
  | .removeOurs path => Keeps step Inv (removeIfOurs path ourIp)
  | .exec _ _ => True
  | .ps command _ _ => Keeps step Inv (call (.powershell command))
  | .psExec command => Keeps step Inv (call (.powershell command))
  | .note _ => True

theorem keeps_writeIfChanged {os : Os} {path content : Str}
    (h : Keeps step Inv (atomicWrite os path content)) :
    Keeps step Inv (writeIfChanged os path content) := by
  refine keeps_bind (hcalm _ rfl) fun existing => ?_
  split
  · exact keeps_ret _
  · refine keeps_bind ?_ fun made => ?_
    · rw [makeParent]
      split
      · exact hcalm _ rfl
      · exact keeps_ret _
    · cases made with
      | error e => exact keeps_ret _
      | ok _ => exact keeps_bind h fun _ => keeps_ret _

theorem keeps_executeStep {os : Os} {ourIp : Ipv4Addr} {s : Step}
    (h : StepKept step Inv os ourIp s) (r : Report) :
    Keeps step Inv (executeStep os ourIp r s) := by
  cases s with
  | write path content =>
      refine keeps_bind (keeps_writeIfChanged hcalm h) fun answer => ?_
      cases answer <;> exact keeps_ret _
  | removeOurs path =>
      refine keeps_bind h fun answer => ?_
      cases answer with
      | error e => exact keeps_ret _
      | ok removed => cases removed <;> exact keeps_ret _
  | exec program args => exact keeps_bind (keeps_run hcalm _ _) fun _ => keeps_ret _
  | ps command label bucket =>
      refine keeps_bind (keeps_runPs h) fun answer => ?_
      cases answer <;> exact keeps_ret _
  | psExec command => exact keeps_bind (keeps_runPs h) fun _ => keeps_ret _
  | note msg => exact keeps_ret _

theorem keeps_configure {os : Os} {config : Config}
    (h : ∀ owner, ∀ s ∈ configureResolverSteps os owner config.loopbackIp config.tld,
      StepKept step Inv os config.loopbackIp s) :
    Keeps step Inv (configure os config false) := by
  refine keeps_bind (keeps_isElevated hcalm os) fun elevated => ?_
  split
  · exact keeps_ret _
  split
  · exact keeps_ret _
  refine keeps_bind ?_ fun owner => ?_
  · split
    · exact keeps_detectResolvOwnerLive hcalm
    · exact keeps_ret _
  refine keeps_bind (keeps_foldlM (fun s hs r => keeps_executeStep hcalm (h owner s hs) r) _)
    fun r => ?_
  refine keeps_bind (keeps_ret _) fun r => keeps_bind ?_ fun _ => keeps_ret _
  split
  · exact keeps_verifyOsRouting hcalm config
  · exact keeps_ret _

theorem keeps_unconfigure {os : Os} {config : Config}
    (h : ∀ s ∈ unconfigureResolverSteps os config.loopbackIp config.tld,
      StepKept step Inv os config.loopbackIp s)
    (hpolicy : ∀ r, Keeps step Inv (removeBrowserPolicy os config.loopbackIp r)) :
    Keeps step Inv (unconfigure os config) := by
  refine keeps_bind (keeps_isElevated hcalm os) fun elevated => ?_
  split
  · exact keeps_ret _
  split
  · exact keeps_ret _
  exact keeps_bind (keeps_foldlM (fun s hs r => keeps_executeStep hcalm (h s hs) r) _)
    fun r => keeps_bind (hpolicy r) fun _ => keeps_ret _

end Runs

/-! ## Files -/

/-- The resolver that a report names. -/
def Report.owner (r : Report) : ResolvOwner :=
  if r.resolver = some ResolvOwner.systemdResolved.label then .systemdResolved
  else if r.resolver = some ResolvOwner.networkManagerDnsmasq.label then .networkManagerDnsmasq
  else .unknown

theorem Report.owner_eq {r : Report} {owner : ResolvOwner} (h : r.resolver = some owner.label) :
    r.owner = owner := by
  rw [Report.owner, h]
  cases owner <;> decide

/-- The paths at which a run replaces or removes what it finds: the ones that its own plan
writes, and on Linux the policies that `unconfigure-os` removes on sight. -/
def Command.seizedPaths (os : Os) (report : Report) : Command → List Str
  | configureOs config => writtenPaths os report.owner config.tld
  | unconfigureOs _ => if os = .linux then [linuxChromePolicy, linuxChromiumPolicy] else []

/-- The call replaces or removes what stands at the path. -/
def Call.seizes (path : Str) : (q : Call) → Answer q → Bool
  | .rename _ target, .ok _ => target = path
  | .removeFile removed, .ok _ => removed = path
  | _, _ => false

/-- There is this file at the place. -/
def HasFile (place : Names) (attrs : Attrs) (bytes : List UInt8) (m : Machine) : Prop :=
  m.files place = some (.file attrs bytes)

/-- The bytes are not an artifact of the tool, nor of the old installer. -/
def IsForeign (ourIp : Ipv4Addr) (bytes : List UInt8) : Prop :=
  ∀ text, utf8 text = bytes → contentIsOurs text ourIp = false

instance (place : Names) (attrs : Attrs) (bytes : List UInt8) (m : Machine) :
    Decidable (HasFile place attrs bytes m) :=
  inferInstanceAs (Decidable (m.files place = some (.file attrs bytes)))

/-! ### The resolver of a report -/

section Resolver

variable {step : Machine → (q : Call) → Answer q → Machine → Prop} {os : Os} {ourIp : Ipv4Addr}
  {r r' : Report} {m m' : Machine}

theorem resolver_of_exec_executeStep {s : Step}
    (h : Exec step m (executeStep os ourIp r s) r' m') : r'.resolver = r.resolver := by
  cases s with
  | write path content =>
      obtain ⟨answer, _, -, hret⟩ := exec_bind_iff.mp h
      cases answer <;> exact (exec_ret_iff.mp hret).1 ▸ rfl
  | removeOurs path =>
      obtain ⟨answer, _, -, hret⟩ := exec_bind_iff.mp h
      cases answer with
      | error e => exact (exec_ret_iff.mp hret).1 ▸ rfl
      | ok removed => cases removed <;> exact (exec_ret_iff.mp hret).1 ▸ rfl
  | exec program args =>
      obtain ⟨answer, _, -, hret⟩ := exec_bind_iff.mp h
      exact (exec_ret_iff.mp hret).1 ▸ rfl
  | ps text label bucket =>
      obtain ⟨answer, _, -, hret⟩ := exec_bind_iff.mp h
      cases answer with
      | error e => exact (exec_ret_iff.mp hret).1 ▸ rfl
      | ok _ => cases bucket <;> exact (exec_ret_iff.mp hret).1 ▸ rfl
  | psExec text =>
      obtain ⟨answer, _, -, hret⟩ := exec_bind_iff.mp h
      exact (exec_ret_iff.mp hret).1 ▸ rfl
  | note msg => exact (exec_ret_iff.mp h).1 ▸ rfl

/-- A plan leaves the resolver of its report. -/
theorem resolver_of_exec_plan {steps : List Step}
    (h : Exec step m (steps.foldlM (executeStep os ourIp) r) r' m') : r'.resolver = r.resolver := by
  induction steps generalizing r m with
  | nil => exact (exec_ret_iff.mp h).1 ▸ rfl
  | cons s steps ih =>
      rw [List.foldlM_cons] at h
      obtain ⟨r₁, m₁, hstep, hsteps⟩ := exec_bind_iff.mp h
      exact (ih hsteps).trans (resolver_of_exec_executeStep hstep)

theorem resolver_applyActivationResult (wired activated : Bool) :
    (applyActivationResult r os wired activated).resolver = r.resolver := by
  rw [applyActivationResult]
  split <;> rfl

end Resolver

/-! ### What a run leaves -/

section Files

variable {ps : PowerShell} {paths : List Str} {place : Names} {attrs : Attrs} {bytes : List UInt8}

/-- The calls of a run that seizes nothing at the place by one of the paths. -/
def Sparing (ps : PowerShell) (paths : List Str) (place : Names) (m : Machine) (q : Call)
    (answer : Answer q) (m' : Machine) : Prop :=
  Answers ps m q answer m' ∧ ∀ path ∈ paths, q.seizes path answer = true →
    m.files.locate false (names path) ≠ some place

theorem keeps_hasFile_call (q : Call) (hq : q.isEdit = false) :
    Keeps (Sparing ps paths place) (HasFile place attrs bytes) (call q) := by
  refine triple_call ?_
  rintro m r m' ⟨hanswer, -⟩ hfile
  cases q with
  | spawn => exact hanswer ▸ hfile
  | readToString => exact hanswer.1 ▸ hfile
  | createDirAll =>
      obtain ⟨files, hmakes, rfl, -⟩ := hanswer
      exact hmakes.kept hfile
  | createNew =>
      cases r with
      | error e => exact hanswer ▸ hfile
      | ok file =>
          obtain ⟨attrs', files, hnew, rfl⟩ := hanswer
          obtain ⟨hvacancy, rfl⟩ := FileTree.createNew_eq_some_iff.mp hnew
          exact (FileTree.set_of_ne (FileTree.ne_of_vacancy hvacancy hfile)).trans hfile
  | syncAll => exact hanswer ▸ hfile
  | pathExists => exact hanswer.1 ▸ hfile
  | isDir => exact hanswer.1 ▸ hfile
  | readLink => exact hanswer.1 ▸ hfile
  | readDir => exact hanswer.1 ▸ hfile
  | processId => exact hanswer ▸ hfile
  | toSocketAddrs => exact hanswer ▸ hfile
  | powershell => cases hq
  | writeAll => cases hq
  | fsWrite => cases hq
  | rename => cases hq
  | removeFile => cases hq

/-- The new file of a temporary path, at a place of its own. -/
def HasTemp (tmp : Str) (file place : Names) (m : Machine) : Prop :=
  file ≠ place ∧ m.files.locate false (names tmp) = some file

theorem triple_createNew (tmp : Str) :
    Triple (Sparing ps paths place) (HasFile place attrs bytes) (call (.createNew tmp))
      fun answer m => HasFile place attrs bytes m ∧
        ∀ file, answer = .ok file → HasTemp tmp file place m := by
  refine triple_call ?_
  rintro m r m' ⟨hanswer, -⟩ hfile
  cases r with
  | error e => exact ⟨hanswer ▸ hfile, fun file h => by cases h⟩
  | ok file =>
      obtain ⟨attrs', files, hnew, rfl⟩ := hanswer
      obtain ⟨hvacancy, rfl⟩ := FileTree.createNew_eq_some_iff.mp hnew
      have hne := FileTree.ne_of_vacancy hvacancy hfile
      refine ⟨(FileTree.set_of_ne hne).trans hfile, fun file' h => ?_⟩
      cases h
      obtain ⟨hlocate, -, hnone⟩ := FileTree.vacancy_eq_some_iff.mp hvacancy
      exact ⟨hne.symm, (FileTree.locate_set (by rw [hnone]; rfl) _ _).trans hlocate⟩

theorem triple_writeAll (tmp : Str) (file : Names) (content : List UInt8) :
    Triple (Sparing ps paths place)
      (fun m => HasFile place attrs bytes m ∧ HasTemp tmp file place m)
      (call (.writeAll file content))
      fun _ m => HasFile place attrs bytes m ∧ HasTemp tmp file place m := by
  refine triple_call ?_
  rintro m r m' ⟨⟨written, -, rfl, -⟩, -⟩ ⟨hfile, hne, hlocate⟩
  exact ⟨(FileTree.append_of_ne hne.symm).trans hfile, hne,
    (FileTree.locate_append _ _ _ _ _).trans hlocate⟩

theorem triple_writeNew (tmp content : Str) :
    Triple (Sparing ps paths place) (HasFile place attrs bytes) (writeNew tmp content)
      fun answer m => HasFile place attrs bytes m ∧
        (answer = .ok () → ∃ file, HasTemp tmp file place m) := by
  refine triple_bind (triple_createNew tmp) fun answer => ?_
  cases answer with
  | error e => exact triple_ret fun m hm => ⟨hm.1, fun h => by cases h⟩
  | ok file =>
      refine triple_bind ((triple_writeAll tmp file (utf8 content)).mono
        (fun m hm => ⟨hm.1, hm.2 file rfl⟩) fun _ _ h => h) fun written => ?_
      cases written with
      | error e => exact triple_ret fun m hm => ⟨hm.1, fun h => by cases h⟩
      | ok _ =>
          refine triple_call ?_
          rintro m r m' ⟨rfl, -⟩ ⟨hfile, htemp⟩
          exact ⟨hfile, fun _ => ⟨file, htemp⟩⟩

/-- Removing a path keeps the file, unless the path leads to it. -/
theorem hasFile_of_removeFile {path : Str} {r : Except Str Unit} {m m' : Machine}
    (hanswer : Answers ps m (.removeFile path) r m')
    (helsewhere : m.files.locate false (names path) ≠ some place)
    (hfile : HasFile place attrs bytes m) :
    HasFile place attrs bytes m' := by
  cases r with
  | error e => exact hanswer ▸ hfile
  | ok _ =>
      obtain ⟨files, hremoved, rfl⟩ := hanswer
      obtain ⟨other, hother, -, rfl⟩ := FileTree.removeFile_eq_some hremoved
      refine (FileTree.set_of_ne ?_).trans hfile
      rintro rfl
      exact helsewhere hother

/-- Renaming a temporary path to one that does not lead to a file keeps the
file, and the temporary path where it is when the call fails. -/
theorem triple_rename {path : Str} (hpath : path ∈ paths) (tmp : Str) :
    Triple (Sparing ps paths place)
      (fun m => HasFile place attrs bytes m ∧ ∃ file, HasTemp tmp file place m)
      (call (.rename tmp path))
      fun answer m => HasFile place attrs bytes m ∧
        ∀ e, answer = .error e → ∃ file, HasTemp tmp file place m := by
  refine triple_call ?_
  rintro m r m' ⟨hanswer, hspares⟩ ⟨hfile, file, hne, hlocate⟩
  cases r with
  | error e =>
      obtain rfl := hanswer
      exact ⟨hfile, fun _ _ => ⟨file, hne, hlocate⟩⟩
  | ok _ =>
      obtain ⟨files, hrenamed, rfl⟩ := hanswer
      obtain ⟨old, new, node, hold, hnew, -, -, rfl⟩ := FileTree.rename_eq_some hrenamed
      have hold' : place ≠ old := by
        rintro rfl
        exact hne (Option.some.inj (hlocate.symm.trans hold))
      have hnew' : place ≠ new := by
        rintro rfl
        exact hspares path hpath (decide_eq_true rfl) hnew
      refine ⟨?_, fun e h => by cases h⟩
      exact (FileTree.set_of_ne hnew').trans ((FileTree.set_of_ne hold').trans hfile)

/-- Away from Windows, `atomic_write` to a path that does not lead to a file
keeps the file. -/
theorem keeps_hasFile_atomicWrite {os : Os} {path : Str} (hos : os ≠ .windows) (hpath : path ∈ paths)
    (content : Str) :
    Keeps (Sparing ps paths place) (HasFile place attrs bytes) (atomicWrite os path content) := by
  rw [atomicWrite, if_neg hos]
  split
  · exact keeps_ret _
  split
  · exact keeps_ret _
  refine keeps_bind (keeps_hasFile_call _ rfl) fun pid => ?_
  refine triple_bind (triple_writeNew _ content) fun written => ?_
  cases written with
  | error e => exact triple_ret fun m hm => hm.1
  | ok _ =>
      refine triple_bind ((triple_rename hpath _).mono (fun m hm => ⟨hm.1, hm.2 rfl⟩)
        fun _ _ h => h) fun renamed => ?_
      cases renamed with
      | ok _ => exact triple_ret fun m hm => hm.1
      | error e =>
          refine triple_bind (triple_call ?_) fun _ => keeps_ret _
          rintro m r m' ⟨hanswer, -⟩ ⟨hfile, htemp⟩
          obtain ⟨file, hne, hlocate⟩ := htemp e rfl
          refine hasFile_of_removeFile hanswer ?_ hfile
          rw [hlocate]
          exact fun h => hne (Option.some.inj h)

/-- A path that leads to a foreign file is not found to be ours. -/
theorem triple_fileIsOurs {ourIp : Ipv4Addr} (hforeign : IsForeign ourIp bytes) (path : Str) :
    Triple (Sparing ps paths place) (HasFile place attrs bytes) (fileIsOurs path ourIp)
      fun ours m => HasFile place attrs bytes m ∧
        (ours = true → m.files.locate false (names path) ≠ some place) := by
  refine triple_bind (triple_call ?_ : Triple _ _ _ fun answer m =>
    HasFile place attrs bytes m ∧
      ∀ text, answer = .ok text → m.files.read (names path) = some (utf8 text))
    fun answer => triple_ret ?_
  · rintro m r m' ⟨⟨rfl, hread⟩, -⟩ hfile
    exact ⟨hfile, hread⟩
  · rintro m ⟨hfile, hread⟩
    refine ⟨hfile, fun hours hlocate => ?_⟩
    cases answer with
    | error e => cases hours
    | ok text =>
        -- The path leads to the file itself, so its bytes are the text that was ours.
        have hbytes := hread text rfl
        rw [FileTree.read, FileTree.locate_file hlocate hfile] at hbytes
        simp only [Option.bind_eq_bind, Option.bind_some] at hbytes
        rw [show m.files place = some (.file attrs bytes) from hfile] at hbytes
        have hfalse := hforeign text (Option.some.inj hbytes).symm
        rw [show contentIsOurs text ourIp = true from hours] at hfalse
        cases hfalse

/-- `remove_if_ours` keeps a foreign file, wherever its path leads. -/
theorem keeps_hasFile_removeIfOurs {ourIp : Ipv4Addr} (hforeign : IsForeign ourIp bytes)
    (path : Str) :
    Keeps (Sparing ps paths place) (HasFile place attrs bytes) (removeIfOurs path ourIp) := by
  refine triple_bind (triple_fileIsOurs hforeign path) fun ours => ?_
  cases ours with
  | false => exact triple_ret fun m hm => hm.1
  | true =>
      refine triple_bind (triple_call ?_ : Triple _ _ _ fun _ => HasFile place attrs bytes)
        fun removed => ?_
      · rintro m r m' ⟨hanswer, -⟩ ⟨hfile, helsewhere⟩
        exact hasFile_of_removeFile hanswer (helsewhere rfl) hfile
      · cases removed <;> exact keeps_ret _

theorem keeps_hasFile_powershell (command : Str) :
    Keeps (Sparing ps paths place) (HasFile place attrs bytes) (call (.powershell command)) := by
  refine triple_call ?_
  rintro m r m' ⟨⟨hfiles, -⟩, -⟩ hfile
  rw [HasFile, hfiles]
  exact hfile

theorem keeps_hasFile_removeLinuxPolicy {path : Str} (hpath : path ∈ paths) (r : Report) :
    Keeps (Sparing ps paths place) (HasFile place attrs bytes) (removeLinuxPolicy r path) := by
  refine keeps_bind (keeps_hasFile_call _ rfl) fun present => ?_
  split
  · refine keeps_bind (triple_call ?_) fun removed => ?_
    · rintro m r m' ⟨hanswer, hspares⟩ hfile
      cases r with
      | error e => exact hanswer ▸ hfile
      | ok _ =>
          exact hasFile_of_removeFile hanswer (hspares path hpath (decide_eq_true rfl)) hfile
    · cases removed <;> exact keeps_ret _
  · exact keeps_ret _

theorem keeps_hasFile_removeBrowserPolicy {os : Os} {ourIp : Ipv4Addr}
    (hforeign : IsForeign ourIp bytes)
    (hpaths : os = .linux → linuxChromePolicy ∈ paths ∧ linuxChromiumPolicy ∈ paths) (r : Report) :
    Keeps (Sparing ps paths place) (HasFile place attrs bytes) (removeBrowserPolicy os ourIp r) := by
  cases os with
  | linux =>
      obtain ⟨hchrome, hchromium⟩ := hpaths rfl
      refine keeps_foldlM (fun path hpath r => keeps_hasFile_removeLinuxPolicy ?_ r) r
      rcases List.mem_pair.mp hpath with rfl | rfl
      · exact hchrome
      · exact hchromium
  | macos =>
      refine keeps_bind (keeps_hasFile_removeIfOurs hforeign _) fun removed => ?_
      split <;> exact keeps_ret _
  | windows =>
      refine keeps_foldlM (fun browser _ r => ?_) r
      refine keeps_bind (keeps_removeWindowsBrowserPolicy
        (fun args => keeps_run keeps_hasFile_call _ args) _) fun removed => ?_
      split <;> exact keeps_ret _
  | other name => exact keeps_ret _

/-- A step of a plan keeps a foreign file, if the paths that it writes are among the paths. -/
theorem stepKept_hasFile {os : Os} {ourIp : Ipv4Addr} (hforeign : IsForeign ourIp bytes) {s : Step}
    (hwrite : ∀ path content, s = .write path content → os ≠ .windows ∧ path ∈ paths) :
    StepKept (Sparing ps paths place) (HasFile place attrs bytes) os ourIp s := by
  cases s with
  | write path content =>
      obtain ⟨hos, hpath⟩ := hwrite path content rfl
      exact keeps_hasFile_atomicWrite hos hpath content
  | removeOurs path => exact keeps_hasFile_removeIfOurs hforeign path
  | exec program args => trivial
  | ps text label bucket => exact keeps_hasFile_powershell text
  | psExec text => exact keeps_hasFile_powershell text
  | note msg => trivial

/-- A run of `configure-os` keeps a foreign file, if it seizes nothing there by the paths of
the plan for the resolver that its report names. -/
theorem hasFile_configure {os : Os} {config : Config} {report : Report} {m m' : Machine}
    (hforeign : IsForeign config.loopbackIp bytes)
    (h : Exec (Sparing ps (writtenPaths os report.owner config.tld) place) m
      (configure os config false) report m') (hfile : HasFile place attrs bytes m) :
    HasFile place attrs bytes m' := by
  obtain ⟨elevated, m₁, helevated, hrest⟩ := exec_bind_iff.mp h
  have h₁ : HasFile place attrs bytes m₁ := keeps_isElevated keeps_hasFile_call os helevated hfile
  split at hrest
  · obtain ⟨-, rfl⟩ := exec_ret_iff.mp hrest
    exact h₁
  split at hrest
  · obtain ⟨-, rfl⟩ := exec_ret_iff.mp hrest
    exact h₁
  obtain ⟨owner, m₂, howner, hexec⟩ := exec_bind_iff.mp hrest
  have h₂ : HasFile place attrs bytes m₂ := by
    split at howner
    · exact keeps_detectResolvOwnerLive keeps_hasFile_call howner h₁
    · obtain ⟨-, rfl⟩ := exec_ret_iff.mp howner
      exact h₁
  obtain ⟨r, _, hplan, hafter⟩ := exec_bind_iff.mp hexec
  obtain ⟨r', m₃, hpolicy, hwired⟩ := exec_bind_iff.mp hafter
  obtain ⟨rfl, rfl⟩ := exec_ret_iff.mp hpolicy
  obtain ⟨activated, _, hverify, hret⟩ := exec_bind_iff.mp hwired
  obtain ⟨hreport, rfl⟩ := exec_ret_iff.mp hret
  -- The report names the resolver whose plan was carried out.
  have howned : os = .linux → report.owner = owner := by
    intro hos
    apply Report.owner_eq
    rw [hreport, resolver_applyActivationResult, resolver_of_exec_plan hplan, if_pos hos]
  have hpaths : writtenPaths os owner config.tld = writtenPaths os report.owner config.tld := by
    by_cases hos : os = .linux
    · rw [howned hos]
    · rw [writtenPaths, writtenPaths, if_neg hos, if_neg hos]
  have h₃ : HasFile place attrs bytes m₃ := by
    refine keeps_foldlM (fun s hs r => ?_) _ hplan h₂
    refine keeps_executeStep keeps_hasFile_call (stepKept_hasFile hforeign ?_) r
    rintro path content rfl
    exact ⟨ne_windows_of_write_mem hs, hpaths ▸ mem_writtenPaths_of_write hs⟩
  split at hverify
  · exact keeps_verifyOsRouting keeps_hasFile_call config hverify h₃
  · obtain ⟨-, rfl⟩ := exec_ret_iff.mp hverify
    exact h₃

/-- A run keeps a foreign file, if it seizes nothing there. -/
theorem hasFile_command {os : Os} {command : Command} {report : Report} {m m' : Machine}
    (hforeign : IsForeign command.config.loopbackIp bytes)
    (h : Exec (Sparing ps (command.seizedPaths os report) place) m (command.prog os) report m')
    (hfile : HasFile place attrs bytes m) : HasFile place attrs bytes m' := by
  cases command with
  | configureOs config => exact hasFile_configure hforeign h hfile
  | unconfigureOs config =>
      refine keeps_unconfigure keeps_hasFile_call (fun s hs => ?_) (fun r => ?_) h hfile
      · refine stepKept_hasFile hforeign ?_
        rintro path content rfl
        exact absurd hs (write_not_mem_unconfigure _ _ _ _ _)
      · refine keeps_hasFile_removeBrowserPolicy hforeign ?_ r
        rintro rfl
        exact ⟨List.mem_cons_self, List.mem_cons_of_mem _ List.mem_cons_self⟩

/-- So does a sequence of runs. -/
theorem hasFile_session {os : Os} {runs : List (Command × Report)} {m m' : Machine}
    (hforeign : ∀ run ∈ runs, IsForeign run.1.config.loopbackIp bytes)
    (h : Session (fun run => Sparing ps (run.1.seizedPaths os run.2) place) os m runs m')
    (hfile : HasFile place attrs bytes m) : HasFile place attrs bytes m' := by
  induction runs generalizing m with
  | nil =>
      obtain rfl : m' = m := h
      exact hfile
  | cons run runs ih =>
      obtain ⟨m₁, hfirst, hrest⟩ := h
      obtain ⟨hrun, hruns⟩ := List.forall_mem_cons.mp hforeign
      exact ih hruns hrest (hasFile_command hrun hfirst hfile)

end Files

theorem keeps_runCommands {step : Machine → (q : Call) → Answer q → Machine → Prop}
    {Inv : Machine → Prop} {os : Os} {commands : List Command}
    (h : ∀ command ∈ commands, Keeps step Inv (command.prog os)) :
    Keeps step Inv (runCommands os commands) := by
  induction commands with
  | nil => exact keeps_ret _
  | cons command commands ih =>
      refine keeps_bind (h command List.mem_cons_self) fun report => ?_
      exact keeps_bind (ih fun c hc => h c (List.mem_cons_of_mem _ hc)) fun _ => keeps_ret _

/-- Runs come one after the other. -/
theorem exec_runCommands_append {step : Machine → (q : Call) → Answer q → Machine → Prop} {os : Os}
    {before after : List Command} {m m' : Machine} {reports : List Report}
    (h : Exec step m (runCommands os (before ++ after)) reports m') :
    ∃ reports₁ m₁ reports₂, Exec step m (runCommands os before) reports₁ m₁ ∧
      Exec step m₁ (runCommands os after) reports₂ m' := by
  induction before generalizing m reports with
  | nil => exact ⟨[], m, reports, .ret _ _, h⟩
  | cons command before ih =>
      obtain ⟨report, m₁, hfirst, hrest⟩ := exec_bind_iff.mp h
      obtain ⟨reports', m₂, htail, hret⟩ := exec_bind_iff.mp hrest
      obtain ⟨-, rfl⟩ := exec_ret_iff.mp hret
      obtain ⟨reports₁, m₃, reports₂, hbefore, hafter⟩ := ih htail
      exact ⟨report :: reports₁, m₃, reports₂, exec_bind_iff.mpr ⟨report, m₁, hfirst,
        exec_bind_iff.mpr ⟨reports₁, m₃, hbefore, .ret _ _⟩⟩, hafter⟩

/-- The runs of one command are those of its program. -/
theorem exec_runCommands_singleton {step : Machine → (q : Call) → Answer q → Machine → Prop}
    {os : Os} {command : Command} {m m' : Machine} {reports : List Report}
    (h : Exec step m (runCommands os [command]) reports m') :
    ∃ report, Exec step m (command.prog os) report m' := by
  obtain ⟨report, m₁, hfirst, hrest⟩ := exec_bind_iff.mp h
  obtain ⟨-, rfl⟩ := exec_ret_iff.mp hrest
  exact ⟨report, hfirst⟩

/-! ## Rules -/

section Rules

variable {psEq : Str → Str → Bool} {ps : PowerShell} {rule : NrptRule}

/-- There is this rule. -/
def HasRule (rule : NrptRule) (m : Machine) : Prop := rule ∈ m.rules

/-- Only PowerShell changes the rules. -/
theorem rules_eq_of_answers {m m' : Machine} {q : Call} {r : Answer q}
    (hanswer : Answers ps m q r m') (hq : ∀ command, q ≠ .powershell command) :
    m'.rules = m.rules := by
  cases q with
  | spawn => exact congrArg _ hanswer
  | powershell command => exact absurd rfl (hq command)
  | readToString => exact congrArg _ hanswer.1
  | createDirAll =>
      obtain ⟨files, -, rfl, -⟩ := hanswer
      rfl
  | createNew =>
      cases r with
      | error e => exact congrArg _ hanswer
      | ok file =>
          obtain ⟨-, files, -, rfl⟩ := hanswer
          rfl
  | writeAll =>
      obtain ⟨written, -, rfl, -⟩ := hanswer
      rfl
  | syncAll => exact congrArg _ hanswer
  | fsWrite =>
      rcases hanswer with ⟨rfl, -⟩ | ⟨-, -, files, -, -, rfl, -⟩ <;> rfl
  | rename =>
      cases r with
      | error e => exact congrArg _ hanswer
      | ok _ =>
          obtain ⟨files, -, rfl⟩ := hanswer
          rfl
  | removeFile =>
      cases r with
      | error e => exact congrArg _ hanswer
      | ok _ =>
          obtain ⟨files, -, rfl⟩ := hanswer
          rfl
  | pathExists => exact congrArg _ hanswer.1
  | isDir => exact congrArg _ hanswer.1
  | readLink => exact congrArg _ hanswer.1
  | readDir => exact congrArg _ hanswer.1
  | processId => exact congrArg _ hanswer
  | toSocketAddrs => exact congrArg _ hanswer

theorem keeps_hasRule_call (q : Call) (hq : ∀ command, q ≠ .powershell command) :
    Keeps (Answers ps) (HasRule rule) (call q) := by
  refine triple_call ?_
  intro m r m' hanswer hrule
  rw [HasRule, rules_eq_of_answers hanswer hq]
  exact hrule

theorem keeps_hasRule_atomicWrite (os : Os) (path content : Str) :
    Keeps (Answers ps) (HasRule rule) (atomicWrite os path content) := by
  rw [atomicWrite]
  split
  · exact keeps_bind (keeps_hasRule_call _ (by simp)) fun _ => keeps_ret _
  split
  · exact keeps_ret _
  split
  · exact keeps_ret _
  refine keeps_bind (keeps_hasRule_call _ (by simp)) fun pid => keeps_bind ?_ fun written => ?_
  · refine keeps_bind (keeps_hasRule_call _ (by simp)) fun opened => ?_
    split
    · exact keeps_ret _
    refine keeps_bind (keeps_hasRule_call _ (by simp)) fun written => ?_
    split
    · exact keeps_ret _
    · exact keeps_hasRule_call _ (by simp)
  · split
    · exact keeps_ret _
    refine keeps_bind (keeps_hasRule_call _ (by simp)) fun renamed => ?_
    split
    · exact keeps_ret _
    · exact keeps_bind (keeps_hasRule_call _ (by simp)) fun _ => keeps_ret _

theorem keeps_hasRule_removeIfOurs (path : Str) (ourIp : Ipv4Addr) :
    Keeps (Answers ps) (HasRule rule) (removeIfOurs path ourIp) := by
  refine keeps_bind (keeps_bind (keeps_hasRule_call _ (by simp)) fun _ => keeps_ret _)
    fun ours => ?_
  split
  · refine keeps_bind (keeps_hasRule_call _ (by simp)) fun removed => ?_
    split <;> exact keeps_ret _
  · exact keeps_ret _

theorem isEdit_powershell {q : Call} (hq : q.isEdit = false) (command : Str) :
    q ≠ .powershell command := by
  rintro rfl
  cases hq

theorem keeps_hasRule_removeBrowserPolicy (os : Os) (ourIp : Ipv4Addr) (r : Report) :
    Keeps (Answers ps) (HasRule rule) (removeBrowserPolicy os ourIp r) := by
  cases os with
  | linux =>
      refine keeps_foldlM (fun path _ r => ?_) r
      refine keeps_bind (keeps_hasRule_call _ (by simp)) fun present => ?_
      split
      · refine keeps_bind (keeps_hasRule_call _ (by simp)) fun removed => ?_
        split <;> exact keeps_ret _
      · exact keeps_ret _
  | macos =>
      refine keeps_bind (keeps_hasRule_removeIfOurs _ _) fun removed => ?_
      split <;> exact keeps_ret _
  | windows =>
      refine keeps_foldlM (fun browser _ r => ?_) r
      have hreg : ∀ args, Keeps (Answers ps) (HasRule rule) (reg args) :=
        keeps_run (fun q hq => keeps_hasRule_call q (isEdit_powershell hq)) _
      refine keeps_bind (keeps_removeWindowsBrowserPolicy hreg _) fun removed => ?_
      split <;> exact keeps_ret _
  | other name => exact keeps_ret _

/-- A command that can change the rules in the documented way only. -/
theorem keeps_hasRule_powershell (hps : DocumentedPowerShell psEq ps)
    (hmarker : psEq rule.comment marker = false)
    (hlegacy : psEq rule.comment legacyInstallerMarker = false) {ip : Ipv4Addr} {tld text : Str}
    (htld : isSafeTld tld = true)
    (htext : text ∈ [nrptAddPsCommand ip tld, nrptRemovePsCommand, clearDnsClientCache]) :
    Keeps (Answers ps) (HasRule rule) (call (.powershell text)) := by
  refine triple_call ?_
  rintro m r m' ⟨-, hrules⟩ hrule
  simp only [List.mem_cons, List.not_mem_nil, or_false] at htext
  rcases htext with rfl | rfl | rfl
  · rcases hps.add htld hrules with hsame | ⟨-, name, hadded⟩
    · rw [HasRule, hsame]
      exact hrule
    · rw [HasRule, hadded]
      exact List.mem_append_left _ hrule
  · exact (hps.remove hrules).2 rule hrule hmarker hlegacy
  · rw [HasRule, hps.flush hrules]
    exact hrule

theorem stepKept_hasRule (hps : DocumentedPowerShell psEq ps)
    (hmarker : psEq rule.comment marker = false)
    (hlegacy : psEq rule.comment legacyInstallerMarker = false) {os : Os} {owner : ResolvOwner}
    {config : Config} (hvalid : config.validate = .ok ()) {s : Step}
    (hs : s ∈ configureResolverSteps os owner config.loopbackIp config.tld ∨
      s ∈ unconfigureResolverSteps os config.loopbackIp config.tld) :
    StepKept (Answers ps) (HasRule rule) os config.loopbackIp s := by
  have htld := ((Config.validate_eq_ok_iff config).mp hvalid).tld
  cases s with
  | write path content => exact keeps_hasRule_atomicWrite _ _ _
  | removeOurs path => exact keeps_hasRule_removeIfOurs _ _
  | exec program args => trivial
  | ps text label bucket =>
      refine @keeps_hasRule_powershell _ _ _ hps hmarker hlegacy config.loopbackIp _ _ htld ?_
      rcases hs with hs | hs
      · rw [(windows_of_ps_mem (psCommands_configure ..) hs).2]
        exact List.mem_cons_self
      · rw [(windows_of_ps_mem (psCommands_unconfigure ..) hs).2]
        exact List.mem_cons_of_mem _ List.mem_cons_self
  | psExec text =>
      refine @keeps_hasRule_powershell _ _ _ hps hmarker hlegacy config.loopbackIp _ _ htld ?_
      have htext : text = clearDnsClientCache := by
        rcases hs with hs | hs
        · exact (windows_of_psExec_mem (psExecCommands_configure ..) hs).2
        · exact (windows_of_psExec_mem (psExecCommands_unconfigure ..) hs).2
      rw [htext]
      exact List.mem_cons_of_mem _ (List.mem_cons_of_mem _ List.mem_cons_self)
  | note msg => trivial

/-- A run keeps a rule whose comment is neither marker. -/
theorem keeps_hasRule_command (hps : DocumentedPowerShell psEq ps)
    (hmarker : psEq rule.comment marker = false)
    (hlegacy : psEq rule.comment legacyInstallerMarker = false) {os : Os} {command : Command}
    (hvalid : command.config.validate = .ok ()) :
    Keeps (Answers ps) (HasRule rule) (command.prog os) := by
  have hcalm : ∀ q : Call, q.isEdit = false → Keeps (Answers ps) (HasRule rule) (call q) :=
    fun q hq => keeps_hasRule_call q (isEdit_powershell hq)
  cases command with
  | configureOs config =>
      exact keeps_configure hcalm fun owner s hs =>
        stepKept_hasRule hps hmarker hlegacy hvalid (Or.inl hs)
  | unconfigureOs config =>
      exact keeps_unconfigure hcalm
        (fun s hs => @stepKept_hasRule _ _ _ hps hmarker hlegacy _ .unknown _ hvalid s (Or.inr hs))
        fun r => keeps_hasRule_removeBrowserPolicy _ _ _

end Rules

/-- Whatever calls fail, a sequence of runs keeps every foreign file that no run seizes by the
paths of its own plan, and every rule whose comment is neither marker. -/
theorem runCommands_frame {psEq : Str → Str → Bool} {ps : PowerShell}
    (hps : DocumentedPowerShell psEq ps) (os : Os) (runs : List (Command × Report))
    (hvalid : ∀ run ∈ runs, run.1.config.validate = .ok ()) (m m' : Machine) :
    (∀ place attrs bytes, m.files place = some (.file attrs bytes) →
      (∀ run ∈ runs, IsForeign run.1.config.loopbackIp bytes) →
        Session (fun run => Sparing ps (run.1.seizedPaths os run.2) place) os m runs m' →
          m'.files place = some (.file attrs bytes)) ∧
    (Session (fun _ => Answers ps) os m runs m' →
      ∀ rule ∈ m.rules, psEq rule.comment marker = false →
        psEq rule.comment legacyInstallerMarker = false → rule ∈ m'.rules) := by
  refine ⟨fun place attrs bytes hfile hforeign hruns => hasFile_session hforeign hruns hfile, ?_⟩
  intro hruns rule hrule hmarker hlegacy
  have hkeeps : Keeps (Answers ps) (HasRule rule) (runCommands os (runs.map Prod.fst)) := by
    refine keeps_runCommands (List.forall_mem_map.mpr fun run hrun => ?_)
    exact keeps_hasRule_command hps hmarker hlegacy (hvalid run hrun)
  exact hkeeps (session_iff_exec.mp hruns) hrule

/-! ## Small machines -/

/-- A machine with one file and one rule. -/
def oneFile (path : Str) (bytes : List UInt8) (comment : Str) : Machine where
  files := (FileTree.makeDirs (fun _ => none) rootAttrs (names path).dropLast).set (names path)
    (some (.file rootAttrs bytes))
  rules := [⟨"1".toList, [".corp".toList], "10.0.0.1".toList, comment⟩]

theorem isForeign_brackets (ourIp : Ipv4Addr) : IsForeign ourIp (utf8 "[]".toList) := by
  intro text htext
  obtain rfl := utf8_injective htext
  have htrim : trim "[]".toList ≠ "nameserver ".toList ++ ourIp.fmt := by
    intro h
    have hlength := congrArg List.length h
    rw [List.length_append] at hlength
    have hle : (trim "[]".toList).length < "nameserver ".toList.length := by decide
    omega
  have hmarkers : (strContains "[]".toList marker ||
      strContains "[]".toList legacyInstallerMarker) = false := by decide +kernel
  rw [contentIsOurs, hmarkers, Bool.false_or]
  exact decide_eq_false htrim

theorem default_validate : Config.default.validate = .ok () := by
  decide +kernel

/-- A foreign file at a policy path is removed on sight, one at a path that
`configure-os` writes is replaced, and PowerShell takes a comment for the marker
when it differs in case only. -/
theorem runs_touch_foreign :
    Config.default.validate = .ok () ∧ (∀ ourIp, IsForeign ourIp (utf8 "[]".toList)) ∧
    (∃ reports m', Exec (Answers PowerShell.reference)
        (oneFile linuxChromePolicy (utf8 "[]".toList) [])
        (runCommands .linux [.unconfigureOs Config.default]) reports m' ∧
      HasFile (names linuxChromePolicy) rootAttrs (utf8 "[]".toList)
        (oneFile linuxChromePolicy (utf8 "[]".toList) []) ∧
      m'.files (names linuxChromePolicy) = none) ∧
    (∃ reports m', Exec (Answers PowerShell.reference)
        (oneFile (macosResolverPath defaultTld) (utf8 "[]".toList) [])
        (runCommands .macos [.configureOs Config.default]) reports m' ∧
      HasFile (names (macosResolverPath defaultTld)) rootAttrs (utf8 "[]".toList)
        (oneFile (macosResolverPath defaultTld) (utf8 "[]".toList) []) ∧
      ¬ HasFile (names (macosResolverPath defaultTld)) rootAttrs (utf8 "[]".toList) m') ∧
    ∃ reports m', Exec (Answers PowerShell.reference)
        (oneFile [] [] (toAsciiUppercase marker))
        (runCommands .windows [.unconfigureOs Config.default]) reports m' ∧
      (∀ rule ∈ (oneFile [] [] (toAsciiUppercase marker)).rules,
        rule.comment ≠ marker ∧ rule.comment ≠ legacyInstallerMarker) ∧
      m'.rules = [] := by
  refine ⟨default_validate, isForeign_brackets, ?_, ?_, ?_⟩
  · exact ⟨_, _, exec_eval answers_serve _ _, by decide +kernel, by decide +kernel⟩
  · exact ⟨_, _, exec_eval answers_serve _ _, by decide +kernel, by decide +kernel⟩
  · exact ⟨_, _, exec_eval answers_serve _ _, by decide +kernel, by decide +kernel⟩

/-- What `serve` answers is one of the calls of a run that seizes nothing. -/
theorem exec_sparing_eval {α : Type} {paths : List Str} {place : Names} {m : Machine}
    {p : OsProg α}
    (h : ∀ asked ∈ p.asked serve m, ∀ path ∈ paths,
      asked.2.seizes path (serve asked.1 asked.2).1 = true →
        asked.1.files.locate false (names path) ≠ some place) :
    Exec (Sparing PowerShell.reference paths place) m p (p.eval serve m).1 (p.eval serve m).2 :=
  exec_eval_of_asked fun asked hasked => ⟨answers_serve _ _, h asked hasked⟩

/-- A host with `systemd-resolved`, and with a foreign file where the drop-in for `dnsmasq`
would be. -/
def resolvedHost : Machine where
  files := (oneFile linuxNmDnsmasqConf (utf8 "[]".toList) []).files.set
    (names "/etc/resolv.conf".toList)
    (some (.link "../run/systemd/resolve/stub-resolv.conf".toList))
  rules := []

/-- There a `configure-os` run wires `systemd-resolved`, an `unconfigure-os` run takes that
back, and the file is still there. -/
theorem runCommands_frame_resolved :
    ((configure .linux Config.default false).eval serve resolvedHost).1.applied =
        [linuxResolvedDropin] ∧
      ((unconfigure .linux Config.default).eval serve
        ((configure .linux Config.default false).eval serve resolvedHost).2).1.removed =
          [linuxResolvedDropin] ∧
      ((unconfigure .linux Config.default).eval serve
        ((configure .linux Config.default false).eval serve resolvedHost).2).2.files
          (names linuxNmDnsmasqConf) = some (.file rootAttrs (utf8 "[]".toList)) := by
  have hconfigure := @exec_sparing_eval _ [linuxResolvedDropin] (names linuxNmDnsmasqConf)
    resolvedHost (configure .linux Config.default false) (by decide +kernel)
  have hunconfigure := @exec_sparing_eval _ [linuxChromePolicy, linuxChromiumPolicy]
    (names linuxNmDnsmasqConf) ((configure .linux Config.default false).eval serve resolvedHost).2
    (unconfigure .linux Config.default) (by decide +kernel)
  have howner : ((configure .linux Config.default false).eval serve resolvedHost).1.owner =
      .systemdResolved := by decide +kernel
  refine ⟨by decide +kernel, by decide +kernel, ?_⟩
  generalize (configure .linux Config.default false).eval serve resolvedHost = configured
    at hconfigure hunconfigure howner ⊢
  generalize (unconfigure .linux Config.default).eval serve configured.2 = unconfigured
    at hunconfigure ⊢
  have hpaths : (Command.configureOs Config.default).seizedPaths .linux configured.1 =
      [linuxResolvedDropin] := by
    rw [Command.seizedPaths, howner]
    rfl
  rw [← hpaths] at hconfigure
  refine (runCommands_frame documentedPowerShell_reference .linux
    [(.configureOs Config.default, configured.1), (.unconfigureOs Config.default, unconfigured.1)]
    (List.forall_mem_cons.mpr ⟨default_validate, List.forall_mem_singleton.mpr default_validate⟩)
    resolvedHost unconfigured.2).1 (names linuxNmDnsmasqConf) rootAttrs (utf8 "[]".toList)
    (by decide +kernel) (fun run _ => isForeign_brackets _) ?_
  exact ⟨configured.2, hconfigure, unconfigured.2, hunconfigure, rfl⟩

end DigDns.OsConfig
