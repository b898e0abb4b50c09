import DigDns.OsConfig.Frame
import DigDns.OsConfig.Writes

/-!
# Runs in which no call fails

What the steps of a plan do to a machine when every file operation, every
PowerShell command and the check for privileges succeed.  Which resolver a run
finds is left open.
-/

namespace DigDns.OsConfig

open Rust Interaction Posix

/-- The cmdlets, when they succeed, behave as documented for the equality `psEq`
of `-eq`, which holds of equal strings and tells the namespaces of TLDs apart. -/
structure WorkingPowerShell (psEq : Str → Str → Bool) (ps : PowerShell) : Prop where
  refl (s : Str) : psEq s s = true
  tld {tld tld' : Str} (htld : isSafeTld tld = true) (htld' : isSafeTld tld' = true)
    (h : psEq ('.' :: tld) ('.' :: tld') = true) : tld = tld'
  add {ip : Ipv4Addr} {tld : Str} {rules rules' : List NrptRule} (htld : isSafeTld tld = true)
    (h : ps (nrptAddPsCommand ip tld) rules (.ok true) rules') :
    if rules.any fun rule => rule.namespaces.any fun ns => psEq ns ('.' :: tld) then rules' = rules
    else ∃ name, rules' = rules ++ [⟨name, ['.' :: tld], ip.fmt, marker⟩]
  remove {rules rules' : List NrptRule} (h : ps nrptRemovePsCommand rules (.ok true) rules') :
    rules' = rules.filter fun rule =>
      !(psEq rule.comment marker || psEq rule.comment legacyInstallerMarker)
  flush {rules rules' : List NrptRule} (h : ps clearDnsClientCache rules (.ok true) rules') :
    rules' = rules

/-- The answers of a call that does not fail; a path is said to exist, and a file is
read, whenever it can be. -/
def Succeeds (mayLink : Except Str Str → Prop) (mayDir : Bool → Prop) (m : Machine) :
    (q : Call) → Answer q → Prop
  | .spawn program _, answer =>
      (program = "id".toList → ∃ exit, answer = .ok exit ∧ trim exit.stdout = "0".toList) ∧
        (program = "net".toList → ∃ exit, answer = .ok exit ∧ exit.success = true)
  | .powershell _, answer => answer = .ok true
  | .readToString path, answer =>
      ∀ text, m.files.read (names path) = some (utf8 text) → answer = .ok text
  | .createDirAll _, answer => answer = .ok ()
  | .createNew _, answer => answer.isOk = true
  | .writeAll _ _, answer => answer = .ok ()
  | .syncAll _, answer => answer = .ok ()
  | .fsWrite _ _, answer => answer = .ok ()
  | .rename _ _, answer => answer = .ok ()
  | .removeFile _, answer => answer = .ok ()
  | .pathExists path, answer => answer = m.files.isPresent (names path)
  | .isDir _, answer => mayDir answer
  | .readLink _, answer => mayLink answer
  | .readDir _, _ => True
  | .processId, _ => True
  | .toSocketAddrs _, _ => True

/-- The answers of a machine on which no call fails.  What is said of the resolver
is any of the allowed answers. -/
def Working (ps : PowerShell) (mayLink : Except Str Str → Prop) (mayDir : Bool → Prop)
    (m : Machine) (q : Call) (answer : Answer q) (m' : Machine) : Prop :=
  Succeeds mayLink mayDir m q answer ∧
    if q.detects then m' = m else Answers ps m q answer m'

/-- No symbolic link stands at one of the paths. -/
def Unlinked (paths : List Str) (m : Machine) : Prop :=
  ∀ path ∈ paths, m.files.readLink (names path) = none

instance (paths : List Str) (m : Machine) : Decidable (Unlinked paths m) :=
  inferInstanceAs (Decidable (∀ path ∈ paths, m.files.readLink (names path) = none))

/-- What stands at the end of a path that is no link and no directory stops walks. -/
theorem onward_eq_stop {files : FileTree Attrs} {path place : Names}
    (hlink : files.readLink path = none) (hplace : files.locate false path = some place)
    (hinto : onward (files place) ≠ .into) : onward (files place) = .stop := by
  cases hnode : files place with
  | none => rfl
  | some node =>
      cases node with
      | file attrs bytes => rfl
      | link target => simp [FileTree.readLink, hplace, hnode] at hlink
      | dir attrs => exact absurd (congrArg onward hnode) hinto

/-- The calls of the runs, while no link stands at one of the paths. -/
abbrev WorkingRun (ps : PowerShell) (mayLink : Except Str Str → Prop) (mayDir : Bool → Prop)
    (paths : List Str) : Machine → (q : Call) → Answer q → Machine → Prop :=
  Within (Unlinked paths) (Working ps mayLink mayDir)

/-! ## What a step does -/

/-- The path, where no link stands, holds the content: it did before, or what stood
there is replaced. -/
def Written (path content : Str) (m m' : Machine) : Prop :=
  (m' = m ∧ m.files.readLink (names path) = none ∧
      m.files.read (names path) = some (utf8 content)) ∨
    ∃ dir files place attrs, FileTree.MakesDirs dir m.files files ∧
      files.locate false (names path) = some place ∧ onward (files place) = .stop ∧
      m' = { m with files := files.set place (some (.file attrs (utf8 content))) }

/-- What is read at the path is taken for the tool's own. -/
def ReadsOurs (path : Str) (ourIp : Ipv4Addr) (m : Machine) : Prop :=
  ∃ text, m.files.read (names path) = some (utf8 text) ∧ contentIsOurs text ourIp = true

/-- The path is emptied, if what it holds is taken for the tool's own. -/
def Removed (path : Str) (ourIp : Ipv4Addr) (m m' : Machine) : Prop :=
  (m' = m ∧ ¬ReadsOurs path ourIp m) ∨
    ∃ place, m.files.locate false (names path) = some place ∧
      onward (m.files place) ≠ .into ∧ m' = { m with files := m.files.set place none }

/-- What a step of a plan does, where no path of the plan leads to a link. -/
def Effect (ps : PowerShell) (ourIp : Ipv4Addr) : Step → Machine → Machine → Prop
  | .write path content, m, m' => Written path content m m'
  | .removeOurs path, m, m' => Removed path ourIp m m' ∧ m.files.readLink (names path) = none
  | .ps command _ _, m, m' => m'.files = m.files ∧ ps command m.rules (.ok true) m'.rules
  | .psExec command, m, m' => m'.files = m.files ∧ ps command m.rules (.ok true) m'.rules
  | .exec _ _, m, m' => m' = m
  | .note _, m, m' => m' = m

/-- What the steps of a plan do, one after the other. -/
def Effects (ps : PowerShell) (ourIp : Ipv4Addr) : List Step → Machine → Machine → Prop
  | [], m, m' => m' = m
  | s :: steps, m, m' => ∃ m₁, Effect ps ourIp s m m₁ ∧ Effects ps ourIp steps m₁ m'

section Steps

variable {ps : PowerShell} {mayLink : Except Str Str → Prop} {mayDir : Bool → Prop}
  {paths : List Str} {m m' : Machine}

theorem WorkingRun.answers {m m' : Machine} {q : Call} {answer : Answer q}
    (h : WorkingRun ps mayLink mayDir paths m q answer m') (hq : q.detects = false) :
    Answers ps m q answer m' := by
  have hanswer := h.2.2
  rw [hq] at hanswer
  exact hanswer

theorem exec_run {cmd : Str} {args : List Str} {result : Except Str Unit}
    (h : Exec (WorkingRun ps mayLink mayDir paths) m (run cmd args) result m') : m' = m := by
  obtain ⟨answer, m₁, hcall, hrest⟩ := exec_bind_iff.mp h
  obtain rfl : m₁ = m := (exec_query_iff.mp hcall).answers rfl
  cases answer with
  | error e => exact (exec_ret_iff.mp hrest).2
  | ok exit =>
      dsimp only at hrest
      split at hrest
      · exact (exec_ret_iff.mp hrest).2
      · exact (exec_ret_iff.mp hrest).2

theorem exec_runPs {command : Str} {result : Except Str Unit}
    (h : Exec (WorkingRun ps mayLink mayDir paths) m (runPs command) result m') :
    m'.files = m.files ∧ ps command m.rules (.ok true) m'.rules := by
  obtain ⟨answer, m₁, hcall, hrest⟩ := exec_bind_iff.mp h
  have hstep := exec_query_iff.mp hcall
  obtain rfl : answer = .ok true := hstep.2.1
  obtain ⟨-, rfl⟩ := exec_ret_iff.mp hrest
  exact hstep.answers rfl

theorem exec_isElevated {os : Os} {elevated : Bool}
    (h : Exec (WorkingRun ps mayLink mayDir paths) m (isElevated os) elevated m') :
    elevated = true ∧ m' = m := by
  rw [isElevated] at h
  split at h
  · obtain ⟨answer, m₁, hcall, hrest⟩ := exec_bind_iff.mp h
    have hstep := exec_query_iff.mp hcall
    obtain rfl : m₁ = m := hstep.answers rfl
    obtain ⟨exit, rfl, hsuccess⟩ := hstep.2.1.2 rfl
    obtain ⟨rfl, rfl⟩ := exec_ret_iff.mp hrest
    exact ⟨hsuccess, rfl⟩
  · obtain ⟨answer, m₁, hcall, hrest⟩ := exec_bind_iff.mp h
    have hstep := exec_query_iff.mp hcall
    obtain rfl : m₁ = m := hstep.answers rfl
    obtain ⟨exit, rfl, hroot⟩ := hstep.2.1.1 rfl
    obtain ⟨rfl, rfl⟩ := exec_ret_iff.mp hrest
    exact ⟨decide_eq_true hroot, rfl⟩

/-- Away from Windows, `atomic_write` to a path in a directory succeeds. -/
theorem exec_atomicWrite_succeeds {os : Os} {path content dir name : Str}
    {result : Except Str Unit} (hos : os ≠ .windows) (hparent : parent path = some dir)
    (hname : fileName path = some name)
    (h : Exec (WorkingRun ps mayLink mayDir paths) m (atomicWrite os path content) result m') :
    result = .ok () ∧ Unlinked paths m := by
  simp only [atomicWrite, if_neg hos, hparent, hname] at h
  obtain ⟨pid, m₁, hpid, hrest⟩ := exec_bind_iff.mp h
  have hguard := (exec_query_iff.mp hpid).1
  refine ⟨?_, hguard⟩
  obtain ⟨written, m₂, hwritten, hrest⟩ := exec_bind_iff.mp hrest
  have hok : written = .ok () := by
    obtain ⟨opened, m₃, hopened, hwritten⟩ := exec_bind_iff.mp hwritten
    have hopen := (exec_query_iff.mp hopened).2.1
    cases opened with
    | error e => cases hopen
    | ok file =>
        obtain ⟨answer, m₄, hwrite, hsync⟩ := exec_bind_iff.mp hwritten
        obtain rfl : answer = .ok () := (exec_query_iff.mp hwrite).2.1
        exact (exec_query_iff.mp hsync).2.1
  subst hok
  obtain ⟨renamed, m₃, hrenamed, hrest⟩ := exec_bind_iff.mp hrest
  obtain rfl : renamed = .ok () := (exec_query_iff.mp hrenamed).2.1
  exact (exec_ret_iff.mp hrest).1

theorem exec_writeIfChanged {os : Os} {path content dir name : Str} {result : Except Str Bool}
    (hos : os ≠ .windows) (hpath : path ∈ paths) (hparent : parent path = some dir)
    (hname : fileName path = some name)
    (h : Exec (WorkingRun ps mayLink mayDir paths) m (writeIfChanged os path content) result m') :
    Written path content m m' := by
  obtain ⟨existing, m₁, hcall, hrest⟩ := exec_bind_iff.mp h
  have hstep := exec_query_iff.mp hcall
  obtain ⟨rfl, hread⟩ := hstep.answers rfl
  split at hrest
  · rename_i hsame
    obtain ⟨-, rfl⟩ := exec_ret_iff.mp hrest
    cases existing with
    | error e => cases hsame
    | ok text =>
        cases hsame
        exact Or.inl ⟨rfl, hstep.1 path hpath, hread _ rfl⟩
  · obtain ⟨made, m₂, hmade, hrest⟩ := exec_bind_iff.mp hrest
    rw [makeParent, hparent] at hmade
    have hmake := exec_query_iff.mp hmade
    obtain rfl : made = .ok () := hmake.2.1
    obtain ⟨files, hmakes, rfl, -⟩ := hmake.answers rfl
    obtain ⟨written, m₃, hwritten, hrest⟩ := exec_bind_iff.mp hrest
    obtain ⟨-, rfl⟩ := exec_ret_iff.mp hrest
    obtain ⟨rfl, hguard⟩ := exec_atomicWrite_succeeds hos hparent hname hwritten
    obtain ⟨place, attrs, hplace, hinto, rfl⟩ := exec_atomicWrite_ok
      (fun hstep => WorkingRun.answers hstep) hos hwritten
    exact Or.inr ⟨_, files, place, attrs, hmakes, hplace,
      onward_eq_stop (hguard path hpath) hplace hinto, rfl⟩

/-- A file is found to be ours if it is read as such. -/
theorem exec_fileIsOurs {path : Str} {ourIp : Ipv4Addr} {ours : Bool}
    (h : Exec (WorkingRun ps mayLink mayDir paths) m (fileIsOurs path ourIp) ours m') :
    (ours = true ↔ ReadsOurs path ourIp m) ∧ m' = m ∧ Unlinked paths m := by
  obtain ⟨content, m₁, hcall, hret⟩ := exec_bind_iff.mp h
  have hstep := exec_query_iff.mp hcall
  obtain ⟨rfl, hread⟩ := hstep.answers rfl
  have hreads : ∀ text, m₁.files.read (names path) = some (utf8 text) → content = .ok text :=
    hstep.2.1
  obtain ⟨rfl, rfl⟩ := exec_ret_iff.mp hret
  refine ⟨⟨fun hours => ?_, ?_⟩, rfl, hstep.1⟩
  · cases content with
    | error e => cases hours
    | ok text => exact ⟨text, hread text rfl, hours⟩
  · rintro ⟨text, htext, hours⟩
    rw [hreads text htext]
    exact hours

/-- `remove_if_ours` removes what stands at the path exactly if it is read as ours. -/
theorem exec_removeIfOurs_cases {path : Str} {ourIp : Ipv4Addr} {result : Except Str Bool}
    (h : Exec (WorkingRun ps mayLink mayDir paths) m (removeIfOurs path ourIp) result m') :
    (result = .ok true ∧ ReadsOurs path ourIp m ∧
      ∃ place, m.files.locate false (names path) = some place ∧
        onward (m.files place) ≠ .into ∧ m' = { m with files := m.files.set place none }) ∨
    (result = .ok false ∧ ¬ReadsOurs path ourIp m ∧ m' = m) := by
  obtain ⟨ours, m₁, hours, hrest⟩ := exec_bind_iff.mp h
  obtain ⟨hreads, rfl, -⟩ := exec_fileIsOurs hours
  cases ours with
  | true =>
      obtain ⟨answer, m₃, hremove, hret⟩ := exec_bind_iff.mp hrest
      have hstep := exec_query_iff.mp hremove
      obtain rfl : answer = .ok () := hstep.2.1
      obtain ⟨rfl, rfl⟩ := exec_ret_iff.mp hret
      obtain ⟨files, hremoved, rfl⟩ := hstep.answers rfl
      obtain ⟨place, hplace, hinto, rfl⟩ := FileTree.removeFile_eq_some hremoved
      exact Or.inl ⟨rfl, hreads.mp rfl, place, hplace, hinto, rfl⟩
  | false =>
      obtain ⟨rfl, rfl⟩ := exec_ret_iff.mp hrest
      exact Or.inr ⟨rfl, fun hread => Bool.noConfusion (hreads.mpr hread), rfl⟩

theorem exec_removeIfOurs {path : Str} {ourIp : Ipv4Addr} {result : Except Str Bool}
    (h : Exec (WorkingRun ps mayLink mayDir paths) m (removeIfOurs path ourIp) result m') :
    Removed path ourIp m m' ∧ Unlinked paths m := by
  obtain ⟨ours, m₁, hours, -⟩ := exec_bind_iff.mp h
  refine ⟨?_, (exec_fileIsOurs hours).2.2⟩
  rcases exec_removeIfOurs_cases h with ⟨-, -, hremoved⟩ | ⟨-, hreads, rfl⟩
  · exact Or.inr hremoved
  · exact Or.inl ⟨rfl, hreads⟩

/-- A step does what it should, if the paths of the plan are among those of the run. -/
theorem exec_executeStep {os : Os} {ourIp : Ipv4Addr} {r r' : Report} {s : Step}
    (hwrite : ∀ path content, s = .write path content → os ≠ .windows ∧ path ∈ paths ∧
      (parent path).isSome = true ∧ (fileName path).isSome = true)
    (hremove : ∀ path, s = .removeOurs path → path ∈ paths)
    (h : Exec (WorkingRun ps mayLink mayDir paths) m (executeStep os ourIp r s) r' m') :
    Effect ps ourIp s m m' := by
  cases s with
  | write path content =>
      obtain ⟨hos, hpath, hparent, hname⟩ := hwrite path content rfl
      obtain ⟨dir, hdir⟩ := Option.isSome_iff_exists.mp hparent
      obtain ⟨name, hfile⟩ := Option.isSome_iff_exists.mp hname
      obtain ⟨answer, m₁, hcall, hrest⟩ := exec_bind_iff.mp h
      have hsame : m' = m₁ := by
        cases answer with
        | ok _ => exact (exec_ret_iff.mp hrest).2
        | error e => exact (exec_ret_iff.mp hrest).2
      subst hsame
      exact exec_writeIfChanged hos hpath hdir hfile hcall
  | removeOurs path =>
      obtain ⟨answer, m₁, hcall, hrest⟩ := exec_bind_iff.mp h
      have hsame : m' = m₁ := by
        cases answer with
        | error e => exact (exec_ret_iff.mp hrest).2
        | ok removed => cases removed <;> exact (exec_ret_iff.mp hrest).2
      subst hsame
      obtain ⟨hremoved, hguard⟩ := exec_removeIfOurs hcall
      exact ⟨hremoved, hguard path (hremove path rfl)⟩
  | exec program args =>
      obtain ⟨answer, m₁, hcall, hrest⟩ := exec_bind_iff.mp h
      obtain ⟨-, rfl⟩ := exec_ret_iff.mp hrest
      exact exec_run hcall
  | ps command label bucket =>
      obtain ⟨answer, m₁, hcall, hrest⟩ := exec_bind_iff.mp h
      have hsame : m' = m₁ := by
        cases answer with
        | ok _ => exact (exec_ret_iff.mp hrest).2
        | error e => exact (exec_ret_iff.mp hrest).2
      subst hsame
      exact exec_runPs hcall
  | psExec command =>
      obtain ⟨answer, m₁, hcall, hrest⟩ := exec_bind_iff.mp h
      obtain ⟨-, rfl⟩ := exec_ret_iff.mp hrest
      exact exec_runPs hcall
  | note msg => exact (exec_ret_iff.mp h).2

/-- A plan whose writes and removals are at the paths of the run. -/
def PlanWithin (os : Os) (paths : List Str) (steps : List Step) : Prop :=
  (∀ path content, .write path content ∈ steps → os ≠ .windows ∧ path ∈ paths ∧
    (parent path).isSome = true ∧ (fileName path).isSome = true) ∧
  ∀ path, .removeOurs path ∈ steps → path ∈ paths

theorem exec_steps {os : Os} {ourIp : Ipv4Addr} {r r' : Report} {steps : List Step}
    (hplan : PlanWithin os paths steps)
    (h : Exec (WorkingRun ps mayLink mayDir paths) m (steps.foldlM (executeStep os ourIp) r) r' m') :
    Effects ps ourIp steps m m' := by
  induction steps generalizing m r with
  | nil => exact (exec_ret_iff.mp h).2
  | cons s steps ih =>
      rw [List.foldlM_cons] at h
      obtain ⟨r₁, m₁, hfirst, hrest⟩ := exec_bind_iff.mp h
      refine ⟨m₁, exec_executeStep ?_ ?_ hfirst, ih ⟨?_, ?_⟩ hrest⟩
      · rintro path content rfl
        exact hplan.1 path content List.mem_cons_self
      · rintro path rfl
        exact hplan.2 path List.mem_cons_self
      · exact fun path content hmem => hplan.1 path content (List.mem_cons_of_mem _ hmem)
      · exact fun path hmem => hplan.2 path (List.mem_cons_of_mem _ hmem)

end Steps

/-! ## What a run does -/

/-- Entries with some of the names may be gone. -/
def Shrinks (gone : List Str) (m m' : Machine) : Prop :=
  m'.rules = m.rules ∧ ∀ place, m'.files place = m.files place ∨
    m'.files place = none ∧ ∃ name ∈ gone, place.getLast? = some name

/-- The names of the browser policies. -/
def policyNames : List Str := ["dig-dns.json".toList, "com.google.Chrome.plist".toList]

theorem Shrinks.refl (gone : List Str) (m : Machine) : Shrinks gone m m :=
  ⟨rfl, fun _ => Or.inl rfl⟩

theorem Shrinks.trans {gone : List Str} {m m₁ m' : Machine} (h : Shrinks gone m m₁)
    (h' : Shrinks gone m₁ m') : Shrinks gone m m' := by
  refine ⟨h'.1.trans h.1, fun place => ?_⟩
  rcases h'.2 place with hsame | hgone
  · rw [hsame]
    exact h.2 place
  · exact Or.inr hgone

/-- An entry that is taken away has the last name of its path. -/
theorem shrinks_set_none {gone : List Str} {m : Machine} {path name : Str} {place : Names}
    (hname : name ∈ gone) (hdots : name ≠ ['.', '.'])
    (hlast : (names path).getLast? = some name)
    (hplace : m.files.locate false (names path) = some place) :
    Shrinks gone m { m with files := m.files.set place none } := by
  refine ⟨rfl, fun other => ?_⟩
  by_cases hother : other = place
  · subst hother
    exact Or.inr ⟨FileTree.set_self .., name, hname, FileTree.getLast?_locate hdots hlast hplace⟩
  · exact Or.inl (FileTree.set_of_ne hother)

theorem Removed.shrinks {gone : List Str} {m m' : Machine} {path name : Str} {ourIp : Ipv4Addr}
    (h : Removed path ourIp m m') (hname : name ∈ gone) (hdots : name ≠ ['.', '.'])
    (hlast : (names path).getLast? = some name) : Shrinks gone m m' := by
  rcases h with ⟨rfl, -⟩ | ⟨place, hplace, -, rfl⟩
  · exact .refl gone m'
  · exact shrinks_set_none hname hdots hlast hplace

section Commands

variable {ps : PowerShell} {mayLink : Except Str Str → Prop} {mayDir : Bool → Prop}
  {paths : List Str} {os : Os} {config : Config} {m m' : Machine} {r r' : Report}

theorem exec_removeLinuxPolicy {path : Str} (hpath : path ∈ [linuxChromePolicy, linuxChromiumPolicy])
    (h : Exec (WorkingRun ps mayLink mayDir paths) m (removeLinuxPolicy r path) r' m') :
    Shrinks policyNames m m' := by
  have hlast : (names path).getLast? = some "dig-dns.json".toList := by
    rcases List.mem_pair.mp hpath with rfl | rfl <;> decide
  obtain ⟨present, m₁, hcall, hrest⟩ := exec_bind_iff.mp h
  obtain ⟨rfl, -⟩ := (exec_query_iff.mp hcall).answers rfl
  split at hrest
  · obtain ⟨removed, m₂, hremove, hrest⟩ := exec_bind_iff.mp hrest
    have hstep := exec_query_iff.mp hremove
    obtain rfl : removed = .ok () := hstep.2.1
    obtain ⟨-, rfl⟩ := exec_ret_iff.mp hrest
    obtain ⟨files, hremoved, rfl⟩ := hstep.answers rfl
    obtain ⟨place, hplace, -, rfl⟩ := FileTree.removeFile_eq_some hremoved
    exact shrinks_set_none List.mem_cons_self (by decide) hlast hplace
  · obtain ⟨-, rfl⟩ := exec_ret_iff.mp hrest
    exact .refl _ _

/-- Removing the browser policies takes no other entry away. -/
theorem exec_removeBrowserPolicy {ourIp : Ipv4Addr}
    (h : Exec (WorkingRun ps mayLink mayDir paths) m (removeBrowserPolicy os ourIp r) r' m') :
    Shrinks policyNames m m' := by
  cases os with
  | linux =>
      have hkeeps : Keeps (WorkingRun ps mayLink mayDir paths) (Shrinks policyNames m)
          ([linuxChromePolicy, linuxChromiumPolicy].foldlM removeLinuxPolicy r) := by
        refine keeps_foldlM (fun path hpath r m₁ r₁ m₂ hexec hshrinks => ?_) r
        exact hshrinks.trans (exec_removeLinuxPolicy hpath hexec)
      exact hkeeps h (.refl _ _)
  | macos =>
      obtain ⟨removed, m₁, hremoved, hrest⟩ := exec_bind_iff.mp h
      have hsame : m' = m₁ := by
        split at hrest
        · exact (exec_ret_iff.mp hrest).2
        · exact (exec_ret_iff.mp hrest).2
      subst hsame
      exact (exec_removeIfOurs hremoved).1.shrinks (List.mem_cons_of_mem _ List.mem_cons_self)
        (by decide) (by decide)
  | windows =>
      have hreg : ∀ args, Keeps (WorkingRun ps mayLink mayDir paths) (Shrinks policyNames m)
          (reg args) := by
        intro args m₁ result m₂ hexec hshrinks
        rw [exec_run hexec]
        exact hshrinks
      have hkeeps : Keeps (WorkingRun ps mayLink mayDir paths) (Shrinks policyNames m)
          (winBrowsers.foldlM removeWindowsPolicy r) := by
        refine keeps_foldlM (fun browser _ r => ?_) r
        refine keeps_bind (keeps_removeWindowsBrowserPolicy hreg _) fun removed => ?_
        split <;> exact keeps_ret _
      exact hkeeps h (.refl _ _)
  | other name =>
      obtain ⟨-, rfl⟩ := exec_ret_iff.mp h
      exact .refl _ _

/-- The resolver of the plan, from what `detect_resolv_owner_live` is told on Linux. -/
theorem exec_detect {owner : ResolvOwner}
    (h : Exec (WorkingRun ps mayLink mayDir paths) m
      (if os = .linux then detectResolvOwnerLive else pure .unknown) owner m') :
    m' = m ∧ (os = .linux → ∃ link dir, mayLink link ∧ mayDir dir ∧
      owner = detectResolvOwner link.toOption dir) := by
  split at h
  · obtain ⟨link, m₁, hlink, hrest⟩ := exec_bind_iff.mp h
    obtain ⟨dir, m₂, hdir, hret⟩ := exec_bind_iff.mp hrest
    have hlinkStep := exec_query_iff.mp hlink
    have hdirStep := exec_query_iff.mp hdir
    obtain rfl : m₁ = m := hlinkStep.2.2
    obtain rfl : m₂ = m₁ := hdirStep.2.2
    obtain ⟨rfl, rfl⟩ := exec_ret_iff.mp hret
    exact ⟨rfl, fun _ => ⟨link, dir, hlinkStep.2.1, hdirStep.2.1, rfl⟩⟩
  · rename_i hother
    obtain ⟨-, rfl⟩ := exec_ret_iff.mp h
    exact ⟨rfl, fun hlinux => absurd hlinux hother⟩

/-- A `configure-os` run is one of the plan for the resolver that it finds. -/
theorem exec_configure_plan (hos : os.isSupported = true)
    (h : Exec (WorkingRun ps mayLink mayDir paths) m (configure os config false) r m') :
    ∃ owner r₀ r₁, (os = .linux → ∃ link dir, mayLink link ∧ mayDir dir ∧
        owner = detectResolvOwner link.toOption dir) ∧
      Exec (WorkingRun ps mayLink mayDir paths) m
        ((configureResolverSteps os owner config.loopbackIp config.tld).foldlM
          (executeStep os config.loopbackIp) r₀) r₁ m' := by
  obtain ⟨elevated, m₁, helevated, hrest⟩ := exec_bind_iff.mp h
  obtain ⟨rfl, rfl⟩ := exec_isElevated helevated
  simp only [Bool.not_true, Bool.false_eq_true, if_false, hos] at hrest
  obtain ⟨owner, m₂, hdetect, hexec⟩ := exec_bind_iff.mp hrest
  obtain ⟨rfl, howner⟩ := exec_detect hdetect
  obtain ⟨report, m₃, hexecute, hafter⟩ := exec_bind_iff.mp hexec
  obtain ⟨report', m₄, hpolicy, hwired⟩ := exec_bind_iff.mp hafter
  obtain ⟨-, rfl⟩ := exec_ret_iff.mp hpolicy
  obtain ⟨activated, m₅, hverify, hret⟩ := exec_bind_iff.mp hwired
  obtain ⟨-, rfl⟩ := exec_ret_iff.mp hret
  have hsame : m' = m₄ := by
    split at hverify
    · obtain ⟨resolved, m₆, hcall, hret⟩ := exec_bind_iff.mp hverify
      obtain ⟨-, rfl⟩ := exec_ret_iff.mp hret
      exact (exec_query_iff.mp hcall).answers rfl
    · exact (exec_ret_iff.mp hverify).2
  subst hsame
  exact ⟨owner, _, report, howner, hexecute⟩

/-- A `configure-os` run carries out the plan for the resolver that it finds. -/
theorem exec_configure (hos : os.isSupported = true)
    (hplan : ∀ owner, PlanWithin os paths
      (configureResolverSteps os owner config.loopbackIp config.tld))
    (h : Exec (WorkingRun ps mayLink mayDir paths) m (configure os config false) r m') :
    ∃ owner, (os = .linux → ∃ link dir, mayLink link ∧ mayDir dir ∧
        owner = detectResolvOwner link.toOption dir) ∧
      Effects ps config.loopbackIp
        (configureResolverSteps os owner config.loopbackIp config.tld) m m' := by
  obtain ⟨owner, r₀, r₁, howner, hexecute⟩ := exec_configure_plan hos h
  exact ⟨owner, howner, exec_steps (hplan owner) hexecute⟩

/-- An `unconfigure-os` run is one of its plan, and then removes browser policies. -/
theorem exec_unconfigure_plan (hos : os.isSupported = true)
    (h : Exec (WorkingRun ps mayLink mayDir paths) m (unconfigure os config) r m') :
    ∃ r₀ r₁ r₂ m₁, Exec (WorkingRun ps mayLink mayDir paths) m
        ((unconfigureResolverSteps os config.loopbackIp config.tld).foldlM
          (executeStep os config.loopbackIp) r₀) r₁ m₁ ∧
      Exec (WorkingRun ps mayLink mayDir paths) m₁
        (removeBrowserPolicy os config.loopbackIp r₁) r₂ m' ∧
      r₀.removed = [] ∧ r = noteIfNothingRemoved { r₂ with ok := true } := by
  obtain ⟨elevated, m₁, helevated, hrest⟩ := exec_bind_iff.mp h
  obtain ⟨rfl, rfl⟩ := exec_isElevated helevated
  simp only [Bool.not_true, Bool.false_eq_true, if_false, hos] at hrest
  obtain ⟨report, m₂, hexecute, hafter⟩ := exec_bind_iff.mp hrest
  obtain ⟨report', m₃, hpolicy, hret⟩ := exec_bind_iff.mp hafter
  obtain ⟨rfl, rfl⟩ := exec_ret_iff.mp hret
  exact ⟨_, report, report', m₂, hexecute, hpolicy, rfl, rfl⟩

/-- An `unconfigure-os` run carries out its plan, and removes browser policies. -/
theorem exec_unconfigure (hos : os.isSupported = true)
    (hplan : PlanWithin os paths (unconfigureResolverSteps os config.loopbackIp config.tld))
    (h : Exec (WorkingRun ps mayLink mayDir paths) m (unconfigure os config) r m') :
    ∃ m₁, Effects ps config.loopbackIp
        (unconfigureResolverSteps os config.loopbackIp config.tld) m m₁ ∧
      Shrinks policyNames m₁ m' := by
  obtain ⟨r₀, r₁, r₂, m₁, hexecute, hpolicy, -⟩ := exec_unconfigure_plan hos h
  exact ⟨m₁, exec_steps hplan hexecute, exec_removeBrowserPolicy hpolicy⟩

end Commands

/-! ## A machine on which no call fails -/

/-- The answer of `serve` is one of a call that does not fail. -/
def served (m : Machine) : Call → Bool
  | .readToString path => (m.files.read (names path)).all fun bytes => (asciiText bytes).isSome
  | .createDirAll path => (serve m (.createDirAll path)).1.isOk
  | .createNew path => (serve m (.createNew path)).1.isOk
  | .fsWrite path bytes => (serve m (.fsWrite path bytes)).1.isOk
  | .rename source target => (serve m (.rename source target)).1.isOk
  | .removeFile path => (serve m (.removeFile path)).1.isOk
  | _ => true

theorem eq_ok_of_isOk {ε : Type} {answer : Except ε Unit} (h : answer.isOk = true) :
    answer = .ok () := by
  cases answer with
  | ok _ => rfl
  | error e => cases h

theorem succeeds_serve {m : Machine} {q : Call} (h : served m q = true) :
    Succeeds (fun _ => True) (fun _ => True) m q (serve m q).1 := by
  cases q with
  | spawn program args =>
      refine ⟨?_, fun _ => ⟨_, rfl, rfl⟩⟩
      rintro rfl
      exact ⟨_, rfl, by decide⟩
  | powershell command => exact rfl
  | readToString path =>
      intro text hread
      have hascii := h
      rw [served, hread, Option.all_some] at hascii
      obtain ⟨text', htext⟩ := Option.isSome_iff_exists.mp hascii
      have heq : text' = text := utf8_injective (utf8_of_asciiText htext)
      simp only [serve, hread, Option.bind_some, htext, heq]
  | createDirAll path => exact eq_ok_of_isOk h
  | createNew path => exact h
  | writeAll file bytes => exact rfl
  | syncAll file => exact rfl
  | fsWrite path bytes => exact eq_ok_of_isOk h
  | rename source target => exact eq_ok_of_isOk h
  | removeFile path => exact eq_ok_of_isOk h
  | pathExists path => exact rfl
  | isDir path => trivial
  | readLink path => trivial
  | readDir path => trivial
  | processId => trivial
  | toSocketAddrs host => trivial

theorem working_serve {m : Machine} {q : Call} (h : served m q = true) :
    Working PowerShell.reference (fun _ => True) (fun _ => True) m q (serve m q).1
      (serve m q).2 := by
  refine ⟨succeeds_serve h, ?_⟩
  split
  · rename_i hdetects
    cases q with
    | isDir path => rfl
    | readLink path =>
        simp only [serve]
        split <;> rfl
    | _ => cases hdetects
  · exact answers_serve m q

/-- A run against `serve` in which it never fails. -/
theorem exec_serve {α : Type} {paths : List Str} {m : Machine} {p : OsProg α}
    (h : ∀ asked ∈ p.asked serve m, Unlinked paths asked.1 ∧ served asked.1 asked.2 = true) :
    Exec (WorkingRun PowerShell.reference (fun _ => True) (fun _ => True) paths) m p
      (p.eval serve m).1 (p.eval serve m).2 :=
  exec_eval_of_asked fun asked hasked => ⟨(h asked hasked).1, working_serve (h asked hasked).2⟩

/-- The namespaces of safe TLDs differ when the TLDs do. -/
theorem eq_of_eqIgnoreAsciiCase {tld tld' : Str} (htld : isSafeTld tld = true)
    (htld' : isSafeTld tld' = true) (h : eqIgnoreAsciiCase ('.' :: tld) ('.' :: tld') = true) :
    tld = tld' := by
  have hlower : ∀ tld, isSafeTld tld = true → toAsciiLowercase ('.' :: tld) = '.' :: tld := by
    intro tld htld
    apply toAsciiLowercase_of_no_upper
    intro c hc
    rcases List.mem_cons.mp hc with rfl | hc
    · decide
    · rcases range_of_isSafeTld htld hc with hrange | hrange | rfl
      · omega
      · omega
      · decide
  rw [eqIgnoreAsciiCase, hlower tld htld, hlower tld' htld'] at h
  exact (List.cons.inj (beq_iff_eq.mp h)).2

theorem workingPowerShell_reference : WorkingPowerShell eqIgnoreAsciiCase PowerShell.reference where
  refl s := by simp [eqIgnoreAsciiCase]
  tld := eq_of_eqIgnoreAsciiCase
  add := by
    rintro ip tld rules rules' htld ⟨-, rfl⟩
    obtain ⟨p₀, p₁, p₂, p₃, p₄, hsplit⟩ := splitOn_nrptAddPsCommand ip htld
    rw [referenceRules, hsplit]
    dsimp only
    split
    · rfl
    · exact ⟨[], rfl⟩
  remove := by
    rintro rules rules' ⟨-, rfl⟩
    rw [referenceRules, splitOn_nrptRemovePsCommand]
  flush := by
    rintro rules rules' ⟨-, rfl⟩
    rfl

end DigDns.OsConfig
