import DigDns.OsConfig.Reports
import DigDns.Support.Walks

/-!
# Whether the machine is configured

`is_configured` tells `doctor` whether the resolver is wired.  On Linux it reads
the two drop-ins as `unconfigure-os` does; on macOS it only looks whether
anything is at the resolver path, which `unconfigure-os` leaves there unless it
is ours.
-/

namespace DigDns.OsConfig

open Rust Interaction Posix

/-- `is_configured` -/
def isConfigured (os : Os) (config : Config) : OsProg (Option Bool) :=
  match os with
  | .linux => do
      if ← fileIsOurs linuxResolvedDropin config.loopbackIp then return some true
      else return some (← fileIsOurs linuxNmDnsmasqConf config.loopbackIp)
  | .macos => return some (← call (.pathExists (macosResolverPath config.tld)))
  | _ => return none

/-- The artifacts that it looks at. -/
def resolverArtifacts (os : Os) (tld : Str) : List Str :=
  match os with
  | .linux => [linuxResolvedDropin, linuxNmDnsmasqConf]
  | .macos => [macosResolverPath tld]
  | _ => []

/-- The files of the browser policies. -/
def policyPaths : List Str := [linuxChromePolicy, linuxChromiumPolicy, macosChromePlist]

/-- The path ends in a name, and not above it. -/
def EndsInName (path : Str) : Prop :=
  ∃ name, name ≠ ['.', '.'] ∧ (names path).getLast? = some name

theorem EndsInName.ne_nil {path : Str} (h : EndsInName path) {files : FileTree Attrs}
    {place : Names} (hplace : files.locate false (names path) = some place) : place ≠ [] := by
  obtain ⟨name, hname, hlast⟩ := h
  have hend := FileTree.getLast?_locate hname hlast hplace
  rintro rfl
  cases hend

theorem endsInName_linuxResolvedDropin : EndsInName linuxResolvedDropin :=
  ⟨"dig.conf".toList, by decide, by decide⟩

theorem endsInName_linuxNmDnsmasqConf : EndsInName linuxNmDnsmasqConf :=
  ⟨"dig.conf".toList, by decide, by decide⟩

theorem endsInName_macosLo0Plist : EndsInName macosLo0Plist :=
  ⟨"net.dignetwork.dig-dns-lo0.plist".toList, by decide, by decide⟩

theorem endsInName_macosResolverPath {tld : Str} (htld : isSafeTld tld = true) :
    EndsInName (macosResolverPath tld) :=
  ⟨tld, (ne_dots_of_isSafeTld htld).2, getLast?_macosResolverPath htld⟩

theorem endsInName_of_policy {path : Str} (h : path ∈ policyPaths) : EndsInName path := by
  simp only [policyPaths, List.mem_cons, List.not_mem_nil, or_false] at h
  rcases h with rfl | rfl | rfl
  · exact ⟨"dig-dns.json".toList, by decide, by decide⟩
  · exact ⟨"dig-dns.json".toList, by decide, by decide⟩
  · exact ⟨"com.google.Chrome.plist".toList, by decide, by decide⟩

/-! ## What a removal plan removes -/

/-- The steps remove these paths, in order, those that are read as ours. -/
def Clears (ourIp : Ipv4Addr) : List Step → Machine → List Str → Machine → Prop
  | [], m, removed, m' => removed = [] ∧ m' = m
  | .removeOurs path :: steps, m, removed, m' =>
      (ReadsOurs path ourIp m ∧ ∃ place rest, m.files.locate false (names path) = some place ∧
        place ≠ [] ∧ removed = path :: rest ∧
          Clears ourIp steps { m with files := m.files.set place none } rest m') ∨
      (¬ReadsOurs path ourIp m ∧ Clears ourIp steps m removed m')
  | _ :: steps, m, removed, m' => Clears ourIp steps m removed m'

/-- A report of further removals, of the paths of browser policies. -/
def Tidies (m : Machine) (r : Report) (m' : Machine) (r' : Report) : Prop :=
  FileTree.Thinned m.files m'.files ∧
    ∃ more, r'.removed = r.removed ++ more ∧ ∀ path ∈ more, path ∈ policyPaths

theorem Tidies.refl (m : Machine) (r : Report) : Tidies m r m r :=
  ⟨.refl _, [], (List.append_nil _).symm, List.forall_mem_nil _⟩

theorem Tidies.trans {m m₁ m' : Machine} {r r₁ r' : Report} (h : Tidies m r m₁ r₁)
    (h' : Tidies m₁ r₁ m' r') : Tidies m r m' r' := by
  obtain ⟨hthin, more, hmore, hpaths⟩ := h
  obtain ⟨hthin', more', hmore', hpaths'⟩ := h'
  refine ⟨hthin.trans hthin', more ++ more', ?_, List.forall_mem_append.mpr ⟨hpaths, hpaths'⟩⟩
  rw [hmore', hmore, List.append_assoc]

theorem tidies_removed {m : Machine} {r : Report} {path : Str} {place : Names}
    (hpath : path ∈ policyPaths) (hplace : m.files.locate false (names path) = some place) :
    Tidies m r { m with files := m.files.set place none } (r.record .removed path) :=
  ⟨FileTree.thinned_set_none ((endsInName_of_policy hpath).ne_nil hplace), [path], rfl,
    List.forall_mem_singleton.mpr hpath⟩

section Unconfigure

variable {ps : PowerShell} {mayLink : Except Str Str → Prop} {mayDir : Bool → Prop}
  {os : Os} {config : Config} {ourIp : Ipv4Addr} {m m' : Machine} {r r' : Report}

theorem exec_clears {steps : List Step}
    (hsteps : ∀ s ∈ steps, (∃ path, s = .removeOurs path ∧ EndsInName path) ∨
      ∃ program args, s = .exec program args)
    (h : Exec (WorkingRun ps mayLink mayDir []) m (steps.foldlM (executeStep os ourIp) r) r' m') :
    ∃ removed, r'.removed = r.removed ++ removed ∧ Clears ourIp steps m removed m' := by
  induction steps generalizing m r with
  | nil =>
      obtain ⟨rfl, rfl⟩ := exec_ret_iff.mp h
      exact ⟨[], (List.append_nil _).symm, rfl, rfl⟩
  | cons s steps ih =>
      rw [List.foldlM_cons, executeStep_eq, Prog.bind_bind] at h
      obtain ⟨outcome, m₁, hattempt, hrest⟩ := exec_bind_iff.mp h
      obtain ⟨removed, hremoved, hclears⟩ :=
        ih (fun s' hs' => hsteps s' (List.mem_cons_of_mem _ hs')) hrest
      rcases hsteps s List.mem_cons_self with ⟨path, rfl, hname⟩ | ⟨program, args, rfl⟩
      · rcases exec_removeIfOurs_cases hattempt with
          ⟨rfl, hours, place, hplace, -, rfl⟩ | ⟨rfl, hforeign, rfl⟩
        · refine ⟨path :: removed, ?_, Or.inl ⟨hours, place, removed, hplace,
            hname.ne_nil hplace, rfl, hclears⟩⟩
          rw [hremoved, Report.tell, Report.record, List.append_assoc, List.singleton_append]
        · exact ⟨removed, hremoved, Or.inr ⟨hforeign, hclears⟩⟩
      · obtain ⟨result, m₂, hrun, hret⟩ := exec_bind_iff.mp hattempt
        obtain ⟨-, rfl⟩ := exec_ret_iff.mp hret
        obtain rfl := exec_run hrun
        exact ⟨removed, hremoved, hclears⟩

theorem exec_tidies_linux {path : Str} (hpath : path ∈ policyPaths)
    (h : Exec (WorkingRun ps mayLink mayDir []) m (removeLinuxPolicy r path) r' m') :
    Tidies m r m' r' := by
  obtain ⟨present, m₁, hcall, hrest⟩ := exec_bind_iff.mp h
  obtain ⟨rfl, -⟩ := (exec_query_iff.mp hcall).answers rfl
  split at hrest
  · obtain ⟨removed, m₂, hremove, hret⟩ := exec_bind_iff.mp hrest
    have hstep := exec_query_iff.mp hremove
    obtain rfl : removed = .ok () := hstep.2.1
    obtain ⟨rfl, rfl⟩ := exec_ret_iff.mp hret
    obtain ⟨files, hremoved, rfl⟩ := hstep.answers rfl
    obtain ⟨place, hplace, -, rfl⟩ := FileTree.removeFile_eq_some hremoved
    exact tidies_removed hpath hplace
  · obtain ⟨rfl, rfl⟩ := exec_ret_iff.mp hrest
    exact .refl _ _

/-- Removing the browser policies removes no more than their files. -/
theorem exec_tidies (hos : os = .linux ∨ os = .macos)
    (h : Exec (WorkingRun ps mayLink mayDir []) m (removeBrowserPolicy os ourIp r) r' m') :
    Tidies m r m' r' := by
  rcases hos with rfl | rfl
  · obtain ⟨r₁, m₁, hfirst, hrest⟩ := exec_bind_iff.mp h
    obtain ⟨r₂, m₂, hsecond, hret⟩ := exec_bind_iff.mp hrest
    obtain ⟨rfl, rfl⟩ := exec_ret_iff.mp hret
    exact (exec_tidies_linux List.mem_cons_self hfirst).trans
      (exec_tidies_linux (List.mem_cons_of_mem _ List.mem_cons_self) hsecond)
  · obtain ⟨result, m₁, hremove, hrest⟩ := exec_bind_iff.mp h
    rcases exec_removeIfOurs_cases hremove with ⟨rfl, -, place, hplace, -, rfl⟩ | ⟨rfl, -, rfl⟩
    · obtain ⟨rfl, rfl⟩ := exec_ret_iff.mp hrest
      exact tidies_removed (by simp [policyPaths]) hplace
    · obtain ⟨rfl, rfl⟩ := exec_ret_iff.mp hrest
      exact .refl _ _

theorem removed_noteIfNothingRemoved (r : Report) :
    (noteIfNothingRemoved r).removed = r.removed := by
  rw [noteIfNothingRemoved]
  split <;> rfl

/-- A plan of `unconfigure-os` removes files and runs commands. -/
theorem removal_or_exec_of_mem (hos : os = .linux ∨ os = .macos)
    (htld : isSafeTld config.tld = true) {ip : Ipv4Addr} {s : Step}
    (hs : s ∈ unconfigureResolverSteps os ip config.tld) :
    (∃ path, s = .removeOurs path ∧ EndsInName path) ∨
      ∃ program args, s = .exec program args := by
  rcases hos with rfl | rfl
  all_goals
    simp only [unconfigureResolverSteps, exec, List.mem_cons, List.not_mem_nil, or_false] at hs
  · rcases hs with rfl | rfl | rfl | rfl | rfl
    · exact Or.inl ⟨_, rfl, endsInName_linuxResolvedDropin⟩
    · exact Or.inr ⟨_, _, rfl⟩
    · exact Or.inr ⟨_, _, rfl⟩
    · exact Or.inl ⟨_, rfl, endsInName_linuxNmDnsmasqConf⟩
    · exact Or.inr ⟨_, _, rfl⟩
  · rcases hs with rfl | rfl | rfl | rfl | rfl | rfl
    · exact Or.inr ⟨_, _, rfl⟩
    · exact Or.inl ⟨_, rfl, endsInName_macosLo0Plist⟩
    · exact Or.inr ⟨_, _, rfl⟩
    · exact Or.inl ⟨_, rfl, endsInName_macosResolverPath htld⟩
    · exact Or.inr ⟨_, _, rfl⟩
    · exact Or.inr ⟨_, _, rfl⟩

/-- A run of `unconfigure-os` clears the artifacts, then removes the browser policies. -/
theorem exec_unconfigure_removed (hos : os = .linux ∨ os = .macos)
    (htld : isSafeTld config.tld = true)
    (h : Exec (WorkingRun ps mayLink mayDir []) m (unconfigure os config) r m') :
    ∃ removed more m₁, Clears config.loopbackIp
        (unconfigureResolverSteps os config.loopbackIp config.tld) m removed m₁ ∧
      FileTree.Thinned m₁.files m'.files ∧ r.removed = removed ++ more ∧
        ∀ path ∈ more, path ∈ policyPaths := by
  have hsupported : os.isSupported = true := by
    rcases hos with rfl | rfl <;> rfl
  obtain ⟨r₀, r₁, r₂, m₁, hexecute, hpolicy, hempty, rfl⟩ := exec_unconfigure_plan hsupported h
  obtain ⟨removed, hremoved, hclears⟩ :=
    exec_clears (fun s hs => removal_or_exec_of_mem hos htld hs) hexecute
  obtain ⟨hthin, more, hmore, hpaths⟩ := exec_tidies hos hpolicy
  refine ⟨removed, more, m₁, hclears, hthin, ?_, hpaths⟩
  rw [removed_noteIfNothingRemoved, hmore, hremoved, hempty, List.nil_append]

end Unconfigure

/-! ## The check before and after -/

section Reads

variable {ourIp : Ipv4Addr} {m m' : Machine} {path : Str} {place : Names}

theorem ReadsOurs.of_thinned (h : ReadsOurs path ourIp m')
    (hthin : FileTree.Thinned m.files m'.files) : ReadsOurs path ourIp m := by
  obtain ⟨text, hread, hours⟩ := h
  exact ⟨text, hthin.read hread, hours⟩

theorem ReadsOurs.isPresent (h : ReadsOurs path ourIp m) :
    m.files.isPresent (names path) = true := by
  obtain ⟨text, hread, -⟩ := h
  obtain ⟨place, hplace, hbytes⟩ := Option.bind_eq_some_iff.mp hread
  rw [FileTree.isPresent, hplace]
  split at hbytes
  · rename_i attrs bytes hfile
    simp [hfile]
  · cases hbytes

theorem not_readsOurs_removed (hplace : m.files.locate false (names path) = some place) :
    ¬ReadsOurs path ourIp { m with files := m.files.set place none } := by
  rintro ⟨text, hread, -⟩
  rw [FileTree.read_removed hplace] at hread
  cases hread

end Reads

/-- What stands at the resolver path on macOS is ours, and still read when the file of
the loopback daemon, if it is ours, is removed before it. -/
def Telling (os : Os) (config : Config) (m : Machine) : Prop :=
  os = .macos → m.files.isPresent (names (macosResolverPath config.tld)) = true →
    ReadsOurs (macosResolverPath config.tld) config.loopbackIp m ∧
      (ReadsOurs macosLo0Plist config.loopbackIp m →
        ∀ place, m.files.locate false (names macosLo0Plist) = some place →
          ReadsOurs (macosResolverPath config.tld) config.loopbackIp
            { m with files := m.files.set place none })

section Check

variable {ps : PowerShell} {mayLink : Except Str Str → Prop} {mayDir : Bool → Prop}
  {os : Os} {config : Config} {ourIp : Ipv4Addr} {m m' : Machine} {answer : Option Bool}
  {removed : List Str} {tld : Str}

theorem exec_isConfigured_linux
    (h : Exec (WorkingRun ps mayLink mayDir []) m (isConfigured .linux config) answer m') :
    ∃ ours, answer = some ours ∧ (ours = true ↔ ReadsOurs linuxResolvedDropin config.loopbackIp m ∨
      ReadsOurs linuxNmDnsmasqConf config.loopbackIp m) := by
  obtain ⟨first, m₁, hfirst, hrest⟩ := exec_bind_iff.mp h
  obtain ⟨hours, rfl, -⟩ := exec_fileIsOurs hfirst
  cases first with
  | true =>
      obtain ⟨rfl, rfl⟩ := exec_ret_iff.mp hrest
      exact ⟨true, rfl, iff_of_true rfl (Or.inl (hours.mp rfl))⟩
  | false =>
      obtain ⟨second, m₂, hsecond, hret⟩ := exec_bind_iff.mp hrest
      obtain ⟨hours', rfl, -⟩ := exec_fileIsOurs hsecond
      obtain ⟨rfl, rfl⟩ := exec_ret_iff.mp hret
      refine ⟨second, rfl, hours'.trans (or_iff_right fun hread => ?_).symm⟩
      exact Bool.noConfusion (hours.mpr hread)

theorem exec_isConfigured_macos
    (h : Exec (WorkingRun ps mayLink mayDir []) m (isConfigured .macos config) answer m') :
    answer = some (m.files.isPresent (names (macosResolverPath config.tld))) := by
  obtain ⟨present, m₁, hcall, hret⟩ := exec_bind_iff.mp h
  obtain ⟨rfl, -⟩ := exec_ret_iff.mp hret
  rw [(exec_query_iff.mp hcall).2.1]

/-- On Linux the plan removes a drop-in if one is read as ours, and then none is. -/
theorem clears_linux (h : Clears ourIp (unconfigureResolverSteps .linux ourIp tld) m removed m') :
    ((∃ path ∈ resolverArtifacts .linux tld, path ∈ removed) ↔
      ReadsOurs linuxResolvedDropin ourIp m ∨ ReadsOurs linuxNmDnsmasqConf ourIp m) ∧
    ¬ReadsOurs linuxResolvedDropin ourIp m' ∧ ¬ReadsOurs linuxNmDnsmasqConf ourIp m' := by
  have hmem : ∀ {path : Str} {l : List Str}, path ∈ resolverArtifacts .linux tld → path ∈ l →
      ∃ path ∈ resolverArtifacts .linux tld, path ∈ l :=
    fun {path l} hpath hl => ⟨path, hpath, hl⟩
  rcases h with ⟨hfirst, place, rest, hplace, hne, rfl, hrest⟩ | ⟨hfirst, hrest⟩
  · have hthin : FileTree.Thinned m.files (m.files.set place none) :=
      FileTree.thinned_set_none hne
    refine ⟨iff_of_true (hmem List.mem_cons_self List.mem_cons_self) (Or.inl hfirst), ?_⟩
    rcases hrest with ⟨-, place', rest', hplace', hne', rfl, rfl, rfl⟩ | ⟨hsecond, rfl, rfl⟩
    · refine ⟨fun hread => ?_, not_readsOurs_removed hplace'⟩
      exact not_readsOurs_removed hplace (hread.of_thinned (FileTree.thinned_set_none hne'))
    · exact ⟨not_readsOurs_removed hplace, hsecond⟩
  · rcases hrest with ⟨hsecond, place', rest', hplace', hne', rfl, rfl, rfl⟩ | ⟨hsecond, rfl, rfl⟩
    · refine ⟨iff_of_true (hmem (List.mem_cons_of_mem _ List.mem_cons_self) List.mem_cons_self)
        (Or.inr hsecond), fun hread => ?_, not_readsOurs_removed hplace'⟩
      exact hfirst (hread.of_thinned (FileTree.thinned_set_none hne'))
    · refine ⟨iff_of_false ?_ (not_or.mpr ⟨hfirst, hsecond⟩), hfirst, hsecond⟩
      rintro ⟨path, -, hpath⟩
      cases hpath

theorem ne_macosLo0Plist (tld : Str) : macosResolverPath tld ≠ macosLo0Plist := by
  intro h
  have hsecond : some 'e' = some 'L' := congrArg (fun path => path[1]?) h
  cases hsecond

theorem macosResolverPath_not_mem_policyPaths (tld : Str) :
    macosResolverPath tld ∉ policyPaths := by
  intro h
  simp only [policyPaths, List.mem_cons, List.not_mem_nil, or_false] at h
  rcases h with h | h | h
  · have hsixth : some 'r' = some 'o' := congrArg (fun path => path[5]?) h
    cases hsixth
  · have hsixth : some 'r' = some 'c' := congrArg (fun path => path[5]?) h
    cases hsixth
  · have hsecond : some 'e' = some 'L' := congrArg (fun path => path[1]?) h
    cases hsecond

/-- On macOS the plan removes the resolver file if it is read as ours once the loopback
daemon is cleared. -/
theorem clears_macos (h : Clears ourIp (unconfigureResolverSteps .macos ourIp tld) m removed m') :
    ∃ m₁, ((¬ReadsOurs macosLo0Plist ourIp m ∧ m₁ = m) ∨
        (ReadsOurs macosLo0Plist ourIp m ∧ ∃ place, place ≠ [] ∧
          m.files.locate false (names macosLo0Plist) = some place ∧
            m₁ = { m with files := m.files.set place none })) ∧
      (macosResolverPath tld ∈ removed ↔ ReadsOurs (macosResolverPath tld) ourIp m₁) ∧
      FileTree.Thinned m₁.files m'.files ∧
      (ReadsOurs (macosResolverPath tld) ourIp m₁ →
        m'.files.isPresent (names (macosResolverPath tld)) = false) := by
  have hother := ne_macosLo0Plist tld
  have hrest : ∀ {m₁ : Machine} {rest : List Str},
      Clears ourIp ((unconfigureResolverSteps .macos ourIp tld).drop 3) m₁ rest m' →
      (macosResolverPath tld ∈ rest ↔ ReadsOurs (macosResolverPath tld) ourIp m₁) ∧
      FileTree.Thinned m₁.files m'.files ∧
      (ReadsOurs (macosResolverPath tld) ourIp m₁ →
        m'.files.isPresent (names (macosResolverPath tld)) = false) := by
    intro m₁ rest hrest
    rcases hrest with ⟨hours, place, rest', hplace, hne, rfl, rfl, rfl⟩ | ⟨hforeign, rfl, rfl⟩
    · exact ⟨iff_of_true List.mem_cons_self hours, FileTree.thinned_set_none hne,
        fun _ => FileTree.isPresent_removed hne hplace⟩
    · exact ⟨iff_of_false List.not_mem_nil hforeign, .refl _, fun hours => absurd hours hforeign⟩
  rcases h with ⟨hours, place, rest, hplace, hne, rfl, htail⟩ | ⟨hforeign, htail⟩
  · refine ⟨_, Or.inr ⟨hours, place, hne, hplace, rfl⟩, ?_⟩
    rw [List.mem_cons, or_iff_right hother]
    exact hrest htail
  · exact ⟨m, Or.inl ⟨hforeign, rfl⟩, hrest htail⟩

/-- On macOS the plan removes what is at the resolver path exactly if that is ours. -/
theorem clears_macos_iff
    (h : Clears config.loopbackIp (unconfigureResolverSteps .macos config.loopbackIp config.tld)
      m removed m') :
    ((m.files.isPresent (names (macosResolverPath config.tld)) = true ↔
        macosResolverPath config.tld ∈ removed) ↔ Telling .macos config m) ∧
    (Telling .macos config m →
      m'.files.isPresent (names (macosResolverPath config.tld)) = false) := by
  obtain ⟨m₁, hcleared, hremoved, hthin, hgone⟩ := clears_macos h
  have hthinFirst : FileTree.Thinned m.files m₁.files := by
    rcases hcleared with ⟨-, rfl⟩ | ⟨-, place, hne, -, rfl⟩
    · exact .refl _
    · exact FileTree.thinned_set_none hne
  -- What is ours once the daemon is cleared is so before, and there.
  have hback : ReadsOurs (macosResolverPath config.tld) config.loopbackIp m₁ →
      m.files.isPresent (names (macosResolverPath config.tld)) = true :=
    fun hours => (hours.of_thinned hthinFirst).isPresent
  have htelling : Telling .macos config m ↔
      (m.files.isPresent (names (macosResolverPath config.tld)) = true →
        ReadsOurs (macosResolverPath config.tld) config.loopbackIp m₁) := by
    rcases hcleared with ⟨hforeign, rfl⟩ | ⟨hours, place, hne, hplace, rfl⟩
    · constructor
      · exact fun h hpresent => (h rfl hpresent).1
      · exact fun h _ hpresent => ⟨h hpresent, fun hours => absurd hours hforeign⟩
    · constructor
      · exact fun h hpresent => (h rfl hpresent).2 hours place hplace
      · intro h _ hpresent
        refine ⟨(h hpresent).of_thinned hthinFirst, fun _ other hother => ?_⟩
        rw [hplace, Option.some.injEq] at hother
        rw [← hother]
        exact h hpresent
  rw [htelling, hremoved]
  refine ⟨⟨fun hiff => hiff.mp, fun himp => ⟨himp, hback⟩⟩, fun himp => ?_⟩
  by_cases hours : ReadsOurs (macosResolverPath config.tld) config.loopbackIp m₁
  · exact hgone hours
  · rw [← Bool.not_eq_true]
    exact fun hpresent => hours (himp (hthinFirst.isPresent (hthin.isPresent hpresent)))

end Check

/-! ## What a configuration leaves for the check -/

/-- What is replaced when a path is written is not on the way to a resolver artifact, nor
what another artifact leads to. -/
def Undisturbed (os : Os) (tld : Str) (m : Machine) : Prop :=
  ∀ path ∈ artifactPaths os [tld] ++ policyPaths, ∀ place ∈ m.files.locate false (names path),
    onward (m.files place) ≠ .into → ∀ artifact ∈ resolverArtifacts os tld,
      (path = artifact → (m.files.set place none).locate false (names artifact) = some place) ∧
      (path ≠ artifact → m.files.locate true (names artifact) ≠ some place ∧
        (m.files.set place none).locate true (names artifact) =
          m.files.locate true (names artifact))

instance (os : Os) (tld : Str) (m : Machine) : Decidable (Undisturbed os tld m) :=
  inferInstanceAs (Decidable (∀ path ∈ artifactPaths os [tld] ++ policyPaths,
    ∀ place ∈ m.files.locate false (names path), _))

/-- The path is read as this text. -/
def Reads (path text : Str) (m : Machine) : Prop := m.files.read (names path) = some (utf8 text)

section Configure

variable {ps : PowerShell} {mayLink : Except Str Str → Prop} {mayDir : Bool → Prop}
  {os : Os} {config : Config} {ourIp : Ipv4Addr} {m m' : Machine} {r r' : Report}
  {tld path artifact text content : Str}

/-- The calls of a run in which nothing fails, while nothing disturbs an artifact. -/
abbrev CalmRun (ps : PowerShell) (mayLink : Except Str Str → Prop) (mayDir : Bool → Prop)
    (os : Os) (tld : Str) : Machine → (q : Call) → Answer q → Machine → Prop :=
  Within (Undisturbed os tld) (WorkingRun ps mayLink mayDir [])

theorem keeps_reads_call (q : Call) (hq : q.isEdit = false) :
    Keeps (CalmRun ps mayLink mayDir os tld) (Reads artifact text) (call q) := by
  refine triple_call ?_
  rintro m r m' ⟨-, -, -, hanswer⟩ hreads
  cases q with
  | createDirAll path =>
      obtain ⟨files, hmakes, rfl, -⟩ := hanswer
      refine FileTree.read_kept (fun other hother => ?_) hreads
      obtain ⟨node, hnode⟩ := Option.ne_none_iff_exists'.mp hother
      exact (hmakes.kept hnode).trans hnode.symm
  | createNew path =>
      cases r with
      | error e =>
          obtain rfl : m' = m := hanswer
          exact hreads
      | ok file =>
          obtain ⟨attrs, files, hnew, rfl⟩ := hanswer
          obtain ⟨hvacancy, rfl⟩ := FileTree.createNew_eq_some_iff.mp hnew
          refine FileTree.read_kept (fun other hother => ?_) hreads
          obtain ⟨node, hnode⟩ := Option.ne_none_iff_exists'.mp hother
          exact FileTree.set_of_ne (FileTree.ne_of_vacancy hvacancy hnode)
  | spawn => exact (show m' = m from hanswer) ▸ hreads
  | readToString => exact (show m' = m from hanswer.1) ▸ hreads
  | syncAll => exact (show m' = m from hanswer) ▸ hreads
  | pathExists => exact (show m' = m from hanswer.1) ▸ hreads
  | isDir => exact (show m' = m from hanswer) ▸ hreads
  | readLink => exact (show m' = m from hanswer) ▸ hreads
  | readDir => exact (show m' = m from hanswer.1) ▸ hreads
  | processId => exact (show m' = m from hanswer) ▸ hreads
  | toSocketAddrs => exact (show m' = m from hanswer) ▸ hreads
  | powershell => cases hq
  | writeAll => cases hq
  | fsWrite => cases hq
  | rename => cases hq
  | removeFile => cases hq

/-- What `atomic_write` does, and that nothing is disturbed where it starts. -/
theorem exec_atomicWrite_calm {result : Except Str Unit} (hos : os ≠ .windows)
    (hentry : IsEntry path)
    (h : Exec (CalmRun ps mayLink mayDir os tld) m (atomicWrite os path content) result m') :
    Undisturbed os tld m ∧ ∃ place attrs, m.files.locate false (names path) = some place ∧
      onward (m.files place) ≠ .into ∧
      m' = { m with files := m.files.set place (some (.file attrs (utf8 content))) } := by
  obtain ⟨dir, hdir⟩ := Option.isSome_iff_exists.mp hentry.1
  obtain ⟨name, hname⟩ := Option.isSome_iff_exists.mp hentry.2
  obtain ⟨rfl, -⟩ := exec_atomicWrite_succeeds hos hdir hname h.of_within
  refine ⟨?_, exec_atomicWrite_ok (fun hstep => WorkingRun.answers hstep) hos h.of_within⟩
  simp only [atomicWrite, if_neg hos, hdir, hname] at h
  obtain ⟨pid, m₁, hpid, -⟩ := exec_bind_iff.mp h
  exact (exec_query_iff.mp hpid).1

/-- Another file that is written leaves what is read of an artifact. -/
theorem keeps_reads_atomicWrite (hos : os ≠ .windows) (hentry : IsEntry path)
    (hpath : path ∈ artifactPaths os [tld] ++ policyPaths)
    (hartifact : artifact ∈ resolverArtifacts os tld) (hne : path ≠ artifact) :
    Keeps (CalmRun ps mayLink mayDir os tld) (Reads artifact text)
      (atomicWrite os path content) := by
  intro m result m' h hreads
  obtain ⟨hcalm, place, attrs, hplace, hinto, rfl⟩ := exec_atomicWrite_calm hos hentry h
  obtain ⟨helsewhere, hway⟩ := (hcalm path hpath place hplace hinto artifact hartifact).2 hne
  have hlocate : (m.files.set place (some (.file attrs (utf8 content)))).locate true
      (names artifact) = m.files.locate true (names artifact) := by
    rw [FileTree.locate_set_file_eq, hway]
  obtain ⟨other, hother, hbytes⟩ := Option.bind_eq_some_iff.mp hreads
  have hsame : other ≠ place := by
    rintro rfl
    exact helsewhere hother
  have hnode : m.files.set place (some (.file attrs (utf8 content))) other = m.files other :=
    FileTree.set_of_ne hsame
  rw [Reads, FileTree.read, hlocate, hother, Option.bind_eq_bind, Option.bind_some]
  dsimp only
  rwa [hnode]

/-- An artifact that is written is read. -/
theorem exec_writeIfChanged_reads {result : Except Str Bool} (hos : os ≠ .windows)
    (hentry : IsEntry artifact) (hpath : artifact ∈ artifactPaths os [tld] ++ policyPaths)
    (hartifact : artifact ∈ resolverArtifacts os tld)
    (h : Exec (CalmRun ps mayLink mayDir os tld) m (writeIfChanged os artifact content)
      result m') : Reads artifact content m' := by
  obtain ⟨existing, m₁, hcall, hrest⟩ := exec_bind_iff.mp h
  obtain ⟨rfl, hread⟩ := (exec_query_iff.mp hcall).2.answers rfl
  split at hrest
  · rename_i hsame
    obtain ⟨-, rfl⟩ := exec_ret_iff.mp hrest
    cases existing with
    | error e => cases hsame
    | ok text =>
        cases hsame
        exact hread _ rfl
  · obtain ⟨made, m₂, hmade, hafter⟩ := exec_bind_iff.mp hrest
    obtain ⟨dir, hdir⟩ := Option.isSome_iff_exists.mp hentry.1
    rw [makeParent, hdir] at hmade
    obtain rfl : made = .ok () := (exec_query_iff.mp hmade).2.2.1
    obtain ⟨written, m₃, hwritten, hret⟩ := exec_bind_iff.mp hafter
    obtain ⟨-, rfl⟩ := exec_ret_iff.mp hret
    obtain ⟨hcalm, place, attrs, hplace, hinto, rfl⟩ := exec_atomicWrite_calm hos hentry hwritten
    have hway := (hcalm artifact hpath place hplace hinto artifact hartifact).1 rfl
    refine FileTree.read_of_locate ?_ (FileTree.set_self _ _ _)
    rw [FileTree.locate_set_file_eq, hway]

/-- The steps of a plan that writes the artifact leave it readable. -/
theorem exec_plan_reads (hos : os ≠ .windows) {steps : List Step}
    (hartifact : artifact ∈ resolverArtifacts os tld)
    (hsteps : ∀ s ∈ steps, (∃ program args, s = .exec program args) ∨
      ∃ path text, s = .write path text ∧ IsEntry path ∧
        path ∈ artifactPaths os [tld] ++ policyPaths ∧ (path = artifact → text = content))
    (h : Exec (CalmRun ps mayLink mayDir os tld) m (steps.foldlM (executeStep os ourIp) r) r' m')
    (hreads : Reads artifact content m ∨ .write artifact content ∈ steps) :
    Reads artifact content m' := by
  induction steps generalizing m r with
  | nil =>
      obtain ⟨rfl, rfl⟩ := exec_ret_iff.mp h
      exact hreads.resolve_right List.not_mem_nil
  | cons s steps ih =>
      rw [List.foldlM_cons] at h
      obtain ⟨r₁, m₁, hfirst, hrest⟩ := exec_bind_iff.mp h
      refine ih (fun s' hs' => hsteps s' (List.mem_cons_of_mem _ hs')) hrest ?_
      have hstep : Reads artifact content m ∨ s = .write artifact content →
          Reads artifact content m₁ := by
        rcases hsteps s List.mem_cons_self with
          ⟨program, args, rfl⟩ | ⟨path, text, rfl, hentry, hpath, htext⟩
        · intro hbefore
          have hkept : StepKept (CalmRun ps mayLink mayDir os tld) (Reads artifact content) os ourIp
              (.exec program args) := trivial
          refine keeps_executeStep keeps_reads_call hkept _ hfirst (hbefore.resolve_right ?_)
          exact Step.noConfusion
        · intro hbefore
          by_cases hsame : path = artifact
          · subst hsame
            obtain rfl := htext rfl
            obtain ⟨outcome, m₂, hwrite, hret⟩ := exec_bind_iff.mp hfirst
            have hmachine : m₁ = m₂ := by
              cases outcome <;> exact (exec_ret_iff.mp hret).2
            rw [hmachine]
            exact exec_writeIfChanged_reads hos hentry hpath hartifact hwrite
          · have hkept : StepKept (CalmRun ps mayLink mayDir os tld) (Reads artifact content) os
                ourIp (.write path text) :=
              keeps_reads_atomicWrite hos hentry hpath hartifact hsame
            refine keeps_executeStep keeps_reads_call hkept _ hfirst
              (hbefore.resolve_right fun heq => ?_)
            cases heq
            exact hsame rfl
      rcases hreads with hreads | hmem
      · exact Or.inl (hstep (Or.inl hreads))
      · rcases List.mem_cons.mp hmem with heq | hmem
        · exact Or.inl (hstep (Or.inr heq.symm))
        · exact Or.inr hmem

theorem keeps_scanManagedPrefs {step : Machine → (q : Call) → Answer q → Machine → Prop}
    {Inv : Machine → Prop} (hcalm : ∀ q, q.isEdit = false → Keeps step Inv (call q))
    (entries : List Str) : Keeps step Inv (scanManagedPrefs ourIp entries) := by
  have hours : ∀ path, Keeps step Inv (fileIsOurs path ourIp) := fun path =>
    keeps_bind (hcalm _ rfl) fun _ => keeps_ret _
  have hforeign : ∀ name path, Keeps step Inv (isForeignPref name path ourIp) := by
    intro name path
    rw [isForeignPref]
    split
    · exact keeps_bind (hours _) fun _ => keeps_ret _
    · exact keeps_ret _
  have hnested : ∀ path, Keeps step Inv (hasForeignPref path ourIp) := by
    intro path
    refine keeps_bind (hcalm _ rfl) fun isDir => ?_
    split
    · refine keeps_bind (hcalm _ rfl) fun present => ?_
      split
      · exact keeps_bind (hours _) fun _ => keeps_ret _
      · exact keeps_ret _
    · exact keeps_ret _
  induction entries with
  | nil => exact keeps_ret _
  | cons name entries ih =>
      refine keeps_bind (hforeign _ _) fun foreign => ?_
      split
      · exact keeps_ret _
      · refine keeps_bind (hnested _) fun foreign => ?_
        split
        · exact keeps_ret _
        · exact ih

/-- The files of the policies are written in directories. -/
theorem isEntry_of_policy (h : path ∈ policyPaths) : IsEntry path := by
  simp only [policyPaths, List.mem_cons, List.not_mem_nil, or_false] at h
  rcases h with rfl | rfl | rfl <;> exact of_literal IsEntry (by decide)

/-- Writing the browser policies leaves what is read of an artifact. -/
theorem keeps_reads_applyBrowserPolicy (hos : os = .linux ∨ os = .macos)
    (hartifact : artifact ∈ resolverArtifacts os tld) (hpolicy : artifact ∉ policyPaths) :
    Keeps (CalmRun ps mayLink mayDir os tld) (Reads artifact text)
      (applyBrowserPolicy os ourIp r) := by
  have hwrite : ∀ path ∈ policyPaths, ∀ content,
      Keeps (CalmRun ps mayLink mayDir os tld) (Reads artifact text)
        (writeIfChanged os path content) := by
    intro path hpath content
    refine keeps_writeIfChanged keeps_reads_call (keeps_reads_atomicWrite ?_
      (isEntry_of_policy hpath) (List.mem_append_right _ hpath) hartifact ?_)
    · rcases hos with rfl | rfl <;> exact Os.noConfusion
    · rintro rfl
      exact hpolicy hpath
  rcases hos with rfl | rfl
  · refine keeps_bind (keeps_foldlM (fun path hpath r => ?_) r) fun _ => keeps_ret _
    have hmem : path ∈ policyPaths := by
      rcases List.mem_pair.mp hpath with rfl | rfl <;> simp [policyPaths]
    refine keeps_bind (hwrite path hmem _) fun outcome => ?_
    cases outcome <;> exact keeps_ret _
  · have hscan : Keeps (CalmRun ps mayLink mayDir .macos tld) (Reads artifact text)
        (existingChromeManagedPolicy ourIp) := by
      refine keeps_bind (keeps_reads_call _ rfl) fun entries => ?_
      cases entries with
      | error e => exact keeps_ret _
      | ok names => exact keeps_scanManagedPrefs keeps_reads_call names
    refine keeps_bind hscan fun foreign => ?_
    split
    · exact keeps_ret _
    · refine keeps_bind (hwrite macosChromePlist (by simp [policyPaths]) _) fun outcome => ?_
      cases outcome <;> exact keeps_ret _

/-- On Linux the policies are all that is then reported as applied. -/
theorem applied_applyBrowserPolicy {step : Machine → (q : Call) → Answer q → Machine → Prop}
    (h : Exec step m (applyBrowserPolicy .linux ourIp r) r' m') :
    ∀ path ∈ r'.applied, path ∈ r.applied ∨ path ∈ policyPaths := by
  have hone : ∀ {m m' : Machine} {r r' : Report} {file : Str}, file ∈ policyPaths →
      Exec step m (applyLinuxPolicy r file) r' m' →
      ∀ path ∈ r'.applied, path ∈ r.applied ∨ path ∈ policyPaths := by
    intro m m' r r' file hfile h path hpath
    obtain ⟨outcome, m₁, -, hret⟩ := exec_bind_iff.mp h
    cases outcome with
    | error e =>
        obtain ⟨rfl, -⟩ := exec_ret_iff.mp hret
        exact Or.inl hpath
    | ok _ =>
        obtain ⟨rfl, -⟩ := exec_ret_iff.mp hret
        rcases List.mem_append.mp hpath with hold | hnew
        · exact Or.inl hold
        · exact Or.inr (List.mem_singleton.mp hnew ▸ hfile)
  obtain ⟨r₁, m₁, hfold, hret⟩ := exec_bind_iff.mp h
  obtain ⟨rfl, rfl⟩ := exec_ret_iff.mp hret
  obtain ⟨r₂, m₂, hfirst, hrest⟩ := exec_bind_iff.mp hfold
  obtain ⟨r₃, m₃, hsecond, hdone⟩ := exec_bind_iff.mp hrest
  obtain ⟨rfl, rfl⟩ := exec_ret_iff.mp hdone
  intro path hpath
  rcases hone (by simp [policyPaths]) hsecond path hpath with hbefore | hpolicy
  · exact hone (by simp [policyPaths]) hfirst path hbefore
  · exact Or.inr hpolicy

theorem not_mem_policyPaths (h : artifact ∈ resolverArtifacts os tld) : artifact ∉ policyPaths := by
  cases os with
  | linux =>
      rcases List.mem_pair.mp h with rfl | rfl
      · exact of_literal (· ∉ policyPaths) (by decide)
      · exact of_literal (· ∉ policyPaths) (by decide)
  | macos =>
      obtain rfl := List.mem_singleton.mp h
      exact macosResolverPath_not_mem_policyPaths tld
  | windows => cases h
  | other name => cases h

/-- A plan that writes a resolver artifact leaves it readable, and only the plan for an
unknown resolver writes none. -/
theorem exec_execute_reads (hos : os = .linux ∨ os = .macos) {owner : ResolvOwner} {action : Str}
    {resolver : Option Str} (htld : isSafeTld tld = true)
    (h : Exec (CalmRun ps mayLink mayDir os tld) m
      (execute os action ourIp resolver (configureResolverSteps os owner ourIp tld)) r m') :
    (os = .linux ∧ r.applied = []) ∨
      ∃ artifact ∈ resolverArtifacts os tld, ∃ content, HasMarker content ∧
        Reads artifact content m' := by
  rcases hos with rfl | rfl
  · cases owner with
    | systemdResolved =>
        refine Or.inr ⟨linuxResolvedDropin, List.mem_cons_self, systemdResolvedDropin ourIp tld,
          hasMarker_systemdResolvedDropin _ _, ?_⟩
        refine exec_plan_reads Os.noConfusion List.mem_cons_self (fun s hs => ?_) h
          (Or.inr List.mem_cons_self)
        simp only [configureResolverSteps, exec, List.mem_cons, List.not_mem_nil, or_false] at hs
        rcases hs with rfl | rfl | rfl
        · exact Or.inr ⟨_, _, rfl, isEntry_linuxResolvedDropin,
            List.mem_append_left _ List.mem_cons_self, fun _ => rfl⟩
        · exact Or.inl ⟨_, _, rfl⟩
        · exact Or.inl ⟨_, _, rfl⟩
    | networkManagerDnsmasq =>
        have hsecond : linuxNmDnsmasqConf ∈ resolverArtifacts .linux tld :=
          List.mem_cons_of_mem _ List.mem_cons_self
        refine Or.inr ⟨linuxNmDnsmasqConf, hsecond, networkmanagerDnsmasqConf ourIp tld,
          hasMarker_networkmanagerDnsmasqConf _ _, ?_⟩
        refine exec_plan_reads Os.noConfusion hsecond (fun s hs => ?_) h (Or.inr List.mem_cons_self)
        simp only [configureResolverSteps, exec, List.mem_cons, List.not_mem_nil, or_false] at hs
        rcases hs with rfl | rfl
        · exact Or.inr ⟨_, _, rfl, isEntry_linuxNmDnsmasqConf,
            List.mem_append_left _ (List.mem_cons_of_mem _ List.mem_cons_self), fun _ => rfl⟩
        · exact Or.inl ⟨_, _, rfl⟩
    | unknown =>
        obtain ⟨rfl, -⟩ := exec_ret_iff.mp h
        exact Or.inl ⟨rfl, rfl⟩
  · refine Or.inr ⟨macosResolverPath tld, List.mem_cons_self, resolverFileContent ourIp,
      hasMarker_resolverFileContent _, ?_⟩
    have hwritten : .write (macosResolverPath tld) (resolverFileContent ourIp) ∈
        configureResolverSteps .macos owner ourIp tld := by
      simp [configureResolverSteps]
    refine exec_plan_reads Os.noConfusion List.mem_cons_self (fun s hs => ?_) h (Or.inr hwritten)
    simp only [configureResolverSteps, exec, List.mem_cons, List.not_mem_nil, or_false] at hs
    rcases hs with rfl | rfl | rfl | rfl | rfl | rfl | rfl | rfl
    · exact Or.inl ⟨_, _, rfl⟩
    · exact Or.inr ⟨_, _, rfl, isEntry_macosLo0Plist, List.mem_append_left _ List.mem_cons_self,
        fun heq => absurd heq.symm (ne_macosLo0Plist tld)⟩
    · exact Or.inl ⟨_, _, rfl⟩
    · exact Or.inl ⟨_, _, rfl⟩
    · exact Or.inl ⟨_, _, rfl⟩
    · exact Or.inr ⟨_, _, rfl, isEntry_macosResolverPath htld,
        List.mem_append_left _ (List.mem_cons_of_mem _ List.mem_cons_self), fun _ => rfl⟩
    · exact Or.inl ⟨_, _, rfl⟩
    · exact Or.inl ⟨_, _, rfl⟩

/-- A run of `configure-os` that applies a resolver artifact leaves one readable. -/
theorem exec_configure_reads (hos : os = .linux ∨ os = .macos) (htld : isSafeTld config.tld = true)
    {browserPolicy : Bool}
    (h : Exec (CalmRun ps mayLink mayDir os config.tld) m (configure os config browserPolicy) r m')
    (happlied : ∃ path ∈ resolverArtifacts os config.tld, path ∈ r.applied) :
    ∃ artifact ∈ resolverArtifacts os config.tld, ∃ content, HasMarker content ∧
      Reads artifact content m' := by
  have hsupported : os.isSupported = true := by
    rcases hos with rfl | rfl <;> rfl
  obtain ⟨elevated, m₁, helevated, hrest⟩ := exec_bind_iff.mp h
  obtain ⟨rfl, -⟩ := exec_isElevated helevated.of_within
  simp only [Bool.not_true, Bool.false_eq_true, if_false, hsupported] at hrest
  obtain ⟨owner, m₂, -, hexec⟩ := exec_bind_iff.mp hrest
  obtain ⟨report, m₃, hexecute, hafter⟩ := exec_bind_iff.mp hexec
  obtain ⟨report', m₄, hpolicy, hwired⟩ := exec_bind_iff.mp hafter
  obtain ⟨activated, m₅, hverify, hret⟩ := exec_bind_iff.mp hwired
  obtain ⟨rfl, rfl⟩ := exec_ret_iff.mp hret
  have hreported : ∀ path ∈ (applyActivationResult report' os (!report.applied.isEmpty)
      activated).applied, path ∈ report'.applied := by
    intro path hpath
    rw [applyActivationResult] at hpath
    split at hpath <;> exact hpath
  rcases exec_execute_reads hos htld hexecute with ⟨rfl, hnone⟩ |
    ⟨artifact, hartifact, content, hmarker, hreads⟩
  · -- Only browser policies are applied then.
    obtain ⟨path, hpath, hmem⟩ := happlied
    have hpolicies := hreported path hmem
    cases browserPolicy with
    | false =>
        obtain ⟨rfl, -⟩ := exec_ret_iff.mp hpolicy
        rw [hnone] at hpolicies
        cases hpolicies
    | true =>
        have happly : Exec _ m₃ (applyBrowserPolicy .linux config.loopbackIp report) report' m₄ :=
          hpolicy
        rcases applied_applyBrowserPolicy happly path hpolicies with hbefore | hfile
        · rw [hnone] at hbefore
          cases hbefore
        · exact absurd hfile (not_mem_policyPaths hpath)
  · refine ⟨artifact, hartifact, content, hmarker, ?_⟩
    have hafterPolicy : Reads artifact content m₄ := by
      cases browserPolicy with
      | false => exact keeps_ret _ hpolicy hreads
      | true =>
          exact keeps_reads_applyBrowserPolicy hos hartifact (not_mem_policyPaths hartifact)
            hpolicy hreads
    split at hverify
    · exact keeps_verifyOsRouting keeps_reads_call config hverify hafterPolicy
    · exact keeps_ret _ hverify hafterPolicy

end Configure

/-- On Linux and macOS the check agrees with what `unconfigure-os` removes exactly if what
stands at the resolver path on macOS is ours; then it says no afterwards.  It says yes
after a run of `configure-os` that applies an artifact and disturbs none. -/
theorem isConfigured_agrees_iff (ps : PowerShell) (mayLink : Except Str Str → Prop)
    (mayDir : Bool → Prop) (os : Os) (hos : os = .linux ∨ os = .macos) (config : Config)
    (hvalid : config.validate = .ok ()) (m : Machine) :
    (∀ answer m₁ r m', Exec (WorkingRun ps mayLink mayDir []) m (isConfigured os config) answer m₁ →
      Exec (WorkingRun ps mayLink mayDir []) m (unconfigure os config) r m' →
      ((answer = some true ↔ ∃ path ∈ resolverArtifacts os config.tld, path ∈ r.removed) ↔
        Telling os config m) ∧
      (Telling os config m → ∀ after m₂,
        Exec (WorkingRun ps mayLink mayDir []) m' (isConfigured os config) after m₂ →
          after = some false)) ∧
    ∀ browserPolicy r m',
      Exec (CalmRun ps mayLink mayDir os config.tld) m (configure os config browserPolicy) r m' →
      (∃ path ∈ resolverArtifacts os config.tld, path ∈ r.applied) → ∀ answer m₁,
        Exec (WorkingRun ps mayLink mayDir []) m' (isConfigured os config) answer m₁ →
          answer = some true := by
  have hsafe := ((Config.validate_eq_ok_iff config).mp hvalid).tld
  refine ⟨fun answer m₁ r m' hcheck hunconfigure => ?_,
    fun browserPolicy r m' hconfigure happlied answer m₁ hcheck => ?_⟩
  · obtain ⟨removed, more, m₂, hclears, hthin, hremoved, hmore⟩ :=
      exec_unconfigure_removed hos hsafe hunconfigure
    have hsame : (∃ path ∈ resolverArtifacts os config.tld, path ∈ r.removed) ↔
        ∃ path ∈ resolverArtifacts os config.tld, path ∈ removed := by
      refine exists_congr fun path => and_congr_right fun hpath => ?_
      rw [hremoved, List.mem_append]
      exact or_iff_left fun hmem => not_mem_policyPaths hpath (hmore path hmem)
    rw [hsame]
    rcases hos with rfl | rfl
    · obtain ⟨ours, rfl, hours⟩ := exec_isConfigured_linux hcheck
      obtain ⟨hfound, hfirst, hsecond⟩ := clears_linux hclears
      rw [Option.some.injEq, hours, hfound]
      refine ⟨iff_of_true Iff.rfl Os.noConfusion, fun _ after m₃ hafter => ?_⟩
      obtain ⟨ours', rfl, hours'⟩ := exec_isConfigured_linux hafter
      rw [Option.some.injEq, ← Bool.not_eq_true, hours']
      rintro (hread | hread)
      · exact hfirst (hread.of_thinned hthin)
      · exact hsecond (hread.of_thinned hthin)
    · obtain ⟨hfound, hgone⟩ := clears_macos_iff hclears
      have hone : (∃ path ∈ resolverArtifacts .macos config.tld, path ∈ removed) ↔
          macosResolverPath config.tld ∈ removed := by
        simp [resolverArtifacts]
      rw [exec_isConfigured_macos hcheck, Option.some.injEq, hone]
      refine ⟨hfound, fun htelling after m₃ hafter => ?_⟩
      rw [exec_isConfigured_macos hafter, Option.some.injEq, ← Bool.not_eq_true]
      intro hpresent
      have hbefore := hthin.isPresent hpresent
      rw [hgone htelling] at hbefore
      cases hbefore
  · obtain ⟨artifact, hartifact, content, hmarker, hreads⟩ :=
      exec_configure_reads hos hsafe hconfigure happlied
    have hours : ReadsOurs artifact config.loopbackIp m' :=
      ⟨content, hreads, hmarker.contentIsOurs _⟩
    rcases hos with rfl | rfl
    · obtain ⟨ours, rfl, hiff⟩ := exec_isConfigured_linux hcheck
      rw [Option.some.injEq, hiff]
      rcases List.mem_pair.mp hartifact with rfl | rfl
      · exact Or.inl hours
      · exact Or.inr hours
    · rw [exec_isConfigured_macos hcheck]
      obtain rfl := List.mem_singleton.mp hartifact
      rw [hours.isPresent]

/-! ## Two resolver files -/

/-- The content of the file at the resolver path of the wired machine is ours. -/
theorem telling_wired : Telling .macos Config.default wired := by
  intro _ _
  have hread : wired.files.read (names (macosResolverPath defaultTld)) =
      some (utf8 (resolverFileContent Config.default.loopbackIp)) := by
    decide +kernel
  have hplist : wired.files.read (names macosLo0Plist) = none := by
    decide +kernel
  refine ⟨⟨_, hread, (hasMarker_resolverFileContent _).contentIsOurs _⟩, ?_⟩
  rintro ⟨text, htext, -⟩
  rw [hplist] at htext
  cases htext

/-- A run against `serve` in which it never fails and nothing is disturbed. -/
theorem exec_serve_calm {α : Type} {os : Os} {tld : Str} {m : Machine} {p : OsProg α}
    (h : ∀ asked ∈ p.asked serve m, Undisturbed os tld asked.1 ∧ served asked.1 asked.2 = true) :
    Exec (CalmRun PowerShell.reference (fun _ => True) (fun _ => True) os tld) m p
      (p.eval serve m).1 (p.eval serve m).2 :=
  exec_eval_of_asked fun asked hasked =>
    ⟨(h asked hasked).1, List.forall_mem_nil _, working_serve (h asked hasked).2⟩

/-- There the check says yes, the file is removed, and the check says no; on a bare machine
it says yes after a run of `configure-os`. -/
theorem isConfigured_agrees_wired :
    (((isConfigured .macos Config.default).eval serve wired).1 = some true ↔
      ∃ path ∈ resolverArtifacts .macos defaultTld,
        path ∈ ((unconfigure .macos Config.default).eval serve wired).1.removed) ∧
    ((isConfigured .macos Config.default).eval serve
      ((unconfigure .macos Config.default).eval serve wired).2).1 = some false ∧
    ((isConfigured .macos Config.default).eval serve
      ((configure .macos Config.default false).eval serve Machine.bare).2).1 = some true := by
  have hcheck : Exec (WorkingRun PowerShell.reference (fun _ => True) (fun _ => True) []) wired
      (isConfigured .macos Config.default)
      ((isConfigured .macos Config.default).eval serve wired).1
      ((isConfigured .macos Config.default).eval serve wired).2 :=
    exec_serve (by decide +kernel)
  have hunconfigure : Exec (WorkingRun PowerShell.reference (fun _ => True) (fun _ => True) [])
      wired (unconfigure .macos Config.default)
      ((unconfigure .macos Config.default).eval serve wired).1
      ((unconfigure .macos Config.default).eval serve wired).2 :=
    exec_serve (by decide +kernel)
  have hagrees := (isConfigured_agrees_iff PowerShell.reference (fun _ => True) (fun _ => True)
    .macos (Or.inr rfl) Config.default default_validate wired).1 _ _ _ _ hcheck hunconfigure
  have hconfigure : Exec (CalmRun PowerShell.reference (fun _ => True) (fun _ => True) .macos
      defaultTld) Machine.bare (configure .macos Config.default false)
      ((configure .macos Config.default false).eval serve Machine.bare).1
      ((configure .macos Config.default false).eval serve Machine.bare).2 :=
    exec_serve_calm (by decide +kernel)
  have hyes := (isConfigured_agrees_iff PowerShell.reference (fun _ => True) (fun _ => True)
    .macos (Or.inr rfl) Config.default default_validate Machine.bare).2 _ _ _ hconfigure
    (by decide +kernel)
  exact ⟨hagrees.1.mpr telling_wired,
    hagrees.2 telling_wired _ _ (exec_serve (by decide +kernel)),
    hyes _ _ (exec_serve (by decide +kernel))⟩

/-- A machine on which the resolver file is that of another tool. -/
def otherwiseWired : Machine where
  files place :=
    if place = ["etc".toList] ∨ place = ["etc".toList, "resolver".toList] then some (.dir rootAttrs)
    else if place = ["etc".toList, "resolver".toList, defaultTld] then
      some (.file rootAttrs (utf8 "nameserver 9.9.9.9\n".toList))
    else none
  rules := []

/-- There the check says yes before and after, and the file stays. -/
theorem isConfigured_otherwiseWired :
    ∃ answer m₁ r m' after m₂,
      Exec (WorkingRun PowerShell.reference (fun _ => True) (fun _ => True) []) otherwiseWired
        (isConfigured .macos Config.default) answer m₁ ∧
      Exec (WorkingRun PowerShell.reference (fun _ => True) (fun _ => True) []) otherwiseWired
        (unconfigure .macos Config.default) r m' ∧
      Exec (WorkingRun PowerShell.reference (fun _ => True) (fun _ => True) []) m'
        (isConfigured .macos Config.default) after m₂ ∧
      answer = some true ∧ (∀ path ∈ resolverArtifacts .macos defaultTld, path ∉ r.removed) ∧
      after = some true :=
  ⟨_, _, _, _, _, _, exec_serve (by decide +kernel), exec_serve (by decide +kernel),
    exec_serve (by decide +kernel), by decide +kernel, by decide +kernel, by decide +kernel⟩

end DigDns.OsConfig
