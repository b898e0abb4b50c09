import DigDns.OsConfig.Configured
import DigDns.OsConfig.PlantedLinks
import Mathlib.Logic.Relation

/-!
# Configuring again, and back

Where the tool's own paths are free or hold its own files, a second run of
`configure-os` finds its artifacts in place and writes nothing, and a run of
`unconfigure-os` empties exactly these paths.
-/

namespace DigDns.OsConfig

open Rust Interaction Posix

/-! ## The tool's own paths -/

/-- The content is the tool's own: by what it holds, or for the policies on Linux, which
have no marker, because it is the policy. -/
def IsOwn (path text : Str) (ourIp : Ipv4Addr) : Prop :=
  contentIsOurs text ourIp = true ∨
    path ∈ [linuxChromePolicy, linuxChromiumPolicy] ∧ text = chromePolicyJson

/-- Nothing stands at the path, or a regular file with content of the tool. -/
def AbsentOrOwn (path : Str) (ourIp : Ipv4Addr) (files : FileTree Attrs) : Prop :=
  ∀ place, files.locate false (names path) = some place → files place = none ∨
    ∃ attrs text, files place = some (.file attrs (utf8 text)) ∧ IsOwn path text ourIp

/-- Some of the missing directories on the way to the paths are made. -/
def MakesWays (paths : List Str) : FileTree Attrs → FileTree Attrs → Prop :=
  Relation.ReflTransGen fun files made =>
    ∃ path ∈ paths, ∃ dir, parent path = some dir ∧ FileTree.MakesDirs (names dir) files made

/-- The tool's own paths are absent or hold its content, also once directories on the way
to its artifacts have been made. -/
def Clear (os : Os) (config : Config) (files : FileTree Attrs) : Prop :=
  ∀ made, MakesWays (artifactPaths os [config.tld]) files made →
    ∀ path ∈ ownPaths os config.tld, AbsentOrOwn path config.loopbackIp made

section Clear

variable {os : Os} {config : Config} {ourIp : Ipv4Addr} {files files' made : FileTree Attrs}
  {path content : Str} {paths : List Str} {place : Names} {attrs : Attrs}

theorem AbsentOrOwn.stop (h : AbsentOrOwn path ourIp files)
    (hplace : files.locate false (names path) = some place) : onward (files place) = .stop := by
  rcases h place hplace with hnone | ⟨attrs, text, hfile, -⟩
  · rw [hnone]
    rfl
  · rw [hfile]
    rfl

theorem AbsentOrOwn.not_linked (h : AbsentOrOwn path ourIp files) : ¬Linked files (names path) := by
  rintro ⟨place, target, hplace, hlink⟩
  have hstop := h.stop hplace
  rw [hlink] at hstop
  cases hstop

/-- When walks see the same and entries may be gone, it stays so. -/
theorem AbsentOrOwn.of_sameSight (h : AbsentOrOwn path ourIp files)
    (hsight : FileTree.SameSight files files')
    (hentries : ∀ place, files' place = files place ∨ files' place = none) :
    AbsentOrOwn path ourIp files' := by
  intro place hplace
  rw [hsight.locate] at hplace
  rcases hentries place with hsame | hgone
  · rw [hsame]
    exact h place hplace
  · exact Or.inl hgone

theorem Clear.now (h : Clear os config files) (hpath : path ∈ ownPaths os config.tld) :
    AbsentOrOwn path config.loopbackIp files :=
  h files .refl path hpath

theorem Clear.makes (h : Clear os config files)
    (hways : MakesWays (artifactPaths os [config.tld]) files made) : Clear os config made :=
  fun made' hways' => h made' (hways.trans hways')

/-- Directories that are made after a file was put in its place could be made before. -/
theorem MakesWays.of_set {bytes : List UInt8} (hstop : onward (files place) = .stop)
    (h : MakesWays paths (files.set place (some (.file attrs bytes))) files') :
    ∃ made, MakesWays paths files made ∧ onward (made place) = .stop ∧
      files' = made.set place (some (.file attrs bytes)) := by
  induction h with
  | refl => exact ⟨files, .refl, hstop, rfl⟩
  | tail _ hlast ih =>
      obtain ⟨made, hways, hmade, rfl⟩ := ih
      obtain ⟨path, hpath, dir, hdir, hmakes⟩ := hlast
      obtain ⟨last, hmakesFirst, hlastStop, rfl⟩ := hmakes.of_set hmade
      exact ⟨last, hways.tail ⟨path, hpath, dir, hdir, hmakesFirst⟩, hlastStop, rfl⟩

/-- An artifact that is put in its place leaves the paths clear. -/
theorem Clear.set (h : Clear os config files) (hpath : path ∈ ownPaths os config.tld)
    (hplace : files.locate false (names path) = some place) (hcontent : HasMarker content) :
    Clear os config (files.set place (some (.file attrs (utf8 content)))) := by
  intro made hways path' hpath' place' hplace'
  obtain ⟨last, hways', hstop, rfl⟩ := MakesWays.of_set ((h.now hpath).stop hplace) hways
  rw [FileTree.locate_set_file hstop] at hplace'
  by_cases hsame : place' = place
  · subst hsame
    exact Or.inr ⟨attrs, content, FileTree.set_self _ _ _, Or.inl (hcontent.contentIsOurs _)⟩
  · rw [FileTree.set_of_ne hsame]
    exact h last hways' path' hpath' place' hplace'

end Clear

/-! ## What a configuration changes -/

/-- What is new is a directory, or a file where one of the paths leads. -/
def Grown (paths : List Str) (files files' : FileTree Attrs) : Prop :=
  ∀ place, files' place = files place ∨
    (files place = none ∧ ∃ attrs, files' place = some (.dir attrs)) ∨
    ∃ path ∈ paths, files'.locate false (names path) = some place ∧
      ∃ attrs bytes, files' place = some (.file attrs bytes)

/-- The path holds the content, or gets it after directories were made. -/
def Puts (os : Os) (config : Config) (path content : Str) (m m' : Machine) : Prop :=
  (m' = m ∧ RealFile m.files (names path) content) ∨
    ∃ made place attrs, MakesWays (artifactPaths os [config.tld]) m.files made ∧
      made.locate false (names path) = some place ∧
      m' = { m with files := made.set place (some (.file attrs (utf8 content))) }

section Puts

variable {os : Os} {config : Config} {m m' : Machine} {path content other text : Str}
  {files made : FileTree Attrs} {paths : List Str}

theorem MakesWays.kept (h : MakesWays paths files made) {place : Names} {node : Node Attrs}
    (hnode : files place = some node) : made place = some node := by
  induction h with
  | refl => exact hnode
  | tail _ hlast ih =>
      obtain ⟨path, -, dir, -, hmakes⟩ := hlast
      exact hmakes.kept ih

theorem MakesWays.cases (h : MakesWays paths files made) (place : Names) :
    made place = files place ∨ files place = none ∧ ∃ attrs, made place = some (.dir attrs) := by
  cases hnode : files place with
  | some node => exact Or.inl (h.kept hnode)
  | none =>
      induction h with
      | refl => exact Or.inl hnode
      | tail _ hlast ih =>
          obtain ⟨path, -, dir, -, hmakes⟩ := hlast
          rcases ih with hsame | ⟨-, attrs, hdir⟩
          · rcases hmakes.cases place with hlater | ⟨-, attrs, hdir⟩
            · exact Or.inl (hlater.trans hsame)
            · exact Or.inr ⟨rfl, attrs, hdir⟩
          · exact Or.inr ⟨rfl, attrs, hmakes.kept hdir⟩

theorem Puts.clear (h : Puts os config path content m m') (hclear : Clear os config m.files)
    (hpath : path ∈ ownPaths os config.tld) (hcontent : HasMarker content) :
    Clear os config m'.files := by
  rcases h with ⟨rfl, -⟩ | ⟨made, place, attrs, hways, hplace, rfl⟩
  · exact hclear
  · exact (hclear.makes hways).set hpath hplace hcontent

theorem Puts.realFile (h : Puts os config path content m m') (hclear : Clear os config m.files)
    (hpath : path ∈ ownPaths os config.tld) : RealFile m'.files (names path) content := by
  rcases h with ⟨rfl, hreal⟩ | ⟨made, place, attrs, hways, hplace, rfl⟩
  · exact hreal
  · refine ⟨place, attrs, ?_, FileTree.set_self _ _ _⟩
    rw [FileTree.locate_set_file (((hclear.makes hways).now hpath).stop hplace), hplace]

/-- A path to an entry leads there afterwards. -/
theorem Puts.locate (h : Puts os config path content m m') (hclear : Clear os config m.files)
    (hpath : path ∈ ownPaths os config.tld) {place : Names} (hentry : m.files place ≠ none)
    (hplace : m.files.locate false (names other) = some place) :
    m'.files.locate false (names other) = some place := by
  rcases h with ⟨rfl, -⟩ | ⟨made, place', attrs, hways, hplace', rfl⟩
  · exact hplace
  · have hmade : made.locate false (names other) = some place := by
      refine FileTree.locate_kept (fun entry hnode => ?_) hentry hplace
      obtain ⟨node, hnode⟩ := Option.ne_none_iff_exists'.mp hnode
      exact (hways.kept hnode).trans hnode.symm
    exact (FileTree.locate_set_file (((hclear.makes hways).now hpath).stop hplace') _ _).trans hmade

theorem Puts.grown (h : Puts os config path content m m') (hclear : Clear os config m.files)
    (hpath : path ∈ ownPaths os config.tld) :
    Grown (ownPaths os config.tld) m.files m'.files := by
  have hreal := h.realFile hclear hpath
  rcases h with ⟨rfl, -⟩ | ⟨made, place, attrs, hways, hplace, rfl⟩
  · exact fun place => Or.inl rfl
  · intro other
    dsimp only at hreal ⊢
    by_cases hother : other = place
    · subst hother
      refine Or.inr (Or.inr ⟨path, hpath, ?_, attrs, utf8 content, FileTree.set_self _ _ _⟩)
      rw [FileTree.locate_set_file (((hclear.makes hways).now hpath).stop hplace), hplace]
    · rw [FileTree.set_of_ne hother]
      rcases hways.cases other with hsame | hdir
      · exact Or.inl hsame
      · exact Or.inr (Or.inl hdir)

/-- A file that was put at another name stays. -/
theorem Puts.keeps_realFile (h : Puts os config path content m m')
    (hclear : Clear os config m.files) (hpath : path ∈ ownPaths os config.tld) {name name' : Str}
    (hname : name ≠ ['.', '.']) (hlast : (names path).getLast? = some name)
    (hname' : name' ≠ ['.', '.']) (hlast' : (names other).getLast? = some name')
    (hne : name ≠ name') (hreal : RealFile m.files (names other) text) :
    RealFile m'.files (names other) text := by
  obtain ⟨place, attrs, hplace, hfile⟩ := hreal
  have hentry : m.files place ≠ none := by
    rw [hfile]
    exact Option.some_ne_none _
  refine ⟨place, attrs, h.locate hclear hpath hentry hplace, ?_⟩
  rcases h with ⟨rfl, -⟩ | ⟨made, place', attrs', hways, hplace', rfl⟩
  · exact hfile
  · have hapart : place ≠ place' := by
      rintro rfl
      have hend := FileTree.getLast?_locate hname hlast hplace'
      rw [FileTree.getLast?_locate hname' hlast' hplace, Option.some.injEq] at hend
      exact hne hend.symm
    exact (FileTree.set_of_ne hapart).trans (hways.kept hfile)

/-- What two writes change. -/
theorem Puts.grown_after (h : Puts os config path content m m') (hclear : Clear os config m.files)
    (hpath : path ∈ ownPaths os config.tld)
    (hbefore : Grown (ownPaths os config.tld) files m.files) :
    Grown (ownPaths os config.tld) files m'.files := by
  intro place
  rcases h.grown hclear hpath place with hsame | ⟨hnone, hdir⟩ | hfile
  · rcases hbefore place with hkept | hdir | ⟨other, hother, hplace, attrs, bytes, hfile⟩
    · exact Or.inl (hsame.trans hkept)
    · exact Or.inr (Or.inl ⟨hdir.1, hsame ▸ hdir.2⟩)
    · have hentry : m.files place ≠ none := by
        rw [hfile]
        exact Option.some_ne_none _
      exact Or.inr (Or.inr ⟨other, hother, h.locate hclear hpath hentry hplace, attrs, bytes,
        hsame.trans hfile⟩)
  · rcases hbefore place with hkept | ⟨-, attrs, hother⟩ | ⟨-, -, -, attrs, bytes, hother⟩
    · exact Or.inr (Or.inl ⟨hkept ▸ hnone, hdir⟩)
    · rw [hnone] at hother
      cases hother
    · rw [hnone] at hother
      cases hother
  · exact Or.inr (Or.inr hfile)

end Puts

/-! ## The first run -/

/-- The steps of a plan put the files, one after the other. -/
def PutsAll (os : Os) (config : Config) : List Step → Machine → Machine → Prop
  | [], m, m' => m' = m
  | .write path content :: steps, m, m' =>
      ∃ m₁, Puts os config path content m m₁ ∧ PutsAll os config steps m₁ m'
  | _ :: steps, m, m' => PutsAll os config steps m m'

/-- A step that writes an artifact, or runs a command, or leaves a note. -/
def Step.IsInstall (os : Os) (config : Config) : Step → Prop
  | .write path content => path ∈ artifactPaths os [config.tld] ∧ IsEntry path ∧ HasMarker content
  | .exec _ _ | .note _ => True
  | _ => False

section First

variable {ps : PowerShell} {mayLink : Except Str Str → Prop} {mayDir : Bool → Prop}
  {os : Os} {config : Config} {m m' : Machine} {path content : Str} {r r' : Report}

/-- What `write_if_changed` does to a clear path. -/
theorem exec_writeIfChanged_puts {result : Except Str Bool} (hos : os ≠ .windows)
    (hclear : Clear os config m.files) (hpath : path ∈ artifactPaths os [config.tld])
    (hentry : IsEntry path)
    (h : Exec (WorkingRun ps mayLink mayDir []) m (writeIfChanged os path content) result m') :
    Puts os config path content m m' := by
  obtain ⟨existing, m₁, hcall, hrest⟩ := exec_bind_iff.mp h
  obtain ⟨rfl, hread⟩ := (exec_query_iff.mp hcall).answers rfl
  split at hrest
  · rename_i hsame
    obtain ⟨-, rfl⟩ := exec_ret_iff.mp hrest
    cases existing with
    | error e => cases hsame
    | ok text =>
        cases hsame
        have hown := hclear.now (mem_ownPaths_of_artifact hpath)
        exact Or.inl ⟨rfl, (realFile_iff_not_linked (hread _ rfl)).mpr hown.not_linked⟩
  · obtain ⟨made, m₂, hmade, hafter⟩ := exec_bind_iff.mp hrest
    obtain ⟨dir, hdir⟩ := Option.isSome_iff_exists.mp hentry.1
    obtain ⟨name, hname⟩ := Option.isSome_iff_exists.mp hentry.2
    rw [makeParent, hdir] at hmade
    have hmake := exec_query_iff.mp hmade
    obtain rfl : made = .ok () := hmake.2.1
    obtain ⟨files, hmakes, rfl, -⟩ := hmake.answers rfl
    obtain ⟨written, m₃, hwritten, hret⟩ := exec_bind_iff.mp hafter
    obtain ⟨-, rfl⟩ := exec_ret_iff.mp hret
    obtain ⟨rfl, -⟩ := exec_atomicWrite_succeeds hos hdir hname hwritten
    obtain ⟨place, attrs, hplace, -, rfl⟩ := exec_atomicWrite_ok
      (fun hstep => WorkingRun.answers hstep) hos hwritten
    exact Or.inr ⟨files, place, attrs, .single ⟨path, hpath, dir, hdir, hmakes⟩, hplace, rfl⟩

theorem exec_putsAll {steps : List Step} {ourIp : Ipv4Addr} (hos : os ≠ .windows)
    (hclear : Clear os config m.files) (hsteps : ∀ s ∈ steps, s.IsInstall os config)
    (h : Exec (WorkingRun ps mayLink mayDir []) m (steps.foldlM (executeStep os ourIp) r) r' m') :
    PutsAll os config steps m m' := by
  induction steps generalizing m r with
  | nil => exact (exec_ret_iff.mp h).2
  | cons s steps ih =>
      rw [List.foldlM_cons] at h
      obtain ⟨r₁, m₁, hfirst, hrest⟩ := exec_bind_iff.mp h
      have hs := hsteps s List.mem_cons_self
      have hothers := fun s' hs' => hsteps s' (List.mem_cons_of_mem _ hs')
      cases s with
      | write path content =>
          obtain ⟨hpath, hentry, hmarker⟩ := hs
          obtain ⟨outcome, m₂, hwrite, hret⟩ := exec_bind_iff.mp hfirst
          have hsame : m₁ = m₂ := by
            cases outcome <;> exact (exec_ret_iff.mp hret).2
          subst hsame
          have hputs := exec_writeIfChanged_puts hos hclear hpath hentry hwrite
          exact ⟨m₁, hputs,
            ih (hputs.clear hclear (mem_ownPaths_of_artifact hpath) hmarker) hothers hrest⟩
      | exec program args =>
          obtain ⟨result, m₂, hrun, hret⟩ := exec_bind_iff.mp hfirst
          obtain ⟨-, rfl⟩ := exec_ret_iff.mp hret
          obtain rfl := exec_run hrun
          exact ih hclear hothers hrest
      | note msg =>
          obtain ⟨-, rfl⟩ := exec_ret_iff.mp hfirst
          exact ih hclear hothers hrest
      | removeOurs path => cases hs
      | ps command label bucket => cases hs
      | psExec command => cases hs

/-- The plans away from Windows only install. -/
theorem isInstall_of_mem (hos : os ≠ .windows) (htld : isSafeTld config.tld = true)
    {owner : ResolvOwner} {ip : Ipv4Addr} {s : Step}
    (h : s ∈ configureResolverSteps os owner ip config.tld) : s.IsInstall os config := by
  cases s with
  | write path content =>
      obtain ⟨hpath, hentry, hmarker⟩ := artifact_of_write_mem htld h
      exact ⟨hpath, hentry, hmarker⟩
  | exec program args => trivial
  | note msg => trivial
  | removeOurs path =>
      have hremoved := removedPath_of_mem h
      rw [removedPaths_configure] at hremoved
      cases hremoved
  | ps command label bucket =>
      exact absurd (windows_of_ps_mem (psCommands_configure _ _ _ _) h).1 hos
  | psExec command =>
      exact absurd (windows_of_psExec_mem (psExecCommands_configure _ _ _ _) h).1 hos

theorem Puts.rules (h : Puts os config path content m m') : m'.rules = m.rules := by
  rcases h with ⟨rfl, -⟩ | ⟨made, place, attrs, -, -, rfl⟩ <;> rfl

theorem PutsAll.clear_grown {steps : List Step} {files : FileTree Attrs}
    (h : PutsAll os config steps m m') (hclear : Clear os config m.files)
    (hsteps : ∀ s ∈ steps, s.IsInstall os config)
    (hgrown : Grown (ownPaths os config.tld) files m.files) :
    Clear os config m'.files ∧ Grown (ownPaths os config.tld) files m'.files ∧
      m'.rules = m.rules := by
  induction steps generalizing m with
  | nil =>
      obtain rfl := h
      exact ⟨hclear, hgrown, rfl⟩
  | cons s steps ih =>
      have hothers := fun s' hs' => hsteps s' (List.mem_cons_of_mem _ hs')
      cases s with
      | write path content =>
          obtain ⟨m₁, hputs, hrest⟩ := h
          obtain ⟨hpath, -, hmarker⟩ := hsteps _ List.mem_cons_self
          have hown : path ∈ ownPaths os config.tld := mem_ownPaths_of_artifact hpath
          obtain ⟨hclear', hgrown', hrules⟩ := ih hrest (hputs.clear hclear hown hmarker) hothers
            (hputs.grown_after hclear hown hgrown)
          exact ⟨hclear', hgrown', hrules.trans hputs.rules⟩
      | exec program args => exact ih h hclear hothers hgrown
      | note msg => exact ih h hclear hothers hgrown
      | removeOurs path => exact ih h hclear hothers hgrown
      | ps command label bucket => exact ih h hclear hothers hgrown
      | psExec command => exact ih h hclear hothers hgrown

/-- The artifacts of a plan have names of their own, so that each stays as it was put. -/
theorem PutsAll.real {owner : ResolvOwner} {ip : Ipv4Addr} (htld : isSafeTld config.tld = true)
    (h : PutsAll os config (configureResolverSteps os owner ip config.tld) m m')
    (hclear : Clear os config m.files)
    (hmem : .write path content ∈ configureResolverSteps os owner ip config.tld) :
    RealFile m'.files (names path) content := by
  have hwritten := written_of_write_mem hmem
  rw [written_configure] at hwritten
  cases os with
  | linux =>
      cases owner with
      | systemdResolved =>
          cases List.mem_singleton.mp hwritten
          obtain ⟨m₁, hputs, rfl⟩ := h
          exact hputs.realFile hclear (mem_ownPaths_of_artifact List.mem_cons_self)
      | networkManagerDnsmasq =>
          cases List.mem_singleton.mp hwritten
          obtain ⟨m₁, hputs, rfl⟩ := h
          exact hputs.realFile hclear
            (mem_ownPaths_of_artifact (List.mem_cons_of_mem _ List.mem_cons_self))
      | unknown => cases hwritten
  | macos =>
      obtain ⟨m₁, hfirst, m₂, hsecond, rfl⟩ := h
      have hplist : macosLo0Plist ∈ ownPaths .macos config.tld :=
        mem_ownPaths_of_artifact List.mem_cons_self
      have hresolver : macosResolverPath config.tld ∈ ownPaths .macos config.tld :=
        mem_ownPaths_of_artifact (List.mem_cons_of_mem _ List.mem_cons_self)
      have hclear' := hfirst.clear hclear hplist (hasMarker_launchdLo0AliasPlist ip)
      rcases List.mem_pair.mp hwritten with heq | heq
      · cases heq
        refine hsecond.keeps_realFile hclear' hresolver (ne_dots_of_isSafeTld htld).2
          (getLast?_macosResolverPath htld) (by decide)
          (by decide : (names macosLo0Plist).getLast? =
            some "net.dignetwork.dig-dns-lo0.plist".toList) ?_ (hfirst.realFile hclear hplist)
        intro htldName
        refine not_mem_of_isSafeTld htld (Or.inr rfl) ?_
        rw [htldName]
        decide
      · cases heq
        exact hsecond.realFile hclear' hresolver
  | windows => cases hwritten
  | other name => cases hwritten

/-- The rules that neither the tool nor the old installer made. -/
def withoutOurRules (psEq : Str → Str → Bool) (rules : List NrptRule) : List NrptRule :=
  rules.filter fun rule =>
    !(psEq rule.comment marker || psEq rule.comment legacyInstallerMarker)

/-- What a run of `configure-os` leaves: paths that are clear and hold the artifacts of the
plan, and on Windows a rule for the TLD. -/
structure Settled (psEq : Str → Str → Bool) (os : Os) (config : Config) (owner : ResolvOwner)
    (m m' : Machine) : Prop where
  clear : Clear os config m'.files
  grown : Grown (ownPaths os config.tld) m.files m'.files
  real {path content : Str}
    (h : .write path content ∈ configureResolverSteps os owner config.loopbackIp config.tld) :
    RealFile m'.files (names path) content
  rules (hos : os ≠ .windows) : m'.rules = m.rules
  rule (hos : os = .windows) :
    (m'.rules.any fun rule => rule.namespaces.any fun ns => psEq ns ('.' :: config.tld)) = true ∧
      withoutOurRules psEq m'.rules = withoutOurRules psEq m.rules

/-- The rule that is added is one of the tool's own. -/
theorem rule_of_add {psEq : Str → Str → Bool} (hps : WorkingPowerShell psEq ps)
    (htld : isSafeTld config.tld = true) {ip : Ipv4Addr} {rules rules' : List NrptRule}
    (h : ps (nrptAddPsCommand ip config.tld) rules (.ok true) rules') :
    (rules'.any fun rule => rule.namespaces.any fun ns => psEq ns ('.' :: config.tld)) = true ∧
      withoutOurRules psEq rules' = withoutOurRules psEq rules := by
  have hadd := hps.add htld h
  split at hadd
  · rename_i hany
    rw [hadd]
    exact ⟨hany, rfl⟩
  · obtain ⟨name, rfl⟩ := hadd
    constructor
    · simp [hps.refl]
    · simp [withoutOurRules, hps.refl]

/-- On another system a command leaves the machine as it is. -/
theorem exec_refused (hos : os.isSupported = false) {refused unsupported : Report}
    {supported : OsProg Report}
    (h : Exec (WorkingRun ps mayLink mayDir []) m
      (isElevated os >>= fun elevated =>
        if !elevated then pure refused
        else if !os.isSupported then pure unsupported else supported) r m') : m' = m := by
  obtain ⟨elevated, m₁, helevated, hrest⟩ := exec_bind_iff.mp h
  obtain ⟨rfl, rfl⟩ := exec_isElevated helevated
  simp only [Bool.not_true, Bool.false_eq_true, if_false, hos, Bool.not_false, if_true] at hrest
  exact (exec_ret_iff.mp hrest).2

/-- A run of `configure-os` from clear paths. -/
theorem exec_configure_settled {psEq : Str → Str → Bool} (hps : WorkingPowerShell psEq ps)
    (htld : isSafeTld config.tld = true) (hclear : Clear os config m.files)
    {link : Except Str Str} {dir : Bool}
    (h : Exec (WorkingRun ps (· = link) (· = dir) []) m (configure os config false) r m') :
    Settled psEq os config (detectResolvOwner link.toOption dir) m m' := by
  by_cases hos : os.isSupported = true
  swap
  · obtain ⟨name, rfl⟩ : ∃ name, os = .other name := by
      cases os with
      | other name => exact ⟨name, rfl⟩
      | _ => exact absurd rfl hos
    obtain rfl := exec_refused rfl h
    exact ⟨hclear, fun place => Or.inl rfl, fun hmem => absurd hmem List.not_mem_nil,
      fun _ => rfl, Os.noConfusion⟩
  by_cases hwindows : os = .windows
  · subst hwindows
    have hplan : ∀ owner, PlanWithin .windows []
        (configureResolverSteps .windows owner config.loopbackIp config.tld) := by
      intro owner
      refine ⟨fun path content hmem => ?_, fun path hmem => ?_⟩
      · cases written_of_write_mem hmem
      · cases removedPath_of_mem hmem
    obtain ⟨owner, -, m₁, hadd, m₂, hflush, rfl⟩ := exec_configure rfl hplan h
    have hfiles : m'.files = m.files := hflush.1.trans hadd.1
    have hrule := rule_of_add hps htld hadd.2
    rw [← hps.flush hflush.2] at hrule
    refine ⟨hfiles ▸ hclear, fun place => Or.inl (congrFun hfiles place), fun hmem => ?_,
      fun hother => absurd rfl hother, fun _ => hrule⟩
    cases written_of_write_mem hmem
  · obtain ⟨owner, r₀, r₁, howner, hexecute⟩ := exec_configure_plan hos h
    have hsame : configureResolverSteps os owner config.loopbackIp config.tld =
        configureResolverSteps os (detectResolvOwner link.toOption dir) config.loopbackIp
          config.tld := by
      cases os with
      | linux =>
          obtain ⟨link', dir', rfl, rfl, rfl⟩ := howner rfl
          rfl
      | _ => rfl
    rw [hsame] at hexecute
    have hinstall : ∀ s ∈ configureResolverSteps os (detectResolvOwner link.toOption dir)
        config.loopbackIp config.tld, s.IsInstall os config :=
      fun s hs => isInstall_of_mem hwindows htld hs
    have hputs := exec_putsAll hwindows hclear hinstall hexecute
    obtain ⟨hclear', hgrown, hrules⟩ :=
      hputs.clear_grown hclear hinstall fun place => Or.inl rfl
    exact ⟨hclear', hgrown, fun hmem => hputs.real htld hclear hmem, fun _ => hrules,
      fun heq => absurd heq hwindows⟩

end First

/-! ## The second run -/

/-- A call that writes, makes or removes a file or a directory. -/
def Call.writes : Call → Bool
  | .createDirAll _ | .createNew _ | .writeAll _ _ | .syncAll _ | .fsWrite _ _ | .rename _ _
  | .removeFile _ => true
  | _ => false

/-- The run leaves the machine as it is and writes nothing. -/
abbrev Idles {α : Type} (ps : PowerShell) (mayLink : Except Str Str → Prop) (mayDir : Bool → Prop)
    (m : Machine) (p : OsProg α) : Prop :=
  Rests (fun q : Call => q.writes = false) (WorkingRun ps mayLink mayDir []) m p

/-- There is nothing left to do for the step. -/
def Step.IsDone (ps : PowerShell) (ourIp : Ipv4Addr) (m : Machine) : Step → Prop
  | .write path content => RealFile m.files (names path) content
  | .removeOurs path => ¬ReadsOurs path ourIp m
  | .ps command _ _ | .psExec command => ∀ rules, ps command m.rules (.ok true) rules →
      rules = m.rules
  | .exec _ _ | .note _ => True

section Second

variable {ps : PowerShell} {mayLink : Except Str Str → Prop} {mayDir : Bool → Prop}
  {os : Os} {config : Config} {ourIp : Ipv4Addr} {m m' : Machine} {path content : Str}

theorem RealFile.read {files : FileTree Attrs} {path : Names} (h : RealFile files path content) :
    files.read path = some (utf8 content) := by
  obtain ⟨place, attrs, hplace, hfile⟩ := h
  exact FileTree.read_of_locate hplace hfile

theorem idles_run (cmd : Str) (args : List Str) : Idles ps mayLink mayDir m (run cmd args) := by
  refine rests_bind (rests_query rfl fun _ _ hstep => hstep.answers rfl) fun answer _ => ?_
  cases answer with
  | error e => exact rests_ret _
  | ok exit =>
      dsimp only
      split
      · exact rests_ret _
      · exact rests_ret _

theorem idles_isElevated (os : Os) : Idles ps mayLink mayDir m (isElevated os) := by
  rw [isElevated]
  split
  all_goals
    refine rests_bind (rests_query rfl fun _ _ hstep => hstep.answers rfl) fun answer _ => ?_
    cases answer with
    | error e => exact rests_ret _
    | ok exit => exact rests_ret _

theorem idles_detect :
    Idles ps mayLink mayDir m (if os = .linux then detectResolvOwnerLive else pure .unknown) := by
  split
  · refine rests_bind (rests_query rfl fun _ _ hstep => hstep.2.2) fun link _ => ?_
    exact rests_bind (rests_query rfl fun _ _ hstep => hstep.2.2) fun dir _ => rests_ret _
  · exact rests_ret _

theorem idles_runPs {command : Str}
    (hdone : ∀ rules, ps command m.rules (.ok true) rules → rules = m.rules) :
    Idles ps mayLink mayDir m (runPs command) := by
  refine rests_bind (rests_query rfl fun answer m' hstep => ?_) fun answer _ => ?_
  · obtain rfl : answer = .ok true := hstep.2.1
    obtain ⟨hfiles, hrules⟩ := hstep.answers rfl
    cases m'
    cases m
    cases hfiles
    cases hdone _ hrules
    rfl
  · cases answer with
    | error e => exact rests_ret _
    | ok success =>
        dsimp only
        split
        · exact rests_ret _
        · exact rests_ret _

theorem idles_writeIfChanged (hreal : RealFile m.files (names path) content) :
    Idles ps mayLink mayDir m (writeIfChanged os path content) := by
  refine rests_bind (rests_query rfl fun _ _ hstep => (hstep.answers rfl).1)
    fun existing hread => ?_
  have hsucceeds : ∀ text, m.files.read (names path) = some (utf8 text) → existing = .ok text :=
    (exec_query_iff.mp hread).2.1
  have hsame : (Except.ok content : Except Str Str).toOption = some content := rfl
  rw [hsucceeds content hreal.read, if_pos hsame]
  exact rests_ret _

theorem idles_removeIfOurs (hforeign : ¬ReadsOurs path ourIp m) :
    Idles ps mayLink mayDir m (removeIfOurs path ourIp) := by
  have hcheck : Idles ps mayLink mayDir m (fileIsOurs path ourIp) :=
    rests_bind (rests_query rfl fun _ _ hstep => (hstep.answers rfl).1) fun _ _ => rests_ret _
  refine rests_bind hcheck fun ours hours => ?_
  cases ours with
  | true => exact absurd ((exec_fileIsOurs hours).1.mp rfl) hforeign
  | false => exact rests_ret _

theorem idles_executeStep {s : Step} (hdone : s.IsDone ps ourIp m) (r : Report) :
    Idles ps mayLink mayDir m (executeStep os ourIp r s) := by
  cases s with
  | write path content =>
      refine rests_bind (idles_writeIfChanged hdone) fun outcome _ => ?_
      cases outcome with
      | error e => exact rests_ret _
      | ok changed => exact rests_ret _
  | removeOurs path =>
      refine rests_bind (idles_removeIfOurs hdone) fun outcome _ => ?_
      cases outcome with
      | error e => exact rests_ret _
      | ok removed => cases removed <;> exact rests_ret _
  | exec program args => exact rests_bind (idles_run program args) fun _ _ => rests_ret _
  | ps command label bucket =>
      refine rests_bind (idles_runPs hdone) fun outcome _ => ?_
      cases outcome with
      | error e => exact rests_ret _
      | ok _ => exact rests_ret _
  | psExec command => exact rests_bind (idles_runPs hdone) fun _ _ => rests_ret _
  | note msg => exact rests_ret _

/-- A run of `configure-os` writes nothing when there is nothing left to do for the plan of
the resolver that it finds. -/
theorem idles_configure
    (hdone : ∀ owner, (os = .linux → ∃ link dir, mayLink link ∧ mayDir dir ∧
        owner = detectResolvOwner link.toOption dir) →
      ∀ s ∈ configureResolverSteps os owner config.loopbackIp config.tld,
        s.IsDone ps config.loopbackIp m) :
    Idles ps mayLink mayDir m (configure os config false) := by
  refine rests_bind (idles_isElevated os) fun elevated _ => ?_
  split
  · exact rests_ret _
  split
  · exact rests_ret _
  refine rests_bind idles_detect fun owner howner => ?_
  have hplan := hdone owner (exec_detect howner).2
  refine rests_bind (rests_foldlM (fun s hs r => idles_executeStep (hplan s hs) r) _) fun r _ => ?_
  refine rests_bind (rests_ret _) fun r' _ => rests_bind ?_ fun activated _ => rests_ret _
  split
  · exact rests_bind (rests_query rfl fun _ _ hstep => hstep.answers rfl) fun _ _ => rests_ret _
  · exact rests_ret _

/-- What a run has left is all there is to do for the next one. -/
theorem Settled.idles {psEq : Str → Str → Bool} (hps : WorkingPowerShell psEq ps)
    (htld : isSafeTld config.tld = true) {link : Except Str Str} {dir : Bool}
    (h : Settled psEq os config (detectResolvOwner link.toOption dir) m m') :
    Idles ps (· = link) (· = dir) m' (configure os config false) := by
  refine idles_configure fun owner howner s hs => ?_
  cases s with
  | write path content =>
      have hos := ne_windows_of_write_mem hs
      refine h.real ?_
      cases os with
      | linux =>
          obtain ⟨link', dir', rfl, rfl, rfl⟩ := howner rfl
          exact hs
      | windows => exact absurd rfl hos
      | _ => exact hs
  | removeOurs path =>
      have hremoved := removedPath_of_mem hs
      rw [removedPaths_configure] at hremoved
      cases hremoved
  | exec program args => trivial
  | ps command label bucket =>
      obtain ⟨rfl, hcommand⟩ := windows_of_ps_mem (psCommands_configure _ _ _ _) hs
      intro rules hrules
      subst hcommand
      have hadd := hps.add htld hrules
      rwa [if_pos (h.rule rfl).1] at hadd
  | psExec command =>
      obtain ⟨rfl, hcommand⟩ := windows_of_psExec_mem (psExecCommands_configure _ _ _ _) hs
      intro rules hrules
      subst hcommand
      exact hps.flush hrules
  | note msg => trivial

end Second

/-! ## The way back -/

/-- Nothing is left where the paths lead, and all else is unchanged. -/
def Emptied (paths : List Str) (files files' : FileTree Attrs) : Prop :=
  ∀ place, ((∃ path ∈ paths, files.locate false (names path) = some place) →
      files' place = none) ∧
    ((∀ path ∈ paths, files.locate false (names path) ≠ some place) → files' place = files place)

/-- The paths are emptied, which no walk sees, and the rules stay. -/
structure Sweeps (paths : List Str) (m m' : Machine) : Prop where
  rules : m'.rules = m.rules
  sight : FileTree.SameSight m.files m'.files
  emptied : Emptied paths m.files m'.files

section Sweeps

variable {m m₁ m' : Machine} {path : Str} {paths paths' : List Str} {place : Names}
  {ourIp : Ipv4Addr}

theorem Emptied.of_absent {files : FileTree Attrs}
    (h : ∀ path ∈ paths, ∀ place, files.locate false (names path) = some place →
      files place = none) : Emptied paths files files := by
  refine fun place => ⟨?_, fun _ => rfl⟩
  rintro ⟨path, hpath, hplace⟩
  exact h path hpath place hplace

theorem sweeps_absent (h : ∀ place, m.files.locate false (names path) = some place →
    m.files place = none) : Sweeps [path] m m where
  rules := rfl
  sight := .refl _
  emptied := .of_absent (List.forall_mem_singleton.mpr h)

theorem sweeps_nil (m : Machine) : Sweeps [] m m where
  rules := rfl
  sight := .refl _
  emptied := .of_absent (List.forall_mem_nil _)

theorem sweeps_removed (hplace : m.files.locate false (names path) = some place)
    (hstop : onward (m.files place) = .stop) :
    Sweeps [path] m { m with files := m.files.set place none } where
  rules := rfl
  sight := FileTree.sameSight_set hstop.symm
  emptied := by
    refine fun other => ⟨?_, fun hother => FileTree.set_of_ne ?_⟩
    · rintro ⟨path', hpath', hother⟩
      obtain rfl := List.mem_singleton.mp hpath'
      rw [hplace, Option.some.injEq] at hother
      rw [← hother]
      exact FileTree.set_self _ _ _
    · rintro rfl
      exact hother path List.mem_cons_self hplace

theorem Sweeps.trans (h : Sweeps paths m m₁) (h' : Sweeps paths' m₁ m') :
    Sweeps (paths ++ paths') m m' where
  rules := h'.rules.trans h.rules
  sight := h.sight.trans h'.sight
  emptied := by
    intro place
    have hlocate : ∀ path, m₁.files.locate false (names path) =
        m.files.locate false (names path) := fun path => h.sight.locate false (names path)
    constructor
    · rintro ⟨path, hpath, hplace⟩
      by_cases hlater : ∃ path ∈ paths', m₁.files.locate false (names path) = some place
      · exact (h'.emptied place).1 hlater
      · rw [(h'.emptied place).2 fun other hother heq => hlater ⟨other, hother, heq⟩]
        rcases List.mem_append.mp hpath with hfirst | hsecond
        · exact (h.emptied place).1 ⟨path, hfirst, hplace⟩
        · exact absurd ⟨path, hsecond, (hlocate path).trans hplace⟩ hlater
    · intro hother
      rw [(h'.emptied place).2, (h.emptied place).2]
      · exact fun path hpath => hother path (List.mem_append_left _ hpath)
      · exact fun path hpath => hlocate path ▸ hother path (List.mem_append_right _ hpath)

/-- Entries are unchanged or gone. -/
theorem Emptied.entries {files files' : FileTree Attrs} (h : Emptied paths files files')
    (place : Names) : files' place = files place ∨ files' place = none := by
  by_cases hplace : ∃ path ∈ paths, files.locate false (names path) = some place
  · exact Or.inr ((h place).1 hplace)
  · exact Or.inl ((h place).2 fun path hpath heq => hplace ⟨path, hpath, heq⟩)

theorem Sweeps.absentOrOwn (h : Sweeps paths m m') (hown : AbsentOrOwn path ourIp m.files) :
    AbsentOrOwn path ourIp m'.files :=
  hown.of_sameSight h.sight h.emptied.entries

end Sweeps

section Back

variable {ps : PowerShell} {mayLink : Except Str Str → Prop} {mayDir : Bool → Prop}
  {os : Os} {config : Config} {ourIp : Ipv4Addr} {m m' : Machine} {path : Str} {r r' : Report}

/-- A file of the tool that is not a policy on Linux is read as ours. -/
theorem AbsentOrOwn.readsOurs (h : AbsentOrOwn path ourIp m.files)
    (hpath : path ∉ [linuxChromePolicy, linuxChromiumPolicy]) {place : Names}
    (hplace : m.files.locate false (names path) = some place) (hentry : m.files place ≠ none) :
    ReadsOurs path ourIp m := by
  rcases h place hplace with hnone | ⟨attrs, text, hfile, hown⟩
  · exact absurd hnone hentry
  · refine ⟨text, FileTree.read_of_locate hplace hfile, hown.resolve_right fun hpolicy => ?_⟩
    exact hpath hpolicy.1

theorem AbsentOrOwn.sweeps_foreign (h : AbsentOrOwn path ourIp m.files)
    (hpath : path ∉ [linuxChromePolicy, linuxChromiumPolicy]) (hforeign : ¬ReadsOurs path ourIp m) :
    Sweeps [path] m m := by
  refine sweeps_absent fun place hplace => ?_
  by_contra hentry
  exact hforeign (h.readsOurs hpath hplace hentry)

/-- The removals of a plan empty their paths. -/
theorem Clears.sweeps {steps : List Step} {removed : List Str}
    (h : Clears ourIp steps m removed m')
    (hown : ∀ path ∈ steps.filterMap Step.removedPath, AbsentOrOwn path ourIp m.files ∧
      path ∉ [linuxChromePolicy, linuxChromiumPolicy]) :
    Sweeps (steps.filterMap Step.removedPath) m m' := by
  induction steps generalizing m removed with
  | nil =>
      obtain ⟨-, rfl⟩ := h
      exact sweeps_nil m'
  | cons s steps ih =>
      cases s with
      | removeOurs path =>
          obtain ⟨hpath, hothers⟩ := List.forall_mem_cons.mp hown
          rcases h with ⟨-, place, rest, hplace, -, -, hrest⟩ | ⟨hforeign, hrest⟩
          · have hfirst := sweeps_removed hplace (hpath.1.stop hplace)
            refine hfirst.trans (ih hrest fun other hother => ?_)
            exact ⟨hfirst.absentOrOwn (hothers other hother).1, (hothers other hother).2⟩
          · exact (hpath.1.sweeps_foreign hpath.2 hforeign).trans (ih hrest hothers)
      | write path content => exact ih h hown
      | exec program args => exact ih h hown
      | ps command label bucket => exact ih h hown
      | psExec command => exact ih h hown
      | note msg => exact ih h hown

theorem exec_removeLinuxPolicy_sweeps (hown : AbsentOrOwn path ourIp m.files)
    (h : Exec (WorkingRun ps mayLink mayDir []) m (removeLinuxPolicy r path) r' m') :
    Sweeps [path] m m' := by
  obtain ⟨present, m₁, hcall, hrest⟩ := exec_bind_iff.mp h
  have hstep := exec_query_iff.mp hcall
  obtain ⟨rfl, -⟩ := hstep.answers rfl
  obtain rfl : present = m₁.files.isPresent (names path) := hstep.2.1
  split at hrest
  · obtain ⟨removed, m₂, hremove, hret⟩ := exec_bind_iff.mp hrest
    have hremoved := exec_query_iff.mp hremove
    obtain rfl : removed = .ok () := hremoved.2.1
    obtain ⟨-, rfl⟩ := exec_ret_iff.mp hret
    obtain ⟨files, hfiles, rfl⟩ := hremoved.answers rfl
    obtain ⟨place, hplace, -, rfl⟩ := FileTree.removeFile_eq_some hfiles
    exact sweeps_removed hplace (hown.stop hplace)
  · rename_i habsent
    obtain ⟨-, rfl⟩ := exec_ret_iff.mp hrest
    refine sweeps_absent fun place hplace => ?_
    rcases hown place hplace with hnone | ⟨attrs, text, hfile, -⟩
    · exact hnone
    · refine absurd ?_ habsent
      simp [FileTree.isPresent, FileTree.locate_file hplace hfile, hfile]

theorem artifact_not_policy {tld : Str} (h : path ∈ artifactPaths os [tld]) :
    path ∉ [linuxChromePolicy, linuxChromiumPolicy] := by
  have hpolicies : path ∉ policyPaths := by
    cases os with
    | linux =>
        have hresolver : path ∈ resolverArtifacts .linux tld := h
        exact not_mem_policyPaths hresolver
    | macos =>
        rcases List.mem_pair.mp h with rfl | rfl
        · exact of_literal (· ∉ policyPaths) (by decide)
        · exact macosResolverPath_not_mem_policyPaths tld
    | windows => cases h
    | other name => cases h
  exact fun hmem => hpolicies (List.mem_append_left [macosChromePlist] hmem)

/-- A run of `unconfigure-os` empties the tool's own paths. -/
theorem exec_unconfigure_sweeps (hos : os = .linux ∨ os = .macos)
    (htld : isSafeTld config.tld = true)
    (hown : ∀ path ∈ ownPaths os config.tld, AbsentOrOwn path config.loopbackIp m.files)
    (h : Exec (WorkingRun ps mayLink mayDir []) m (unconfigure os config) r m') :
    Sweeps (ownPaths os config.tld) m m' := by
  have hsupported : os.isSupported = true := by
    rcases hos with rfl | rfl <;> rfl
  obtain ⟨r₀, r₁, r₂, m₁, hexecute, hpolicy, -, -⟩ := exec_unconfigure_plan hsupported h
  obtain ⟨removed, -, hclears⟩ :=
    exec_clears (fun s hs => removal_or_exec_of_mem hos htld hs) hexecute
  have hartifacts : Sweeps (artifactPaths os [config.tld]) m m₁ := by
    rw [← removedPaths_unconfigure os config.loopbackIp config.tld]
    refine hclears.sweeps fun path hpath => ?_
    rw [removedPaths_unconfigure] at hpath
    exact ⟨hown path (mem_ownPaths_of_artifact hpath), artifact_not_policy hpath⟩
  refine hartifacts.trans ?_
  have hlater : ∀ path ∈ ownPaths os config.tld, AbsentOrOwn path config.loopbackIp m₁.files :=
    fun path hpath => hartifacts.absentOrOwn (hown path hpath)
  rcases hos with rfl | rfl
  · obtain ⟨r₃, m₂, hchrome, hrest⟩ := exec_bind_iff.mp hpolicy
    obtain ⟨r₄, m₃, hchromium, hret⟩ := exec_bind_iff.mp hrest
    obtain ⟨-, rfl⟩ := exec_ret_iff.mp hret
    have hfirst := exec_removeLinuxPolicy_sweeps
      (hlater _ (List.mem_append_right _ List.mem_cons_self)) hchrome
    have hother := hlater linuxChromiumPolicy
      (List.mem_append_right _ (List.mem_cons_of_mem _ List.mem_cons_self))
    exact hfirst.trans (exec_removeLinuxPolicy_sweeps (hfirst.absentOrOwn hother) hchromium)
  · have hplist := hlater macosChromePlist (List.mem_append_right _ List.mem_cons_self)
    obtain ⟨result, m₂, hremove, hrest⟩ := exec_bind_iff.mp hpolicy
    have hsame : m' = m₂ := by
      split at hrest
      · exact (exec_ret_iff.mp hrest).2
      · exact (exec_ret_iff.mp hrest).2
    subst hsame
    rcases exec_removeIfOurs_cases hremove with ⟨-, -, place, hplace, -, rfl⟩ | ⟨-, hforeign, rfl⟩
    · exact sweeps_removed hplace (hplist.stop hplace)
    · refine hplist.sweeps_foreign ?_ hforeign
      exact of_literal (· ∉ [linuxChromePolicy, linuxChromiumPolicy]) (by decide)

/-- The policies on Windows are in the registry, and not among the files and rules. -/
theorem exec_removeBrowserPolicy_windows
    (h : Exec (WorkingRun ps mayLink mayDir []) m (removeBrowserPolicy .windows ourIp r) r' m') :
    m' = m := by
  have hreg : ∀ args, Keeps (WorkingRun ps mayLink mayDir []) (· = m) (reg args) :=
    fun args m₁ result m₂ hrun hsame => (exec_run hrun).trans hsame
  have hkeeps : Keeps (WorkingRun ps mayLink mayDir []) (· = m)
      (winBrowsers.foldlM removeWindowsPolicy r) := by
    refine keeps_foldlM (fun browser _ r => ?_) r
    refine keeps_bind (keeps_removeWindowsBrowserPolicy hreg _) fun removed => ?_
    split <;> exact keeps_ret _
  exact hkeeps h rfl

theorem exec_unconfigure_windows {psEq : Str → Str → Bool} (hps : WorkingPowerShell psEq ps)
    (h : Exec (WorkingRun ps mayLink mayDir []) m (unconfigure .windows config) r m') :
    m'.files = m.files ∧ m'.rules = withoutOurRules psEq m.rules := by
  have hplan : PlanWithin .windows []
      (unconfigureResolverSteps .windows config.loopbackIp config.tld) :=
    planWithin_unconfigure (List.mem_singleton.mpr rfl)
  obtain ⟨r₀, r₁, r₂, m₁, hexecute, hpolicy, -, -⟩ := exec_unconfigure_plan rfl h
  obtain rfl := exec_removeBrowserPolicy_windows hpolicy
  have heffects := exec_steps hplan hexecute
  refine ⟨?_, rules_unconfigure_windows hps heffects⟩
  obtain ⟨m₂, hremove, m₃, hflush, rfl⟩ := heffects
  exact hflush.1.trans hremove.1

end Back

/-! ## Both ways -/

/-- The directories of the artifacts are above the level of the tool's own paths. -/
theorem exists_depth {os : Os} {tld : Str} (htld : isSafeTld tld = true) :
    ∃ n, (∀ path ∈ artifactPaths os [tld], ∀ dir, parent path = some dir →
        ['.', '.'] ∉ names dir ∧ (names dir).length < n) ∧
      ∀ path ∈ ownPaths os tld, ['.', '.'] ∉ names path ∧ n ≤ (names path).length := by
  cases os with
  | linux =>
      have hdirs : ∀ path ∈ artifactPaths .linux [tld], ∀ dir ∈ parent path,
          ['.', '.'] ∉ names dir ∧ (names dir).length < 4 := by
        show ∀ path ∈ [linuxResolvedDropin, linuxNmDnsmasqConf], _
        decide +kernel
      have hpaths : ∀ path ∈ ownPaths .linux tld, ['.', '.'] ∉ names path ∧
          4 ≤ (names path).length := by
        show ∀ path ∈ [linuxResolvedDropin, linuxNmDnsmasqConf, linuxChromePolicy,
          linuxChromiumPolicy], _
        decide +kernel
      exact ⟨4, fun path hpath dir hdir => hdirs path hpath dir hdir, hpaths⟩
  | macos =>
      have hplist : parent macosLo0Plist = some "/Library/LaunchDaemons".toList := by
        decide +kernel
      refine ⟨3, fun path hpath dir hdir => ?_, fun path hpath => ?_⟩
      · rcases List.mem_pair.mp hpath with rfl | rfl
        · rw [hplist, Option.some.injEq] at hdir
          subst hdir
          decide +kernel
        · rw [parent_macosResolverPath htld, Option.some.injEq] at hdir
          subst hdir
          decide +kernel
      · rcases List.mem_append.mp hpath with hartifact | hpolicy
        · rcases List.mem_pair.mp hartifact with rfl | rfl
          · decide +kernel
          · rw [names_macosResolverPath htld]
            refine ⟨fun hmem => ?_, le_rfl⟩
            rcases List.mem_cons.mp hmem with h | hmem
            · cases h
            rcases List.mem_cons.mp hmem with h | hmem
            · cases h
            · exact (ne_dots_of_isSafeTld htld).2 (List.mem_singleton.mp hmem).symm
        · obtain rfl := List.mem_singleton.mp hpolicy
          decide +kernel
  | windows => exact ⟨0, List.forall_mem_nil _, List.forall_mem_nil _⟩
  | other name => exact ⟨0, List.forall_mem_nil _, List.forall_mem_nil _⟩

/-- In a tree without links, it is enough that each of the tool's own paths is absent or
holds its content. -/
theorem clear_of_linkless {os : Os} {config : Config} {files : FileTree Attrs}
    (htld : isSafeTld config.tld = true) (hlinks : files.Linkless)
    (hown : ∀ path ∈ ownPaths os config.tld, files (names path) = none ∨
      ∃ attrs text, files (names path) = some (.file attrs (utf8 text)) ∧
        IsOwn path text config.loopbackIp) : Clear os config files := by
  obtain ⟨n, hdirs, hpaths⟩ : ∃ n, (∀ path ∈ artifactPaths os [config.tld], ∀ dir,
        parent path = some dir → ['.', '.'] ∉ names dir ∧ (names dir).length < n) ∧
      ∀ path ∈ ownPaths os config.tld, ['.', '.'] ∉ names path ∧ n ≤ (names path).length :=
    exists_depth htld
  intro made hways
  have hmade : made.Linkless ∧ ∀ place : Names, n ≤ place.length → made place = files place := by
    induction hways with
    | refl => exact ⟨hlinks, fun _ _ => rfl⟩
    | tail _ hlast ih =>
        obtain ⟨path, hpath, dir, hdir, hmakes⟩ := hlast
        obtain ⟨hdots, hlength⟩ := hdirs path hpath dir hdir
        obtain ⟨hlinks', hsame⟩ := ih.1.makesDirs hdots hmakes
        refine ⟨hlinks', fun place hplace => ?_⟩
        rw [hsame place fun hprefix => ?_, ih.2 place hplace]
        have := hprefix.length_le
        omega
  intro path hpath place hplace
  obtain ⟨hdots, hlength⟩ := hpaths path hpath
  obtain rfl := hmade.1.locate hdots hplace
  rw [hmade.2 _ hlength]
  exact hown path hpath

section Both

variable {psEq : Str → Str → Bool} {ps : PowerShell} {mayLink : Except Str Str → Prop}
  {mayDir : Bool → Prop} {os : Os} {config : Config} {m m' : Machine} {r : Report}

/-- A run of `unconfigure-os` from paths that hold at most files of the tool. -/
theorem exec_unconfigure_emptied (hps : WorkingPowerShell psEq ps)
    (htld : isSafeTld config.tld = true)
    (hown : ∀ path ∈ ownPaths os config.tld, AbsentOrOwn path config.loopbackIp m.files)
    (h : Exec (WorkingRun ps mayLink mayDir []) m (unconfigure os config) r m') :
    Emptied (ownPaths os config.tld) m.files m'.files ∧
      m'.rules = if os = .windows then withoutOurRules psEq m.rules else m.rules := by
  have hsweeps : os = .linux ∨ os = .macos → Emptied (ownPaths os config.tld) m.files m'.files ∧
      m'.rules = m.rules := fun hos =>
    have hrun := exec_unconfigure_sweeps hos htld hown h
    ⟨hrun.emptied, hrun.rules⟩
  cases os with
  | linux => exact hsweeps (Or.inl rfl)
  | macos => exact hsweeps (Or.inr rfl)
  | windows =>
      obtain ⟨hfiles, hrules⟩ := exec_unconfigure_windows hps h
      rw [hfiles]
      exact ⟨.of_absent (List.forall_mem_nil _), hrules⟩
  | other name =>
      obtain rfl := exec_refused rfl h
      exact ⟨.of_absent (List.forall_mem_nil _), rfl⟩

end Both

/-- From paths that are free or hold files of the tool, a second run of `configure-os`
leaves the machine as the first one did and writes nothing, and `unconfigure-os` then
empties exactly these paths, which hold the artifacts that were written. -/
theorem configure_idempotent_inverted (psEq : Str → Str → Bool) (ps : PowerShell)
    (hps : WorkingPowerShell psEq ps) (os : Os) (link : Except Str Str) (dir : Bool)
    (config : Config) (hvalid : config.validate = .ok ()) (m m₁ : Machine)
    (hclear : Clear os config m.files) (r : Report)
    (h : Exec (WorkingRun ps (· = link) (· = dir) []) m (configure os config false) r m₁) :
    (∀ r₂ m₂, Exec (WorkingRun ps (· = link) (· = dir) []) m₁ (configure os config false) r₂ m₂ →
      m₂ = m₁ ∧ Exec (Asking (fun q => q.writes = false) (WorkingRun ps (· = link) (· = dir) []))
        m₁ (configure os config false) r₂ m₁) ∧
    (∀ r₃ m₃, Exec (WorkingRun ps (· = link) (· = dir) []) m₁ (unconfigure os config) r₃ m₃ →
      Emptied (ownPaths os config.tld) m₁.files m₃.files ∧
        m₃.rules = if os = .windows then withoutOurRules psEq m.rules else m.rules) ∧
    Grown (ownPaths os config.tld) m.files m₁.files ∧
    ∀ path content, .write path content ∈ configureResolverSteps os
        (detectResolvOwner link.toOption dir) config.loopbackIp config.tld →
      path ∈ ownPaths os config.tld ∧ RealFile m₁.files (names path) content ∧
        ∀ ip, contentIsOurs content ip = true := by
  have htld := ((Config.validate_eq_ok_iff config).mp hvalid).tld
  have hsettled := exec_configure_settled hps htld hclear h
  refine ⟨hsettled.idles hps htld, fun r₃ m₃ hback => ?_, hsettled.grown,
    fun path content hwritten => ?_⟩
  · obtain ⟨hemptied, hrules⟩ :=
      exec_unconfigure_emptied hps htld (fun path hpath => hsettled.clear.now hpath) hback
    refine ⟨hemptied, hrules.trans ?_⟩
    split
    · rename_i hwindows
      exact (hsettled.rule hwindows).2
    · rename_i hother
      exact hsettled.rules hother
  · obtain ⟨hpath, -, hmarker⟩ := artifact_of_write_mem htld hwritten
    exact ⟨mem_ownPaths_of_artifact hpath, hsettled.real hwritten,
      fun ip => hmarker.contentIsOurs ip⟩

/-! ## A machine of NetworkManager -/

/-- What `serve` tells of the resolver is this. -/
def told (link : Except Str Str) (dir : Bool) (m : Machine) : Call → Bool
  | .readLink path => (serve m (.readLink path)).1 = link
  | .isDir path => (serve m (.isDir path)).1 = dir
  | _ => true

/-- A run against `serve` in which nothing fails and the resolver stays the same. -/
theorem exec_serve_told {α : Type} {m : Machine} {p : OsProg α} {link : Except Str Str}
    {dir : Bool} (h : ∀ asked ∈ p.asked serve m,
      served asked.1 asked.2 = true ∧ told link dir asked.1 asked.2 = true) :
    Exec (WorkingRun PowerShell.reference (· = link) (· = dir) []) m p
      (p.eval serve m).1 (p.eval serve m).2 := by
  refine exec_eval_of_asked fun asked hasked => ⟨List.forall_mem_nil _, ?_⟩
  obtain ⟨hserved, htold⟩ := h asked hasked
  obtain ⟨hsucceeds, hanswers⟩ := working_serve hserved
  refine ⟨?_, hanswers⟩
  obtain ⟨m, q⟩ := asked
  cases q with
  | readLink path =>
      have hlink : (serve m (.readLink path)).1 = link := of_decide_eq_true htold
      exact hlink
  | isDir path =>
      have hdir : (serve m (.isDir path)).1 = dir := of_decide_eq_true htold
      exact hdir
  | _ => exact hsucceeds

/-- A machine with the directory for the files of `dnsmasq`. -/
def dnsmasqReady : Machine where
  files place :=
    if place = ["etc".toList] ∨ place = ["etc".toList, "NetworkManager".toList] ∨
        place = ["etc".toList, "NetworkManager".toList, "dnsmasq.d".toList] then
      some (.dir rootAttrs)
    else none
  rules := []

theorem clear_dnsmasqReady : Clear .linux Config.default dnsmasqReady.files := by
  have habsent : ∀ path ∈ ownPaths .linux Config.default.tld,
      dnsmasqReady.files (names path) = none := by
    decide +kernel
  refine clear_of_linkless (by decide +kernel) (fun place target => ?_)
    fun path hpath => Or.inl (habsent path hpath)
  simp only [dnsmasqReady]
  split_ifs <;> simp

/-- There the file for `dnsmasq` is written once, and removed again. -/
theorem configure_idempotent_inverted_dnsmasq :
    ((configure .linux Config.default false).eval serve
        ((configure .linux Config.default false).eval serve dnsmasqReady).2).2 =
      ((configure .linux Config.default false).eval serve dnsmasqReady).2 ∧
    Emptied (ownPaths .linux defaultTld)
      ((configure .linux Config.default false).eval serve dnsmasqReady).2.files
      ((unconfigure .linux Config.default).eval serve
        ((configure .linux Config.default false).eval serve dnsmasqReady).2).2.files := by
  have hfirst : Exec
      (WorkingRun PowerShell.reference (· = .error "not a link".toList) (· = true) [])
      dnsmasqReady (configure .linux Config.default false)
      ((configure .linux Config.default false).eval serve dnsmasqReady).1
      ((configure .linux Config.default false).eval serve dnsmasqReady).2 :=
    exec_serve_told (by decide +kernel)
  obtain ⟨hsecond, hback, -⟩ := configure_idempotent_inverted eqIgnoreAsciiCase PowerShell.reference
    workingPowerShell_reference .linux (.error "not a link".toList) true Config.default
    default_validate dnsmasqReady _ clear_dnsmasqReady _ hfirst
  exact ⟨(hsecond _ _ (exec_serve_told (by decide +kernel))).1,
    (hback _ _ (exec_serve_told (by decide +kernel))).1⟩

end DigDns.OsConfig
