import DigDns.OsConfig.Working

/-!
# What uninstalling leaves behind

After any runs of `configure-os`, one of `unconfigure-os` removes every file and
rule with the marker, except on macOS the resolver files of other TLDs than the
one it is configured for: their paths are computed from the TLD, and the removal
sees only the last one.
-/

namespace DigDns.OsConfig

open Rust Interaction Posix

/-! ## Artifacts -/

section ResolverPath

variable {tld : Str} (htld : isSafeTld tld = true)
include htld

theorem not_mem_of_isSafeTld {c : Char} (hc : c = '/' ∨ c = '.') : c ∉ tld := by
  intro hmem
  rcases range_of_isSafeTld htld hmem with hrange | hrange | rfl
  · rcases hc with rfl | rfl <;> exact absurd hrange (by decide)
  · rcases hc with rfl | rfl <;> exact absurd hrange (by decide)
  · rcases hc with hc | hc <;> cases hc

theorem splitOn_macosResolverPath :
    (macosResolverPath tld).splitOn '/' = [[], "etc".toList, "resolver".toList, tld] := by
  have hpath : macosResolverPath tld =
      [] ++ '/' :: ("etc".toList ++ '/' :: ("resolver".toList ++ '/' :: tld)) := rfl
  rw [hpath, List.splitOn_append_cons_self_of_not_mem (by decide),
    List.splitOn_append_cons_self_of_not_mem (by decide),
    List.splitOn_append_cons_self_of_not_mem (by decide),
    List.splitOn_eq_singleton (not_mem_of_isSafeTld htld (Or.inl rfl))]

/-- A TLD is no name that stands for a directory. -/
theorem ne_dots_of_isSafeTld : tld ≠ ['.'] ∧ tld ≠ ['.', '.'] := by
  have hdot := not_mem_of_isSafeTld htld (Or.inr rfl)
  constructor
  · rintro rfl
    exact hdot List.mem_cons_self
  · rintro rfl
    exact hdot List.mem_cons_self

theorem fileName_macosResolverPath : fileName (macosResolverPath tld) = some tld := by
  have hname : rsplitNext '/' (macosResolverPath tld) = tld := by
    rw [rsplitNext, splitOn_macosResolverPath htld]
    rfl
  rw [fileName, hname]
  exact if_neg (not_or.mpr ⟨ne_nil_of_isSafeTld htld, (ne_dots_of_isSafeTld htld).2⟩)

theorem parent_macosResolverPath :
    parent (macosResolverPath tld) = some "/etc/resolver".toList := by
  have hpath : macosResolverPath tld = ('/' :: "etc/resolver".toList) ++ '/' :: tld := rfl
  rw [parent, hpath, rsplitOnce_append (not_mem_of_isSafeTld htld (Or.inl rfl))]
  rfl

theorem names_macosResolverPath :
    names (macosResolverPath tld) = ["etc".toList, "resolver".toList, tld] := by
  have hne := ne_nil_of_isSafeTld htld
  have hdot := (ne_dots_of_isSafeTld htld).1
  simp [names, splitOn_macosResolverPath htld, hne, hdot]

theorem getLast?_macosResolverPath : (names (macosResolverPath tld)).getLast? = some tld := by
  rw [names_macosResolverPath htld]
  rfl

end ResolverPath

/-- A path with a parent and a name. -/
def IsEntry (path : Str) : Prop := (parent path).isSome = true ∧ (fileName path).isSome = true

instance (path : Str) : Decidable (IsEntry path) :=
  inferInstanceAs (Decidable (_ ∧ _))

theorem isEntry_linuxResolvedDropin : IsEntry linuxResolvedDropin :=
  of_literal IsEntry (by decide)

theorem isEntry_linuxNmDnsmasqConf : IsEntry linuxNmDnsmasqConf :=
  of_literal IsEntry (by decide)

theorem isEntry_macosLo0Plist : IsEntry macosLo0Plist :=
  of_literal IsEntry (by decide)

theorem isEntry_macosResolverPath {tld : Str} (htld : isSafeTld tld = true) :
    IsEntry (macosResolverPath tld) := by
  rw [IsEntry, parent_macosResolverPath htld, fileName_macosResolverPath htld]
  exact ⟨rfl, rfl⟩

/-- The bytes carry the marker. -/
def Marked (bytes : List UInt8) : Prop := utf8 marker <:+: bytes

/-- The text carries the marker. -/
def HasMarker (text : Str) : Prop := ∃ a b, text = a ++ marker ++ b

theorem hasMarker_append (a : Str) : HasMarker (a ++ marker) :=
  ⟨a, [], (List.append_nil _).symm⟩

theorem HasMarker.append {text : Str} (h : HasMarker text) (rest : Str) :
    HasMarker (text ++ rest) := by
  obtain ⟨a, b, rfl⟩ := h
  exact ⟨a, b ++ rest, List.append_assoc _ _ _⟩

theorem HasMarker.marked {text : Str} (h : HasMarker text) : Marked (utf8 text) := by
  obtain ⟨a, b, rfl⟩ := h
  exact ⟨utf8 a, utf8 b, by rw [utf8_append, utf8_append]⟩

theorem HasMarker.contentIsOurs {text : Str} (h : HasMarker text) (ourIp : Ipv4Addr) :
    contentIsOurs text ourIp = true := by
  obtain ⟨a, b, rfl⟩ := h
  rw [OsConfig.contentIsOurs, strContains_append, Bool.true_or, Bool.true_or]

theorem hasMarker_systemdResolvedDropin (ip : Ipv4Addr) (tld : Str) :
    HasMarker (systemdResolvedDropin ip tld) := by
  unfold systemdResolvedDropin
  iterate 5 refine HasMarker.append ?_ _
  exact hasMarker_append _

theorem hasMarker_networkmanagerDnsmasqConf (ip : Ipv4Addr) (tld : Str) :
    HasMarker (networkmanagerDnsmasqConf ip tld) := by
  unfold networkmanagerDnsmasqConf
  iterate 5 refine HasMarker.append ?_ _
  exact hasMarker_append _

theorem hasMarker_resolverFileContent (ip : Ipv4Addr) : HasMarker (resolverFileContent ip) := by
  unfold resolverFileContent
  iterate 3 refine HasMarker.append ?_ _
  exact hasMarker_append _

theorem hasMarker_launchdLo0AliasPlist (ip : Ipv4Addr) : HasMarker (launchdLo0AliasPlist ip) := by
  have hhead : HasMarker plistHead := by
    unfold plistHead
    refine HasMarker.append ?_ _
    exact hasMarker_append _
  unfold launchdLo0AliasPlist
  iterate 11 refine HasMarker.append ?_ _
  exact hhead

/-- A plan writes marked contents to the paths of the artifacts. -/
theorem artifact_of_write_mem {os : Os} {owner : ResolvOwner} {ip : Ipv4Addr}
    {tld path content : Str} (htld : isSafeTld tld = true)
    (h : .write path content ∈ configureResolverSteps os owner ip tld) :
    path ∈ artifactPaths os [tld] ∧ IsEntry path ∧ HasMarker content := by
  have hmem := written_of_write_mem h
  rw [written_configure] at hmem
  cases os with
  | linux =>
      cases owner with
      | systemdResolved =>
          cases List.mem_singleton.mp hmem
          exact ⟨List.mem_cons_self, isEntry_linuxResolvedDropin,
            hasMarker_systemdResolvedDropin ip tld⟩
      | networkManagerDnsmasq =>
          cases List.mem_singleton.mp hmem
          exact ⟨List.mem_cons_of_mem _ List.mem_cons_self, isEntry_linuxNmDnsmasqConf,
            hasMarker_networkmanagerDnsmasqConf ip tld⟩
      | unknown => cases hmem
  | macos =>
      rcases List.mem_pair.mp hmem with hplist | hresolver
      · cases hplist
        exact ⟨List.mem_cons_self, isEntry_macosLo0Plist, hasMarker_launchdLo0AliasPlist ip⟩
      · cases hresolver
        exact ⟨List.mem_cons_of_mem _ List.mem_cons_self, isEntry_macosResolverPath htld,
          hasMarker_resolverFileContent ip⟩
  | windows => cases hmem
  | other name => cases hmem

theorem planWithin_configure {os : Os} {owner : ResolvOwner} {ip : Ipv4Addr} {tld : Str}
    {tlds : List Str} (htld : isSafeTld tld = true) (hmem : tld ∈ tlds) :
    PlanWithin os (artifactPaths os tlds) (configureResolverSteps os owner ip tld) := by
  refine ⟨fun path content hstep => ?_, fun path hstep => ?_⟩
  · obtain ⟨hpath, hentry, -⟩ := artifact_of_write_mem htld hstep
    exact ⟨ne_windows_of_write_mem hstep, artifactPaths_subset hmem hpath, hentry⟩
  · have hremoved := removedPath_of_mem hstep
    rw [removedPaths_configure] at hremoved
    cases hremoved

theorem planWithin_unconfigure {os : Os} {ip : Ipv4Addr} {tld : Str} {tlds : List Str}
    (hmem : tld ∈ tlds) :
    PlanWithin os (artifactPaths os tlds) (unconfigureResolverSteps os ip tld) := by
  refine ⟨fun path content hstep => ?_, fun path hstep => ?_⟩
  · exact absurd hstep (write_not_mem_unconfigure _ _ _ _ _)
  · have hremoved := removedPath_of_mem hstep
    rw [removedPaths_unconfigure] at hremoved
    exact artifactPaths_subset hmem hremoved

/-! ## Files with the marker -/

/-- Nothing on the machine carries the marker. -/
structure IsClean (m : Machine) : Prop where
  files : ∀ place attrs bytes, m.files place = some (.file attrs bytes) → ¬Marked bytes
  rules : ∀ rule ∈ m.rules, rule.comment ≠ marker

/-- Every marked file is a text that stands at the end of one of the paths. -/
def MarkedAt (paths : List Str) (m : Machine) : Prop :=
  ∀ place attrs bytes, m.files place = some (.file attrs bytes) → Marked bytes →
    (∃ path ∈ paths, m.files.locate false (names path) = some place) ∧
      ∃ text, bytes = utf8 text ∧ HasMarker text

section Files

variable {ps : PowerShell} {paths : List Str} {m m' : Machine} {path content : Str}
  {ourIp : Ipv4Addr}

theorem MarkedAt.of_files_eq (h : MarkedAt paths m) (hfiles : m'.files = m.files) :
    MarkedAt paths m' := by
  intro place attrs bytes hfile hmarked
  rw [hfiles] at hfile ⊢
  exact h place attrs bytes hfile hmarked

/-- What is there when directories are made stays, and can be reached as before. -/
theorem Written.kept {dir : Names} {files : FileTree Attrs} {place : Names}
    (hmakes : FileTree.MakesDirs dir m.files files) {other : Names} {node : Node Attrs}
    {target : Names} (hstop : onward (files place) = .stop) {attrs : Attrs} {bytes : List UInt8}
    (hlocate : m.files.locate false target = some other) (hnode : m.files other = some node) :
    (files.set place (some (.file attrs bytes))).locate false target = some other := by
  rw [FileTree.locate_set_file hstop]
  refine FileTree.locate_kept (fun above habove => ?_) (by rw [hnode]; exact nofun) hlocate
  obtain ⟨node', hnode'⟩ := Option.ne_none_iff_exists'.mp habove
  rw [hmakes.kept hnode', hnode']

theorem Written.markedAt (hpath : path ∈ paths) (hcontent : HasMarker content)
    (h : Written path content m m') (hmarked : MarkedAt paths m) : MarkedAt paths m' := by
  rcases h with ⟨rfl, -, -⟩ | ⟨dir, files, place, attrs, hmakes, hplace, hstop, rfl⟩
  · exact hmarked
  intro other attrs' bytes hfile hbytes
  dsimp only at hfile ⊢
  by_cases hother : other = place
  · subst hother
    rw [FileTree.set_self] at hfile
    cases hfile
    refine ⟨⟨path, hpath, ?_⟩, content, rfl, hcontent⟩
    rw [FileTree.locate_set_file hstop, hplace]
  · rw [FileTree.set_of_ne hother] at hfile
    -- A file is not made with the directories.
    have hbefore : m.files other = some (.file attrs' bytes) := by
      rcases hmakes.cases other with hsame | ⟨-, attrs'', hdir⟩
      · rw [← hsame, hfile]
      · rw [hdir] at hfile
        cases hfile
    obtain ⟨⟨path', hpath', hlocate⟩, htext⟩ := hmarked other attrs' bytes hbefore hbytes
    exact ⟨⟨path', hpath', Written.kept hmakes hstop hlocate hbefore⟩, htext⟩

/-- Once a path is emptied, the other paths are where marked files are. -/
theorem Removed.markedAt (hlink : m.files.readLink (names path) = none)
    (h : Removed path ourIp m m') (hmarked : MarkedAt (path :: paths) m) : MarkedAt paths m' := by
  rcases h with ⟨rfl, hours⟩ | ⟨place, hplace, hinto, rfl⟩
  · intro other attrs bytes hfile hbytes
    obtain ⟨⟨path', hpath', hlocate⟩, text, rfl, htext⟩ := hmarked other attrs bytes hfile hbytes
    refine ⟨?_, text, rfl, htext⟩
    rcases List.mem_cons.mp hpath' with rfl | hmem
    · -- A marked file at the path would have been taken for the tool's own.
      have hread := FileTree.read_of_locate hlocate hfile
      exact absurd ⟨text, hread, htext.contentIsOurs ourIp⟩ hours
    · exact ⟨path', hmem, hlocate⟩
  · intro other attrs bytes hfile hbytes
    dsimp only at hfile ⊢
    by_cases hother : other = place
    · rw [hother, FileTree.set_self] at hfile
      cases hfile
    rw [FileTree.set_of_ne hother] at hfile
    obtain ⟨⟨path', hpath', hlocate⟩, htext⟩ := hmarked other attrs bytes hfile hbytes
    refine ⟨⟨path', ?_, ?_⟩, htext⟩
    · rcases List.mem_cons.mp hpath' with rfl | hmem
      · exact absurd (Option.some.inj (hlocate.symm.trans hplace)) hother
      · exact hmem
    · rw [FileTree.locate_set, hlocate]
      rw [onward_eq_stop hlink hplace hinto]
      rfl

/-- Where a plan writes marked contents to the paths, marked files stay at them. -/
theorem Effects.markedAt_of_writes {steps : List Step}
    (hwrites : ∀ path content, .write path content ∈ steps →
      path ∈ paths ∧ HasMarker content)
    (hremoves : ∀ path, .removeOurs path ∉ steps) (h : Effects ps ourIp steps m m')
    (hmarked : MarkedAt paths m) : MarkedAt paths m' := by
  induction steps generalizing m with
  | nil => exact h ▸ hmarked
  | cons s steps ih =>
      obtain ⟨m₁, heffect, hrest⟩ := h
      refine ih (fun path content hmem => hwrites path content (List.mem_cons_of_mem _ hmem))
        (fun path hmem => hremoves path (List.mem_cons_of_mem _ hmem)) hrest ?_
      cases s with
      | write path content =>
          obtain ⟨hpath, hcontent⟩ := hwrites path content List.mem_cons_self
          exact heffect.markedAt hpath hcontent hmarked
      | removeOurs path => exact absurd List.mem_cons_self (hremoves path)
      | exec program args => exact heffect ▸ hmarked
      | ps command label bucket => exact hmarked.of_files_eq heffect.1
      | psExec command => exact hmarked.of_files_eq heffect.1
      | note msg => exact heffect ▸ hmarked

/-- A plan that only removes leaves marked files at the paths that it does not empty. -/
theorem Effects.markedAt_of_removes {steps : List Step}
    (hwrites : ∀ path content, .write path content ∉ steps) (h : Effects ps ourIp steps m m')
    (hmarked : MarkedAt (steps.filterMap Step.removedPath ++ paths) m) : MarkedAt paths m' := by
  induction steps generalizing m with
  | nil => exact h ▸ hmarked
  | cons s steps ih =>
      obtain ⟨m₁, heffect, hrest⟩ := h
      refine ih (fun path content hmem => hwrites path content (List.mem_cons_of_mem _ hmem))
        hrest ?_
      cases s with
      | write path content => exact absurd List.mem_cons_self (hwrites path content)
      | removeOurs path => exact heffect.1.markedAt heffect.2 hmarked
      | exec program args => exact heffect ▸ hmarked
      | ps command label bucket => exact MarkedAt.of_files_eq hmarked heffect.1
      | psExec command => exact MarkedAt.of_files_eq hmarked heffect.1
      | note msg => exact heffect ▸ hmarked

end Files

/-! ## Resolver files of other TLDs -/

/-- A marked file stands at a place with this name. -/
def HasMarkedFile (name : Str) (m : Machine) : Prop :=
  ∃ place attrs bytes, m.files place = some (.file attrs bytes) ∧ Marked bytes ∧
    place.getLast? = some name

section Leftovers

variable {ps : PowerShell} {m m' : Machine} {name path content : Str} {ourIp : Ipv4Addr}

theorem Written.hasMarkedFile (hcontent : HasMarker content) (h : Written path content m m')
    (hfile : HasMarkedFile name m) : HasMarkedFile name m' := by
  obtain ⟨place, attrs, bytes, hnode, hmarked, hlast⟩ := hfile
  rcases h with ⟨rfl, -, -⟩ | ⟨dir, files, written, attrs', hmakes, -, -, rfl⟩
  · exact ⟨place, attrs, bytes, hnode, hmarked, hlast⟩
  · by_cases hplace : place = written
    · subst hplace
      exact ⟨place, attrs', utf8 content, FileTree.set_self .., hcontent.marked, hlast⟩
    · refine ⟨place, attrs, bytes, ?_, hmarked, hlast⟩
      exact (FileTree.set_of_ne hplace).trans (hmakes.kept hnode)

/-- A file is written under the last name of its path. -/
theorem Written.hasMarkedFile_self (hcontent : HasMarker content) (hdots : name ≠ ['.', '.'])
    (hlast : (names path).getLast? = some name) (h : Written path content m m') :
    HasMarkedFile name m' := by
  rcases h with ⟨rfl, hlink, hread⟩ | ⟨dir, files, place, attrs, -, hplace, -, rfl⟩
  · rw [FileTree.read] at hread
    obtain ⟨place, hplace, hnode⟩ := Option.bind_eq_some_iff.mp hread
    have hlocate : m'.files.locate false (names path) = some place := by
      refine FileTree.locate_false_of_true (fun other target hother hnode => ?_) hplace
      simp [FileTree.readLink, hother, hnode] at hlink
    split at hnode
    · rename_i attrs bytes hfile
      cases hnode
      exact ⟨place, attrs, _, hfile, hcontent.marked, FileTree.getLast?_locate hdots hlast hlocate⟩
    · cases hnode
  · exact ⟨place, attrs, _, FileTree.set_self .., hcontent.marked,
      FileTree.getLast?_locate hdots hlast hplace⟩

theorem Shrinks.hasMarkedFile {gone : List Str} (hname : name ∉ gone) (h : Shrinks gone m m')
    (hfile : HasMarkedFile name m) : HasMarkedFile name m' := by
  obtain ⟨place, attrs, bytes, hnode, hmarked, hlast⟩ := hfile
  rcases h.2 place with hsame | ⟨-, other, hother, hend⟩
  · exact ⟨place, attrs, bytes, hsame.trans hnode, hmarked, hlast⟩
  · rw [hlast, Option.some.injEq] at hend
    exact absurd (hend ▸ hother) hname

/-- A plan keeps a marked file, if it removes nothing with its name. -/
theorem Effects.hasMarkedFile {steps : List Step}
    (hwrites : ∀ path content, .write path content ∈ steps → HasMarker content)
    (hremoves : ∀ path, .removeOurs path ∈ steps →
      ∃ other, other ≠ name ∧ other ≠ ['.', '.'] ∧ (names path).getLast? = some other)
    (h : Effects ps ourIp steps m m') (hfile : HasMarkedFile name m) : HasMarkedFile name m' := by
  have hsame : ∀ {m m₁ : Machine}, m₁.files = m.files → HasMarkedFile name m →
      HasMarkedFile name m₁ := by
    rintro m m₁ hfiles ⟨place, attrs, bytes, hnode, hmarked⟩
    exact ⟨place, attrs, bytes, hfiles ▸ hnode, hmarked⟩
  induction steps generalizing m with
  | nil => exact h ▸ hfile
  | cons s steps ih =>
      obtain ⟨m₁, heffect, hrest⟩ := h
      refine ih (fun path content hmem => hwrites path content (List.mem_cons_of_mem _ hmem))
        (fun path hmem => hremoves path (List.mem_cons_of_mem _ hmem)) hrest ?_
      cases s with
      | write path content => exact heffect.hasMarkedFile (hwrites path content List.mem_cons_self) hfile
      | removeOurs path =>
          obtain ⟨other, hne, hdots, hlast⟩ := hremoves path List.mem_cons_self
          have hshrinks := heffect.1.shrinks (List.mem_singleton_self other) hdots hlast
          exact hshrinks.hasMarkedFile (by simpa using hne.symm) hfile
      | exec program args => exact heffect ▸ hfile
      | ps command label bucket => exact hsame heffect.1 hfile
      | psExec command => exact hsame heffect.1 hfile
      | note msg => exact heffect ▸ hfile

end Leftovers

/-! ## Runs -/

section Runs

variable {psEq : Str → Str → Bool} {ps : PowerShell} {mayLink : Except Str Str → Prop}
  {mayDir : Bool → Prop} {os : Os} {config : Config} {tlds : List Str} {m m' : Machine} {r : Report}

/-- A run of `configure-os` leaves marked files at the paths of its own TLD. -/
theorem markedAt_configure (hos : os.isSupported = true) (hvalid : config.validate = .ok ())
    (hmem : config.tld ∈ tlds) {tld : Str} (htld : os = .macos → config.tld = tld)
    (h : Exec (WorkingRun ps mayLink mayDir (artifactPaths os tlds)) m (configure os config false)
      r m') (hmarked : MarkedAt (artifactPaths os [tld]) m) :
    MarkedAt (artifactPaths os [tld]) m' := by
  have hsafe := ((Config.validate_eq_ok_iff config).mp hvalid).tld
  obtain ⟨owner, -, heffects⟩ := exec_configure hos
    (fun owner => planWithin_configure hsafe hmem) h
  refine heffects.markedAt_of_writes (fun path content hstep => ?_) (fun path hstep => ?_) hmarked
  · obtain ⟨hpath, -, hcontent⟩ := artifact_of_write_mem hsafe hstep
    refine ⟨?_, hcontent⟩
    cases os with
    | macos => rwa [htld rfl] at hpath
    | _ => exact hpath
  · have hremoved := removedPath_of_mem hstep
    rw [removedPaths_configure] at hremoved
    cases hremoved

/-- After a run of `unconfigure-os` no file is marked, if marked files were at the
paths of its TLD. -/
theorem markedAt_unconfigure (hos : os.isSupported = true) (hmem : config.tld ∈ tlds)
    (h : Exec (WorkingRun ps mayLink mayDir (artifactPaths os tlds)) m (unconfigure os config) r m')
    (hmarked : MarkedAt (artifactPaths os [config.tld]) m) : MarkedAt [] m' := by
  obtain ⟨m₁, heffects, hshrinks⟩ := exec_unconfigure hos (planWithin_unconfigure hmem) h
  have hremoved : MarkedAt [] m₁ := by
    refine heffects.markedAt_of_removes
      (fun path content => write_not_mem_unconfigure os _ _ path content) ?_
    rwa [removedPaths_unconfigure, List.append_nil]
  intro place attrs bytes hfile hbytes
  rcases hshrinks.2 place with hsame | ⟨hnone, -⟩
  · rw [hsame] at hfile
    obtain ⟨⟨path, hpath, -⟩, -⟩ := hremoved place attrs bytes hfile hbytes
    cases hpath
  · rw [hnone] at hfile
    cases hfile

/-- A plan without PowerShell commands leaves the rules. -/
theorem Effects.rules_eq {ourIp : Ipv4Addr} {steps : List Step}
    (hps : ∀ command label bucket, .ps command label bucket ∉ steps)
    (hexec : ∀ command, .psExec command ∉ steps) (h : Effects ps ourIp steps m m') :
    m'.rules = m.rules := by
  induction steps generalizing m with
  | nil => rw [h]
  | cons s steps ih =>
      obtain ⟨m₁, heffect, hrest⟩ := h
      have hfirst : m₁.rules = m.rules := by
        cases s with
        | write path content =>
            rcases heffect with ⟨rfl, -⟩ | ⟨_, _, _, _, -, -, -, rfl⟩ <;> rfl
        | removeOurs path =>
            rcases heffect.1 with ⟨rfl, -⟩ | ⟨_, -, -, rfl⟩ <;> rfl
        | exec program args => rw [heffect]
        | ps command label bucket => exact absurd List.mem_cons_self (hps _ _ _)
        | psExec command => exact absurd List.mem_cons_self (hexec _)
        | note msg => rw [heffect]
      rw [← hfirst]
      exact ih (fun _ _ _ hmem => hps _ _ _ (List.mem_cons_of_mem _ hmem))
        (fun _ hmem => hexec _ (List.mem_cons_of_mem _ hmem)) hrest

/-- Away from Windows no plan has PowerShell commands. -/
theorem rules_eq_configure {owner : ResolvOwner} {ip ourIp : Ipv4Addr} {tld : Str}
    (hos : os ≠ .windows) (h : Effects ps ourIp (configureResolverSteps os owner ip tld) m m') :
    m'.rules = m.rules :=
  h.rules_eq (fun _ _ _ hmem => hos (windows_of_ps_mem (psCommands_configure ..) hmem).1)
    fun _ hmem => hos (windows_of_psExec_mem (psExecCommands_configure ..) hmem).1

theorem rules_eq_unconfigure {ip ourIp : Ipv4Addr} {tld : Str} (hos : os ≠ .windows)
    (h : Effects ps ourIp (unconfigureResolverSteps os ip tld) m m') : m'.rules = m.rules :=
  h.rules_eq (fun _ _ _ hmem => hos (windows_of_ps_mem (psCommands_unconfigure ..) hmem).1)
    fun _ hmem => hos (windows_of_psExec_mem (psExecCommands_unconfigure ..) hmem).1

/-- On Windows, `unconfigure-os` removes the rules with a marker. -/
theorem rules_unconfigure_windows (hps : WorkingPowerShell psEq ps) {ip ourIp : Ipv4Addr}
    {tld : Str} (h : Effects ps ourIp (unconfigureResolverSteps .windows ip tld) m m') :
    m'.rules = m.rules.filter fun rule =>
      !(psEq rule.comment marker || psEq rule.comment legacyInstallerMarker) := by
  obtain ⟨m₁, hremove, m₂, hflush, rfl⟩ := h
  rw [hps.flush hflush.2, hps.remove hremove.2]

/-- On macOS, `configure-os` leaves a marked file with the name of its TLD. -/
theorem hasMarkedFile_configure (hvalid : config.validate = .ok ()) (hmem : config.tld ∈ tlds)
    (h : Exec (WorkingRun ps mayLink mayDir (artifactPaths .macos tlds)) m
      (configure .macos config false) r m') : HasMarkedFile config.tld m' := by
  have hsafe := ((Config.validate_eq_ok_iff config).mp hvalid).tld
  obtain ⟨owner, -, heffects⟩ := exec_configure rfl (fun owner => planWithin_configure hsafe hmem) h
  obtain ⟨m₁, -, m₂, -, m₃, -, m₄, -, m₅, -, m₆, hwrite, m₇, rfl, m₈, rfl, rfl⟩ := heffects
  exact hwrite.hasMarkedFile_self (hasMarker_resolverFileContent _) (ne_dots_of_isSafeTld hsafe).2
    (getLast?_macosResolverPath hsafe)

/-- It stays there in a run of `configure-os`, -/
theorem keeps_hasMarkedFile_configure {name : Str} (hos : os.isSupported = true)
    (hvalid : config.validate = .ok ()) (hmem : config.tld ∈ tlds) :
    Keeps (WorkingRun ps mayLink mayDir (artifactPaths os tlds)) (HasMarkedFile name)
      (configure os config false) := by
  intro m r m' h hfile
  have hsafe := ((Config.validate_eq_ok_iff config).mp hvalid).tld
  obtain ⟨owner, -, heffects⟩ := exec_configure hos (fun owner => planWithin_configure hsafe hmem) h
  refine heffects.hasMarkedFile (fun path content hstep => ?_) (fun path hstep => ?_) hfile
  · exact (artifact_of_write_mem hsafe hstep).2.2
  · have hremoved := removedPath_of_mem hstep
    rw [removedPaths_configure] at hremoved
    cases hremoved

/-- and in one of `unconfigure-os` for another TLD. -/
theorem hasMarkedFile_unconfigure {tld : Str} (htld : isSafeTld tld = true)
    (hvalid : config.validate = .ok ()) (hmem : config.tld ∈ tlds) (hne : config.tld ≠ tld)
    (h : Exec (WorkingRun ps mayLink mayDir (artifactPaths .macos tlds)) m
      (unconfigure .macos config) r m') (hfile : HasMarkedFile tld m) : HasMarkedFile tld m' := by
  have hsafe := ((Config.validate_eq_ok_iff config).mp hvalid).tld
  have hdot : ∀ name : Str, '.' ∈ name → name ≠ tld := by
    rintro name hname rfl
    exact not_mem_of_isSafeTld htld (Or.inr rfl) hname
  obtain ⟨m₁, heffects, hshrinks⟩ := exec_unconfigure rfl (planWithin_unconfigure hmem) h
  have hkept : HasMarkedFile tld m₁ := by
    refine heffects.hasMarkedFile (fun path content hstep => ?_) (fun path hstep => ?_) hfile
    · exact absurd hstep (write_not_mem_unconfigure _ _ _ _ _)
    · have hremoved := removedPath_of_mem hstep
      rw [removedPaths_unconfigure] at hremoved
      rcases List.mem_pair.mp hremoved with rfl | rfl
      · exact ⟨"net.dignetwork.dig-dns-lo0.plist".toList, hdot _ (by decide), by decide, by decide⟩
      · exact ⟨config.tld, hne, (ne_dots_of_isSafeTld hsafe).2, getLast?_macosResolverPath hsafe⟩
  refine hshrinks.hasMarkedFile (fun hpolicy => ?_) hkept
  rcases List.mem_pair.mp hpolicy with heq | heq
  · exact hdot _ (by decide) heq.symm
  · exact hdot _ (by decide) heq.symm

/-- Runs of `configure-os` and one of `unconfigure-os`. -/
def uninstall (configs : List Config) (cfg : Config) : List Command :=
  configs.map .configureOs ++ [.unconfigureOs cfg]

theorem isClean_uninstall (hps : WorkingPowerShell psEq ps) (hos : os.isSupported = true)
    {configs : List Config} {cfg : Config} (hvalid : ∀ c ∈ configs, c.validate = .ok ())
    {reports : List Report} (hclean : IsClean m)
    (h : Exec (WorkingRun ps mayLink mayDir (artifactPaths os (cfg.tld :: configs.map Config.tld)))
      m (runCommands os (uninstall configs cfg)) reports m')
    (htld : os = .macos → ∀ c ∈ configs, c.tld = cfg.tld) : IsClean m' := by
  obtain ⟨reports₁, m₁, reports₂, hconfigures, hlast⟩ := exec_runCommands_append h
  obtain ⟨report, hunconfigure⟩ := exec_runCommands_singleton hlast
  -- Marked files are where the removal looks, and no rule is marked away from Windows.
  have hkeeps : Keeps
      (WorkingRun ps mayLink mayDir (artifactPaths os (cfg.tld :: configs.map Config.tld)))
      (fun m => MarkedAt (artifactPaths os [cfg.tld]) m ∧
        (os ≠ .windows → ∀ rule ∈ m.rules, rule.comment ≠ marker))
      (runCommands os (configs.map .configureOs)) := by
    refine keeps_runCommands fun command hcommand => ?_
    obtain ⟨config, hconfig, rfl⟩ := List.mem_map.mp hcommand
    have hmem : config.tld ∈ cfg.tld :: configs.map Config.tld :=
      List.mem_cons_of_mem _ (List.mem_map_of_mem hconfig)
    rintro m r m' hexec ⟨hmarked, hrules⟩
    refine ⟨markedAt_configure hos (hvalid config hconfig) hmem
      (fun hmacos => htld hmacos config hconfig) hexec hmarked, fun hwindows => ?_⟩
    have hsafe := ((Config.validate_eq_ok_iff config).mp (hvalid config hconfig)).tld
    obtain ⟨owner, -, heffects⟩ :=
      exec_configure hos (fun owner => planWithin_configure hsafe hmem) hexec
    rw [rules_eq_configure hwindows heffects]
    exact hrules hwindows
  obtain ⟨hmarked, hrules⟩ := hkeeps hconfigures ⟨fun place attrs bytes hfile hbytes =>
    absurd hbytes (hclean.files place attrs bytes hfile), fun _ => hclean.rules⟩
  constructor
  · intro place attrs bytes hfile hbytes
    obtain ⟨⟨path, hpath, -⟩, -⟩ := markedAt_unconfigure hos List.mem_cons_self hunconfigure hmarked
      place attrs bytes hfile hbytes
    cases hpath
  · obtain ⟨m₂, heffects, hshrinks⟩ :=
      exec_unconfigure hos (planWithin_unconfigure List.mem_cons_self) hunconfigure
    rw [hshrinks.1]
    by_cases hwindows : os = .windows
    · subst hwindows
      intro rule hrule hcomment
      rw [rules_unconfigure_windows hps heffects] at hrule
      have hkept := (List.mem_filter.mp hrule).2
      rw [hcomment, hps.refl] at hkept
      cases hkept
    · rw [rules_eq_unconfigure hwindows heffects]
      exact hrules hwindows

/-- A resolver file of another TLD is left behind. -/
theorem not_isClean_uninstall {configs : List Config} {cfg config : Config}
    (hvalid : ∀ c ∈ configs, c.validate = .ok ()) (hcfg : cfg.validate = .ok ())
    {reports : List Report} (hmem : config ∈ configs) (hne : config.tld ≠ cfg.tld)
    (h : Exec (WorkingRun ps mayLink mayDir
        (artifactPaths .macos (cfg.tld :: configs.map Config.tld)))
      m (runCommands .macos (uninstall configs cfg)) reports m') : ¬IsClean m' := by
  have htlds : ∀ c ∈ configs, c.tld ∈ cfg.tld :: configs.map Config.tld :=
    fun c hc => List.mem_cons_of_mem _ (List.mem_map_of_mem hc)
  have hsafe := ((Config.validate_eq_ok_iff config).mp (hvalid config hmem)).tld
  obtain ⟨reports₁, m₁, reports₂, hconfigures, hlast⟩ := exec_runCommands_append h
  obtain ⟨report, hunconfigure⟩ := exec_runCommands_singleton hlast
  obtain ⟨before, after, hsplit⟩ := List.append_of_mem hmem
  have hafter : ∀ c ∈ after, c ∈ configs := fun c hc => by
    rw [hsplit]
    exact List.mem_append_right _ (List.mem_cons_of_mem _ hc)
  have hcommands : configs.map Command.configureOs = before.map Command.configureOs ++
      ([Command.configureOs config] ++ after.map Command.configureOs) := by
    rw [hsplit, List.map_append, List.map_cons, List.singleton_append]
  rw [hcommands] at hconfigures
  obtain ⟨_, m₂, _, -, hrest⟩ := exec_runCommands_append hconfigures
  obtain ⟨_, m₃, _, hconfig, hafterRuns⟩ := exec_runCommands_append hrest
  obtain ⟨report', hconfigure⟩ := exec_runCommands_singleton hconfig
  have hleft := hasMarkedFile_configure (hvalid config hmem) (htlds config hmem) hconfigure
  have hkeeps : Keeps (WorkingRun ps mayLink mayDir
        (artifactPaths .macos (cfg.tld :: configs.map Config.tld)))
      (HasMarkedFile config.tld) (runCommands .macos (after.map .configureOs)) := by
    refine keeps_runCommands fun command hcommand => ?_
    obtain ⟨c, hc, rfl⟩ := List.mem_map.mp hcommand
    exact keeps_hasMarkedFile_configure rfl (hvalid c (hafter c hc)) (htlds c (hafter c hc))
  obtain ⟨place, attrs, bytes, hfile, hmarked, -⟩ := hasMarkedFile_unconfigure hsafe hcfg
    List.mem_cons_self (Ne.symm hne) hunconfigure (hkeeps hafterRuns hleft)
  exact fun hclean => hclean.files place attrs bytes hfile hmarked

/-- After any runs of `configure-os` and one of `unconfigure-os`, nothing carries the
marker exactly if, on macOS, all of them were for the TLD of the last. -/
theorem runCommands_uninstall_iff (hps : WorkingPowerShell psEq ps) (os : Os)
    (hos : os.isSupported = true) (configs : List Config) (cfg : Config)
    (hvalid : ∀ c ∈ configs, c.validate = .ok ()) (hcfg : cfg.validate = .ok ())
    (m m' : Machine) (reports : List Report) (hclean : IsClean m)
    (h : Exec (WorkingRun ps mayLink mayDir (artifactPaths os (cfg.tld :: configs.map Config.tld)))
      m (runCommands os (uninstall configs cfg)) reports m') :
    IsClean m' ↔ (os = .macos → ∀ c ∈ configs, c.tld = cfg.tld) := by
  refine ⟨?_, isClean_uninstall hps hos hvalid hclean h⟩
  rintro hafter rfl c hc
  by_contra hne
  exact not_isClean_uninstall hvalid hcfg hc hne h hafter

end Runs

/-! ## Two runs -/

/-- A machine without files and rules. -/
def Machine.bare : Machine := ⟨fun _ => none, []⟩

theorem isClean_bare : IsClean Machine.bare where
  files _ _ _ hfile := nomatch hfile
  rules := List.forall_mem_nil _

/-- Another TLD than the default one. -/
def webConfig : Config := { Config.default with tld := "web".toList }

/-- Another address than the default one. -/
def nineConfig : Config := { Config.default with loopbackIp := ⟨127, 0, 0, 9⟩ }

theorem nineConfig_validate : nineConfig.validate = .ok () := by
  decide +kernel

/-- The machine is clean again after two addresses, when the run for the second takes both
back. -/
theorem runCommands_uninstall_readdressed :
    IsClean ((runCommands .macos (uninstall [Config.default, nineConfig] nineConfig)).eval serve
      Machine.bare).2 := by
  have hvalid : ∀ c ∈ [Config.default, nineConfig], c.validate = .ok () := by
    intro c hc
    rcases List.mem_pair.mp hc with rfl | rfl
    · exact default_validate
    · exact nineConfig_validate
  have hrun : Exec (WorkingRun PowerShell.reference (fun _ => True) (fun _ => True)
      (artifactPaths .macos [defaultTld, defaultTld, defaultTld])) Machine.bare
      (runCommands .macos (uninstall [Config.default, nineConfig] nineConfig)) _ _ :=
    exec_serve (by decide +kernel)
  refine (runCommands_uninstall_iff workingPowerShell_reference .macos rfl
    [Config.default, nineConfig] nineConfig hvalid nineConfig_validate Machine.bare _ _
    isClean_bare hrun).mpr ?_
  intro _ c hc
  rcases List.mem_pair.mp hc with rfl | rfl
  · rfl
  · rfl

/-- It is not after the default configuration and `unconfigure-os` for another TLD. -/
theorem runCommands_uninstall_leavesFile :
    ∃ reports m', Exec (WorkingRun PowerShell.reference (fun _ => True) (fun _ => True)
        (artifactPaths .macos [webConfig.tld, defaultTld])) Machine.bare
      (runCommands .macos (uninstall [Config.default] webConfig)) reports m' ∧
      Config.default.validate = .ok () ∧ webConfig.validate = .ok () ∧ IsClean Machine.bare ∧
      ¬IsClean m' := by
  have hfile : ((runCommands .macos (uninstall [Config.default] webConfig)).eval serve
      Machine.bare).2.files (names (macosResolverPath defaultTld)) =
      some (.file rootAttrs (utf8 (resolverFileContent Config.default.loopbackIp))) := by
    decide +kernel
  exact ⟨_, _, exec_serve (by decide +kernel), default_validate, by decide +kernel, isClean_bare,
    fun hclean => hclean.files _ _ _ hfile (hasMarker_resolverFileContent _).marked⟩

/-- A host with `systemd-resolved` whose directory of drop-ins leads, by the path of the other
drop-in, to a directory elsewhere. -/
def linkedHost : Machine where
  files :=
    let dirs := ["/etc/systemd".toList, "/etc/NetworkManager/dnsmasq.d".toList, "/srv".toList]
    let made : FileTree Attrs := dirs.foldl (fun files dir => files.makeDirs rootAttrs (names dir))
      fun _ => none
    ((made.set (names "/etc/systemd/resolved.conf.d".toList) (some (.link linuxNmDnsmasqConf))).set
      (names linuxNmDnsmasqConf) (some (.link "/srv".toList))).set (names "/etc/resolv.conf".toList)
        (some (.link "../run/systemd/resolve/stub-resolv.conf".toList))
  rules := []

-- Where a link stands at the path of an artifact, the run for the other resolver replaces it,
-- and `unconfigure-os` no longer finds what was written by way of it.
example :
    let wired := ((configure .linux Config.default false).eval serve linkedHost).2
    let rewired := ((configure .linux Config.default false).eval serve
      { wired with files := wired.files.set (names "/etc/resolv.conf".toList) none }).2
    ((unconfigure .linux Config.default).eval serve rewired).2.files (names "/srv/dig.conf".toList) =
      some (.file rootAttrs (utf8 (systemdResolvedDropin Config.default.loopbackIp defaultTld))) := by
  decide +kernel

end DigDns.OsConfig
