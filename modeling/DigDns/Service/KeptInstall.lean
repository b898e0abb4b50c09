import DigDns.Service.SafeStaging

/-!
# What a failed staging keeps

The copy that is there is unlinked before the new one is written.  So a run from
the copy itself destroys it, and so does every run that breaks from the unlink
on; a run that breaks before keeps the copy, if it was not reached through a link
in the last place.
-/

namespace DigDns

open Rust Interaction Posix OsConfig

/-- A run that fails keeps the copy that was there, when calls may break before
the unlink of the copy, and from there on if `late`; and when none breaks, there
is a run, and it replaces the copy by the program. -/
structure KeepsInstall (disk : Disk) (exe : Str) (content : List UInt8) (late : Bool) : Prop where
  kept : ∀ e d', Exec (StageAnswers exe fun unlinking => unlinking = true → late = true)
      disk.start stageServiceProgram (.error e) d' →
    ∀ old, disk.files.read (names linuxProgramDest) = some old →
      d'.files.read (names linuxProgramDest) = some old
  returns : ∃ result d', Exec (StageAnswers exe fun _ => False) disk.start stageServiceProgram
    result d'
  replaces : ∀ result d', Exec (StageAnswers exe fun _ => False) disk.start stageServiceProgram
      result d' →
    result = .ok linuxProgramDest ∧ d'.files.read (names linuxProgramDest) = some content

/-- The staging does not run from the copy or from the place of its directory,
nothing that it cannot replace is in the way, and what can be lost is not there. -/
structure StagesSafely (files : FileTree Attrs) (exe : Str) (late : Bool) : Prop where
  notCopy : names exe ≠ names linuxProgramDest
  notLeaf : names exe ≠ names linuxProgramDir
  noDir : ∀ attrs, files (names linuxProgramDest) ≠ some (.dir attrs)
  noFile : ∀ attrs bytes,
    files (names ((parent linuxProgramDir).getD linuxProgramDir)) ≠ some (.file attrs bytes)
  atRisk : ∀ old, files.read (names linuxProgramDest) = some old →
    late = false ∧ ∃ attrs, files (names linuxProgramDir) = some (.dir attrs)

theorem names_linuxPrefix : names ((parent linuxProgramDir).getD linuxProgramDir) = stagePlace 3 := by
  decide

section Runs

variable {disk : Disk} {exe : Str} {content : List UInt8} {mayBreak : Bool → Prop} {d d' : Stage}
  {result : Except IoError Str}

theorem keepsInstall_of_stagesSafely {late : Bool}
    (hexe : StandsAt disk.files (names exe) content) (hsafe : PrefixSafe disk.files)
    (hstages : StagesSafely disk.files exe late) : KeepsInstall disk exe content late := by
  have hfile := hstages.noFile
  rw [names_linuxPrefix] at hfile
  refine ⟨fun e d' h old hold => ?_, ?_, fun result d' h => ?_⟩
  · obtain ⟨rfl, attrs, hdir⟩ := hstages.atRisk old hold
    have hlate : ¬(true = true → false = true) := by decide
    rcases exec_stage_of_safe hexe hsafe hstages.notCopy hstages.notLeaf hstages.noDir hfile
        hlate h with ⟨-, hprepares, -⟩ | ⟨hok, -⟩
    · refine hprepares.files.read disk.isTree ?_ hold
      rw [← names_linuxProgramDir, hdir]
      rfl
    · cases hok
  · exact exists_exec (exists_stageAnswers exe _) disk.start stageServiceProgram
  · rcases exec_stage_of_safe hexe hsafe hstages.notCopy hstages.notLeaf hstages.noDir hfile
        id h with ⟨-, -, hcalm⟩ | hok
    · exact absurd (fun late => id) hcalm
    · exact hok

/-- A staging that succeeds had nothing in its way. -/
theorem nothing_in_way {late : Bool} (h : KeepsInstall disk exe content late) :
    names exe ≠ names linuxProgramDest ∧ names exe ≠ names linuxProgramDir ∧
      (∀ attrs, disk.files (names linuxProgramDest) ≠ some (.dir attrs)) ∧
      ∀ attrs bytes, disk.files (stagePlace 3) ≠ some (.file attrs bytes) := by
  obtain ⟨result, d', hrun⟩ := h.returns
  obtain ⟨rfl, -⟩ := h.replaces _ _ hrun
  rcases exec_stageServiceProgram hrun with ⟨⟨e, herror⟩, -⟩ | ⟨d₁, hprepares, hdown, hreplace⟩
  · cases herror
  rcases exec_replaceProgram id hdown hreplace with ⟨hinto, bytes, hread, -⟩ | ⟨herror, -⟩
  swap
  · exact absurd rfl (herror _)
  have hdown' := hdown.set (m := 5) le_rfl le_rfl none
  refine ⟨fun hcopy => ?_, fun hleaf => ?_, fun attrs hdir => ?_, ?_⟩
  · have hnone : (d₁.files.set (stagePlace 5) none) (stagePlace 5) = none := FileTree.set_self ..
    have hlocate := hdown'.locate_true le_rfl (by rw [hnone]; exact nofun)
    have hlost := FileTree.read_eq_none hlocate (by rw [hnone]; exact nofun)
    rw [hcopy] at hread
    exact absurd (hread.symm.trans hlost) nofun
  · obtain ⟨attrs, hdir, -⟩ := hdown' 4 (by omega)
    have hlocate := (hdown'.mono (show 4 ≤ 5 by omega)).locate_true (by omega)
      (by rw [hdir]; exact nofun)
    have hlost := FileTree.read_eq_none hlocate (by rw [hdir]; exact nofun)
    rw [hleaf] at hread
    exact absurd (hread.symm.trans hlost) nofun
  · rw [Ne, hprepares.copy_into_iff, ← names_linuxProgramDest, hdir] at hinto
    exact hinto rfl
  · exact fun attrs bytes => hdown.not_fileInPrefix hprepares

/-- Past something that is neither a directory nor a link, there is no copy. -/
theorem SafeDown.read_below {files : FileTree Attrs} {n : Nat} (hdown : SafeDown files (n + 1))
    (hn : n + 1 < 5) (hstop : onward (files (stagePlace (n + 1))) = .stop) :
    files.read (names linuxProgramDest) = none := by
  have hlocate : files.locate true (names linuxProgramDest) = none :=
    hdown.locate_below le_rfl hn hstop true
  rw [FileTree.read, hlocate]
  rfl

/-- A copy that can be read lies below directories, and the last may be a link. -/
theorem leaf_of_read {old : List UInt8} (hsafe : PrefixSafe disk.files)
    (hold : disk.files.read (names linuxProgramDest) = some old) :
    SafeDown disk.files 4 ∧ ((∃ attrs, disk.files (stagePlace 4) = some (.dir attrs)) ∨
      ∃ target, disk.files (stagePlace 4) = some (.link target)) := by
  have hdown : SafeDown disk.files 4 := by
    rcases hsafe with hdown | ⟨n, hn, hdown, hnone⟩ | ⟨hdown, attrs, bytes, hfile, -⟩
    · exact hdown
    · rw [hdown.read_below (by omega) (by rw [hnone]; rfl)] at hold
      cases hold
    · rw [hdown.read_below (by omega) (by rw [hfile]; rfl)] at hold
      cases hold
  refine ⟨hdown, ?_⟩
  cases hnode : disk.files (stagePlace 4) with
  | none =>
      rw [hdown.read_below (by omega) (by rw [hnode]; rfl)] at hold
      cases hold
  | some node =>
      cases node with
      | dir attrs => exact Or.inl ⟨attrs, rfl⟩
      | link target => exact Or.inr ⟨target, rfl⟩
      | file attrs bytes =>
          rw [hdown.read_below (by omega) (by rw [hnode]; rfl)] at hold
          cases hold

theorem StageAnswers.mono {mayBreak' : Bool → Prop} (hmay : ∀ late, mayBreak late → mayBreak' late)
    (d : Stage) (q : StageCall) (answer : StageAnswer q) (d' : Stage)
    (h : StageAnswers exe mayBreak d q answer d') : StageAnswers exe mayBreak' d q answer d' := by
  obtain ⟨d₁, hworks | ⟨hlate, hbreaks⟩, rfl⟩ := h
  · exact ⟨d₁, Or.inl hworks, rfl⟩
  · exact ⟨d₁, Or.inr ⟨hmay _ hlate, hbreaks⟩, rfl⟩

variable (mayBreak) in
/-- Where calls may break from the unlink on, a run can lose the copy. -/
theorem exists_lost_late (hlate : mayBreak true) (hsafe : PrefixSafe disk.files)
    (hdir : ∀ attrs, disk.files (names linuxProgramDest) ≠ some (.dir attrs))
    (hfile : ∀ attrs bytes, disk.files (stagePlace 3) ≠ some (.file attrs bytes)) :
    ∃ e d', Exec (StageAnswers exe mayBreak) disk.start stageServiceProgram (.error e) d' ∧
      d'.files.read (names linuxProgramDest) = none := by
  have hstrict : ∀ d q answer d', StageAnswers exe (fun _ => False) d q answer d' →
      StageAnswers exe mayBreak d q answer d' := StageAnswers.mono fun _ => False.elim
  have hexe : StageAnswers exe (fun _ => False) disk.start .currentExe (.ok exe) disk.start :=
    stageAnswers_of StageCall.noConfusion (Or.inl ⟨rfl, rfl⟩)
  obtain ⟨answer, d, hprepare⟩ := exists_exec (exists_stageAnswers exe fun _ => False)
    disk.start prepareProgramDir
  obtain ⟨hprepares, hok, herror⟩ := exec_prepareProgramDir hprepare
  have hready : answer = .ok () := by
    by_contra hne
    obtain ⟨attrs, bytes, hnode, -⟩ := herror hne (fun _ => id) hsafe
    exact hfile attrs bytes hnode
  subst hready
  obtain ⟨answer, d₁, hunlink⟩ := exists_stageAnswers exe (fun _ => False) d
    (.removeFile linuxProgramDest)
  rcases exec_unlinkCopy id (hok rfl) (exec_query_iff.mpr hunlink) with ⟨-, rfl⟩ | ⟨hinto, -⟩
  swap
  · obtain ⟨attrs, hnode⟩ := onward_eq_into_iff.mp (hprepares.copy_into_iff.mp hinto)
    rw [← names_linuxProgramDest] at hnode
    exact absurd hnode (hdir attrs)
  have hdown := (hok rfl).set (m := 5) le_rfl le_rfl none
  have hnone : (d.files.set (stagePlace 5) none) (stagePlace 5) = none := FileTree.set_self ..
  have hlocate := hdown.locate_true le_rfl (by rw [hnone]; exact nofun)
  have hlost := FileTree.read_eq_none hlocate (by rw [hnone]; exact nofun)
  -- The copy fails at once.
  refine ⟨⟨.other, []⟩, { d with files := d.files.set (stagePlace 5) none, unlinking := true },
    exec_andThen_iff.mpr (Or.inr ⟨exe, disk.start, exec_query_iff.mpr (hstrict _ _ _ _ hexe), ?_⟩),
    hlost⟩
  refine exec_andThen_iff.mpr (Or.inr ⟨(), d, hprepare.mono hstrict, ?_⟩)
  refine exec_bind_iff.mpr ⟨answer, _, exec_query_iff.mpr (hstrict _ _ _ _ hunlink), ?_⟩
  refine exec_andThen_iff.mpr (Or.inl ⟨_, exec_query_iff.mpr ?_, rfl⟩)
  exact stageAnswers_of StageCall.noConfusion (Or.inr ⟨hlate, nofun, Or.inl rfl⟩)

variable (mayBreak) in
/-- Where calls may break before the unlink of the copy, a run can lose one that is
reached through a link in the last place. -/
theorem exists_lost_early (hearly : mayBreak false) (hdown : SafeDown disk.files 4)
    {target : List Char} (hlink : disk.files (stagePlace 4) = some (.link target))
    (hpre : Exec (StageAnswers exe fun _ => False) disk.start
      (ensurePrefixRootOwnedNotWritable ((parent linuxProgramDir).getD linuxProgramDir)) (.ok ())
      disk.start) :
    ∃ e d', Exec (StageAnswers exe mayBreak) disk.start stageServiceProgram (.error e) d' ∧
      d'.files.read (names linuxProgramDest) = none := by
  have hother : StageCall.removeFile linuxProgramDir ≠ .removeFile linuxProgramDest := by decide
  have hremove : disk.files.removeFile (names linuxProgramDir) =
      some (disk.files.set (stagePlace 4) none) :=
    FileTree.removeFile_of_not_into (hdown.locate (by omega)) hlink Onward.noConfusion
  have hdown' := hdown.set (m := 4) (by omega) le_rfl none
  have hnone : (disk.files.set (stagePlace 4) none) (stagePlace 4) = none := FileTree.set_self ..
  have hpresent : disk.files.isPresent (names (stagePath 3)) = true := by
    obtain ⟨attrs, hdir, -⟩ := hdown 3 (by omega)
    rw [(hdown.mono (show 3 ≤ 4 by omega)).isPresent (by omega) (by rw [hdir]; exact fun _ => by simp), hdir,
      Option.isSome_some, Bool.or_true]
  have hlstat : LstatAnswers disk.files (names (stagePath 4)) (.ok ⟨0, 0o777, .symlink⟩) := by
    rw [hdown.lstat_iff (by omega), hlink]
    exact ⟨rfl, rfl⟩
  -- The link is unlinked, and no directory can be made in its place.
  refine ⟨⟨.other, []⟩, { disk.start with files := disk.files.set (stagePlace 4) none },
    exec_andThen_iff.mpr (Or.inr ⟨exe, disk.start, exec_query_iff.mpr ?_, ?_⟩),
    hdown'.read_below (by omega) (by rw [hnone]; rfl)⟩
  · exact stageAnswers_of StageCall.noConfusion (Or.inl ⟨rfl, rfl⟩)
  refine exec_andThen_iff.mpr (Or.inl ⟨_, ?_, rfl⟩)
  refine exec_andThen_iff.mpr (Or.inr ⟨(), disk.start,
    hpre.mono (StageAnswers.mono fun _ => False.elim), ?_⟩)
  refine exec_andThen_iff.mpr (Or.inr ⟨(), disk.start, ?_, ?_⟩)
  · have htarget : (parent linuxProgramDir).getD linuxProgramDir = stagePath 3 := by decide
    rw [createMissingIntermediates, htarget]
    refine exec_bind_iff.mpr ⟨true, disk.start, exec_query_iff.mpr ?_, .ret _ _⟩
    exact stageAnswers_of StageCall.noConfusion (Or.inl ⟨hpresent.symm, rfl⟩)
  refine exec_andThen_iff.mpr (Or.inl ⟨_, ?_, rfl⟩)
  refine exec_bind_iff.mpr ⟨.ok ⟨0, 0o777, .symlink⟩, disk.start, exec_query_iff.mpr ?_, ?_⟩
  · exact stageAnswers_of StageCall.noConfusion (Or.inl ⟨hlstat, rfl⟩)
  refine exec_andThen_iff.mpr (Or.inr ⟨(), _, exec_query_iff.mpr (stageAnswers_of hother
    (Or.inl ?_)), exec_query_iff.mpr (stageAnswers_of StageCall.noConfusion
    (Or.inr ⟨hearly, by simp, rfl⟩))⟩)
  simp only [Works, Disk.start, hremove, and_self]

/-- A staging keeps the install that works, when it runs from elsewhere, nothing is
in its way, and what can be lost is not there. -/
theorem stageServiceProgram_keepsInstall_iff (disk : Disk) (exe : Str) (content : List UInt8)
    (late : Bool) (hexe : StandsAt disk.files (names exe) content)
    (hpre : Exec (StageAnswers exe fun _ => False) disk.start
      (ensurePrefixRootOwnedNotWritable ((parent linuxProgramDir).getD linuxProgramDir)) (.ok ())
      disk.start) :
    KeepsInstall disk exe content late ↔ StagesSafely disk.files exe late := by
  obtain ⟨-, ⟨-, hsafe⟩ | ⟨herror, -⟩⟩ := exec_ensurePrefix disk.isTree hpre
  swap
  · exact absurd rfl herror
  refine ⟨fun h => ?_, keepsInstall_of_stagesSafely hexe hsafe⟩
  obtain ⟨hcopy, hleaf, hdir, hfile⟩ := nothing_in_way h
  refine ⟨hcopy, hleaf, hdir, by rwa [names_linuxPrefix], fun old hold => ⟨?_, ?_⟩⟩
  · cases late with
    | false => rfl
    | true =>
        obtain ⟨e, d', hrun, hlost⟩ :=
          exists_lost_late (fun unlinking => unlinking = true → true = true)
            (fun _ => rfl) hsafe hdir hfile
        rw [h.kept e d' hrun old hold] at hlost
        cases hlost
  · obtain ⟨hdown, hleafDir | ⟨target, hlink⟩⟩ := leaf_of_read hsafe hold
    · rwa [names_linuxProgramDir]
    · obtain ⟨e, d', hrun, hlost⟩ :=
        exists_lost_early (fun unlinking => unlinking = true → late = true)
          nofun hdown hlink hpre
      rw [h.kept e d' hrun old hold] at hlost
      cases hlost

/-- A program that was downloaded replaces the copy. -/
theorem stageServiceProgram_keepsInstall_download :
    StandsAt installedDisk.files (names "/dig-dns".toList) [2] ∧
      KeepsInstall installedDisk "/dig-dns".toList [2] false := by
  have hcopy : installedDisk.files (names linuxProgramDest) = some (.file ⟨0, 0o755⟩ [1]) := by
    decide
  have hpre : installedDisk.files (names ((parent linuxProgramDir).getD linuxProgramDir)) =
      some (.dir ⟨0, 0o755⟩) := by
    decide
  refine ⟨standsAt_download, (stageServiceProgram_keepsInstall_iff installedDisk _ [2] false
    standsAt_download (exec_ensurePrefix_of_safe _ (Or.inl installedDisk_safeDown))).mpr ?_⟩
  refine ⟨by decide, by decide, by rw [hcopy]; exact nofun, by rw [hpre]; exact nofun, ?_⟩
  exact fun old _ => ⟨rfl, ⟨0, 0o755⟩, by decide⟩

/-- An install from the copy itself fails, though no call breaks, and loses it. -/
theorem stageServiceProgram_losesItself :
    StandsAt installedDisk.files (names linuxProgramDest) [1] ∧
      (∃ e d', Exec (StageAnswers linuxProgramDest fun _ => False) installedDisk.start
        stageServiceProgram (.error e) d' ∧ d'.files.read (names linuxProgramDest) = none) ∧
      ¬KeepsInstall installedDisk linuxProgramDest [1] false := by
  refine ⟨standsAt_copy, ?_, fun h => (nothing_in_way h).1 rfl⟩
  obtain ⟨result, d', hrun⟩ := exists_exec (exists_stageAnswers linuxProgramDest fun _ => False)
    installedDisk.start stageServiceProgram
  have hcopy : installedDisk.files (stagePlace 5) = some (.file ⟨0, 0o755⟩ [1]) := by
    decide
  have hpre : installedDisk.files (stagePlace 3) = some (.dir ⟨0, 0o755⟩) := by
    decide
  rcases exec_stageServiceProgram hrun with ⟨-, -, hfile⟩ | ⟨d, hprepares, hdown, hreplace⟩
  · obtain ⟨attrs, bytes, hnode, -⟩ := hfile (fun _ => id) (Or.inl installedDisk_safeDown)
    rw [hpre] at hnode
    cases hnode
  have hdown' := hdown.set (m := 5) le_rfl le_rfl none
  have hnone : (d.files.set (stagePlace 5) none) (stagePlace 5) = none := FileTree.set_self ..
  have hlocate := hdown'.locate_true le_rfl (by rw [hnone]; exact nofun)
  have hlost := FileTree.read_eq_none hlocate (by rw [hnone]; exact nofun)
  rcases exec_replaceProgram id hdown hreplace with
    ⟨-, bytes, hread, -⟩ | ⟨herror, -, hinto | ⟨-, hfiles⟩⟩
  · exact absurd (hread.symm.trans hlost) nofun
  · rw [hprepares.copy_into_iff, hcopy] at hinto
    cases hinto
  · cases result with
    | ok dest => exact absurd rfl (herror dest)
    | error e => exact ⟨e, d', hrun, by rw [hfiles]; exact hlost⟩

end Runs

end DigDns
