import DigDns.Service.Prepare

/-!
# Staging is safe

Whatever stands at the places of the staging path, a run that succeeds leaves a
chain of directories and a program that are root's, and every run acts only on
what it made itself, on the last directory and on the copy.
-/

namespace DigDns

open Rust Interaction Posix OsConfig

variable {exe : Str} {mayBreak : Bool → Prop} {d d' : Stage}

/-! ## Replacing the copy -/

theorem names_linuxProgramDest : names linuxProgramDest = stagePlace 5 := names_stagePath 5 le_rfl

theorem names_linuxProgramDir : names linuxProgramDir = stagePlace 4 :=
  names_stagePath 4 (by omega)

theorem stagePlace_five_ne_nil : stagePlace 5 ≠ [] := by
  decide

/-- Where no call breaks, a call works. -/
theorem works_of_calm {q : StageCall} {answer : StageAnswer q} (hcalm : ¬mayBreak d.unlinking)
    (hq : q ≠ .removeFile linuxProgramDest)
    (h : Exec (StageAnswers exe mayBreak) d (stageCall q) answer d') : Works exe d q answer d' :=
  (stageAnswers_cases (exec_query_iff.mp h) hq).resolve_right fun hbreaks => hcalm hbreaks.1

/-- After the unlink nothing stands at the place of the copy, unless a directory did. -/
theorem exec_unlinkCopy {answer : Except IoError Unit} (hlate : ¬mayBreak true)
    (hdown : SafeDown d.files 5)
    (h : Exec (StageAnswers exe mayBreak) d (stageCall (.removeFile linuxProgramDest)) answer d') :
    (onward (d.files (stagePlace 5)) ≠ .into ∧
        d' = { d with files := d.files.set (stagePlace 5) none, unlinking := true }) ∨
      (onward (d.files (stagePlace 5)) = .into ∧ d' = { d with unlinking := true }) := by
  obtain ⟨d₁, hanswer, rfl⟩ := exec_query_iff.mp h
  have his : d.isLate (.removeFile linuxProgramDest) = true := by
    rw [Stage.isLate, decide_eq_true rfl, Bool.or_true]
  rw [his] at hanswer ⊢
  have hworks := hanswer.resolve_right fun hbreaks => hlate hbreaks.1
  have hlocate : d.files.locate false (names linuxProgramDest) = some (stagePlace 5) :=
    hdown.locate le_rfl
  cases hnode : d.files (stagePlace 5) with
  | none =>
      have hremove : d.files.removeFile (names linuxProgramDest) = none := by
        simp [FileTree.removeFile, FileTree.leaf, hlocate, hnode]
      have hsame : d.files.set (stagePlace 5) none = d.files :=
        Function.update_eq_self_iff.mpr hnode.symm
      simp only [Works, hremove] at hworks
      refine Or.inl ⟨Onward.noConfusion, ?_⟩
      rw [hworks.2, hsame]
  | some node =>
      by_cases hinto : onward (some node) = .into
      · have hremove : d.files.removeFile (names linuxProgramDest) = none := by
          cases node with
          | dir attrs => simp [FileTree.removeFile, FileTree.leaf, hlocate, hnode]
          | _ => cases hinto
        simp only [Works, hremove] at hworks
        exact Or.inr ⟨hinto, by rw [hworks.2]⟩
      · simp only [Works, FileTree.removeFile_of_not_into hlocate hnode hinto] at hworks
        exact Or.inl ⟨hinto, by rw [hworks.2]⟩

/-- A copy to a free place makes a file, if its source can be read. -/
theorem exec_copy_vacant {answer : Except IoError Unit} {source : Str}
    (hcalm : ¬mayBreak d.unlinking) (hdown : SafeDown d.files 5)
    (hnone : d.files (stagePlace 5) = none)
    (h : Exec (StageAnswers exe mayBreak) d (stageCall (.copy source linuxProgramDest)) answer d') :
    (∃ bytes mode, d.files.read (names source) = some bytes ∧ answer = .ok () ∧
        d' = d.act .wrote 5 (.file ⟨0, mode⟩ bytes)) ∨
      (d.files.read (names source) = none ∧ answer ≠ .ok () ∧ d' = d) := by
  have hlink : ∀ target, d.files (stagePlace 5) ≠ some (.link target) := by
    rw [hnone]
    exact nofun
  have htrue : d.files.locate true (names linuxProgramDest) = some (stagePlace 5) :=
    hdown.locate_true le_rfl hlink
  obtain ⟨mode, hchanges⟩ := works_of_calm hcalm StageCall.noConfusion h
  have hcopied : copied d.files (names source) (names linuxProgramDest) =
      d.files.read (names source) := by
    rw [copied]
    split
    · rename_i hsame
      have hread : d.files.read (names source) = none := by
        simp [FileTree.read, hsame, htrue, hnone]
      rw [hread]
      rfl
    · rfl
  rw [hcopied] at hchanges
  cases hread : d.files.read (names source) with
  | none =>
      rw [hread] at hchanges
      exact Or.inr ⟨rfl, hchanges⟩
  | some bytes =>
      have hwrite : copyTo d.files mode bytes (names linuxProgramDest) =
          some (d.files.set (stagePlace 5) (some (.file ⟨0, mode⟩ bytes))) := by
        simp [copyTo, writeAt, htrue, hnone, stagePlace_five_ne_nil]
      rw [hread, Option.bind_some, hwrite] at hchanges
      refine Or.inl ⟨bytes, mode, rfl, hchanges.1, hchanges.2.trans ?_⟩
      exact touch_eq_act hdown le_rfl hlink

/-- There is no copy to a directory. -/
theorem exec_copy_dir {answer : Except IoError Unit} {source : Str} (hcalm : ¬mayBreak d.unlinking)
    (hdown : SafeDown d.files 5) (hdir : onward (d.files (stagePlace 5)) = .into)
    (h : Exec (StageAnswers exe mayBreak) d (stageCall (.copy source linuxProgramDest)) answer d') :
    answer ≠ .ok () ∧ d' = d := by
  obtain ⟨mode, hchanges⟩ := works_of_calm hcalm StageCall.noConfusion h
  cases hnode : d.files (stagePlace 5) with
  | none =>
      rw [hnode] at hdir
      cases hdir
  | some node =>
      rw [hnode] at hdir
      cases node with
      | dir attrs =>
          have htrue : d.files.locate true (names linuxProgramDest) = some (stagePlace 5) :=
            hdown.locate_true le_rfl (by rw [hnode]; exact nofun)
          have hwrite : ∀ bytes, copyTo d.files mode bytes (names linuxProgramDest) = none := by
            intro bytes
            simp [copyTo, writeAt, htrue, hnode]
          simp only [hwrite, Option.bind_fun_none] at hchanges
          exact hchanges
      | _ => cases hdir

/-- An entry that is root's passes the last check. -/
theorem exec_ensureRootOwned {result : Except IoError Unit} {n : Nat} (hn : n ≤ 5)
    (hdown : SafeDown d.files n) (hcalm : ¬mayBreak d.unlinking)
    (hsafe : ∃ attrs, rootOwnedNotWritable attrs.uid attrs.mode = true ∧
      (d.files (stagePlace n) = some (.dir attrs) ∨
        ∃ bytes, d.files (stagePlace n) = some (.file attrs bytes)))
    (h : Exec (StageAnswers exe mayBreak) d (ensureRootOwnedNotWritable (stagePath n))
      result d') : result = .ok () ∧ d' = d := by
  obtain ⟨attrs, howned, hnode⟩ := hsafe
  have hanswer : ∀ {answer d₁}, Exec (StageAnswers exe mayBreak) d
      (stageCall (.lstat (stagePath n))) answer d₁ →
      ∃ stat, answer = .ok stat ∧ d₁ = d ∧ rootOwnedNotWritable stat.uid stat.mode = true := by
    intro answer d₁ hcall
    obtain ⟨rfl, hlstat⟩ := stageAnswers_lstat (exec_query_iff.mp hcall)
    have hsees := (hdown.lstat_iff hn _).mp (hlstat.resolve_right fun hbreaks => hcalm hbreaks.1)
    cases answer with
    | error e =>
        rcases hnode with hdir | ⟨bytes, hfile⟩
        · rw [hdir] at hsees
          cases hsees.1
        · rw [hfile] at hsees
          cases hsees.1
    | ok stat =>
        refine ⟨stat, rfl, rfl, ?_⟩
        rcases hnode with hdir | ⟨bytes, hfile⟩
        · rw [hdir] at hsees
          obtain rfl := hsees
          exact howned
        · rw [hfile] at hsees
          obtain rfl := hsees
          exact howned
  rcases exec_andThen_iff.mp h with ⟨e, hcall, rfl⟩ | ⟨stat, d₁, hcall, hrest⟩
  · obtain ⟨stat, herror, -⟩ := hanswer hcall
    cases herror
  · obtain ⟨stat, hok, rfl, howned⟩ := hanswer hcall
    cases hok
    simp only [howned, if_true] at hrest
    exact exec_ret_iff.mp hrest

/-- The file that a staging leaves. -/
def stagedFile (bytes : List UInt8) : Node Attrs := .file ⟨0, 0o755⟩ bytes

section Own

variable {answer : Except IoError Unit} {attrs : Attrs} {bytes : List UInt8}

theorem exec_chownCopy (hdown : SafeDown d.files 5) (hcalm : ¬mayBreak d.unlinking)
    (hfile : d.files (stagePlace 5) = some (.file attrs bytes))
    (h : Exec (StageAnswers exe mayBreak) d (stageCall (.chown linuxProgramDest)) answer d') :
    answer = .ok () ∧ d' = d.act .chowned 5 (.file ⟨0, attrs.mode⟩ bytes) := by
  have hworks := works_of_calm hcalm StageCall.noConfusion h
  exact changes_setAttrs_file (n := 5) hdown le_rfl hfile hworks

theorem exec_setModeCopy (hdown : SafeDown d.files 5) (hcalm : ¬mayBreak d.unlinking) {mode : Nat}
    (hfile : d.files (stagePlace 5) = some (.file attrs bytes))
    (h : Exec (StageAnswers exe mayBreak) d (stageCall (.setMode linuxProgramDest mode))
      answer d') : answer = .ok () ∧ d' = d.act .chmodded 5 (.file ⟨attrs.uid, mode⟩ bytes) := by
  have hworks := works_of_calm hcalm StageCall.noConfusion h
  exact changes_setAttrs_file (n := 5) hdown le_rfl hfile hworks

end Own

/-- Once there is a copy, no call can go wrong. -/
theorem exec_ownCopy {result : Except IoError Str} {attrs : Attrs} {bytes : List UInt8}
    (hdown : SafeDown d.files 5) (hcalm : ¬mayBreak d.unlinking)
    (hfile : d.files (stagePlace 5) = some (.file attrs bytes))
    (h : Exec (StageAnswers exe mayBreak) d
      ((stageCall (.chown linuxProgramDest)).andThen
        fun _ => (stageCall (.setMode linuxProgramDest 0o755)).andThen
        fun _ => (ensureRootOwnedNotWritable linuxProgramDir).andThen
        fun _ => (ensureRootOwnedNotWritable linuxProgramDest).andThen
        fun _ => return .ok linuxProgramDest) result d') :
    result = .ok linuxProgramDest ∧
      d' = (d.act .chowned 5 (.file ⟨0, attrs.mode⟩ bytes)).act .chmodded 5 (stagedFile bytes) := by
  have hrest₁ := exec_andThen_of_ok (fun _ _ => exec_chownCopy hdown hcalm hfile) h
  have hdown₁ := hdown.act le_rfl .chowned (.file ⟨0, attrs.mode⟩ bytes)
  have hrest₂ := exec_andThen_of_ok
    (fun _ _ => exec_setModeCopy hdown₁ hcalm (Stage.act_self ..)) hrest₁
  have hdown₂ := hdown₁.act le_rfl .chmodded (stagedFile bytes)
  obtain ⟨above, hdir, howned⟩ := hdown₂ 4 (by omega)
  have hrest₃ := exec_andThen_of_ok (fun _ _ => exec_ensureRootOwned (n := 4) (by omega)
    (hdown₂.mono (by omega)) hcalm ⟨above, howned, Or.inl hdir⟩) hrest₂
  have hrest₄ := exec_andThen_of_ok (fun _ _ => exec_ensureRootOwned (n := 5) le_rfl
    hdown₂ hcalm ⟨⟨0, 0o755⟩, by decide, Or.inr ⟨bytes, Stage.act_self ..⟩⟩) hrest₃
  exact exec_ret_iff.mp hrest₄

/-- The copy is replaced, if the program can still be read after the unlink and no
directory is in its place; else only the unlink is done. -/
theorem exec_replaceProgram {source : Str} {result : Except IoError Str} (hlate : ¬mayBreak true)
    (hdown : SafeDown d.files 5)
    (h : Exec (StageAnswers exe mayBreak) d (replaceProgram source) result d') :
    (onward (d.files (stagePlace 5)) ≠ .into ∧ ∃ bytes,
        (d.files.set (stagePlace 5) none).read (names source) = some bytes ∧
        result = .ok linuxProgramDest ∧
        d'.files = d.files.set (stagePlace 5) (some (stagedFile bytes)) ∧
        d'.touched = d.touched ++ [⟨.wrote, stagePlace 5, true⟩, ⟨.chowned, stagePlace 5, true⟩,
          ⟨.chmodded, stagePlace 5, true⟩]) ∨
      ((∀ dest, result ≠ .ok dest) ∧ d'.touched = d.touched ∧
        (onward (d.files (stagePlace 5)) = .into ∨
          (d.files.set (stagePlace 5) none).read (names source) = none ∧
            d'.files = d.files.set (stagePlace 5) none)) := by
  obtain ⟨answer, d₁, hunlink, hrest⟩ := exec_bind_iff.mp h
  rcases exec_unlinkCopy hlate hdown hunlink with ⟨hinto, rfl⟩ | ⟨hinto, rfl⟩
  · have hdown₁ := hdown.set (m := 5) le_rfl le_rfl none
    have hnone : (d.files.set (stagePlace 5) none) (stagePlace 5) = none := FileTree.set_self ..
    rcases exec_andThen_iff.mp hrest with ⟨e, hcopy, rfl⟩ | ⟨⟨⟩, d₂, hcopy, hrest⟩
    · rcases exec_copy_vacant hlate hdown₁ hnone hcopy with ⟨_, _, -, hok, -⟩ | ⟨hread, -, rfl⟩
      · cases hok
      · exact Or.inr ⟨nofun, rfl, Or.inr ⟨hread, rfl⟩⟩
    obtain ⟨bytes, mode, hread, -, rfl⟩ :=
      (exec_copy_vacant hlate hdown₁ hnone hcopy).resolve_right fun hno => hno.2.1 rfl
    have hdown₂ := hdown₁.set (m := 5) le_rfl le_rfl (some (.file ⟨0, mode⟩ bytes))
    have hfile₂ : ((d.files.set (stagePlace 5) none).set (stagePlace 5)
        (some (.file ⟨0, mode⟩ bytes))) (stagePlace 5) = some (.file ⟨0, mode⟩ bytes) :=
      FileTree.set_self ..
    obtain ⟨rfl, rfl⟩ := exec_ownCopy hdown₂ hlate hfile₂ hrest
    refine Or.inl ⟨hinto, bytes, hread, rfl, ?_, ?_⟩
    · simp only [Stage.act_files, FileTree.set_set]
    · simp only [Stage.act_touched, List.append_assoc, List.cons_append, List.nil_append]
  · rcases exec_andThen_iff.mp hrest with ⟨e, hcopy, rfl⟩ | ⟨⟨⟩, d₂, hcopy, hrest⟩
    · obtain ⟨-, rfl⟩ := exec_copy_dir (d := { d with unlinking := true }) hlate hdown hinto hcopy
      exact Or.inr ⟨nofun, rfl, Or.inl hinto⟩
    · have herror := (exec_copy_dir (d := { d with unlinking := true }) hlate hdown hinto hcopy).1
      exact absurd rfl herror

/-! ## Progress -/

theorem exists_changes (d : Stage) (action : Action) (follow : Bool) (path : Names)
    (files : Option (FileTree Attrs)) :
    ∃ answer d', Changes d action follow path files answer d' := by
  cases files with
  | none => exact ⟨.error ⟨.other, []⟩, d, nofun, rfl⟩
  | some files => exact ⟨.ok (), d.touch action follow path files, rfl, rfl⟩

theorem exists_metadata (node : Node Attrs) : ∃ stat, MetadataOf (some node) stat := by
  cases node with
  | file attrs bytes => exact ⟨_, rfl⟩
  | dir attrs => exact ⟨_, rfl⟩
  | link target => exact ⟨⟨0, 0o777, .symlink⟩, rfl, rfl⟩

theorem exists_lstatAnswers (files : FileTree Attrs) (path : Names) :
    ∃ answer, LstatAnswers files path answer := by
  cases hlocate : files.locate false path with
  | some place =>
      cases hnode : files place with
      | none => exact ⟨.error ⟨.notFound, []⟩, by simp [LstatAnswers, hlocate, hnode]⟩
      | some node =>
          obtain ⟨stat, hstat⟩ := exists_metadata node
          exact ⟨.ok stat, place, hlocate, hnode ▸ hstat⟩
  | none =>
      cases hfirst : (files.firstNonDir [] path).bind files with
      | none => exact ⟨.error ⟨.notFound, []⟩, by simp [LstatAnswers, hlocate, hfirst]⟩
      | some node =>
          cases node with
          | file attrs bytes =>
              exact ⟨.error ⟨.other, []⟩, by simp [LstatAnswers, hlocate, hfirst]⟩
          | _ => exact ⟨.error ⟨.notFound, []⟩, by simp [LstatAnswers, hlocate, hfirst]⟩

/-- Every call can work. -/
theorem exists_works (exe : Str) (d : Stage) (q : StageCall) :
    ∃ answer d', Works exe d q answer d' := by
  cases q with
  | currentExe => exact ⟨.ok exe, d, rfl, rfl⟩
  | lstat path =>
      obtain ⟨answer, hanswer⟩ := exists_lstatAnswers d.files (names path)
      exact ⟨answer, d, hanswer, rfl⟩
  | pathExists path => exact ⟨_, d, rfl, rfl⟩
  | createDir path =>
      obtain ⟨answer, d', hchanges⟩ := exists_changes d .created false (names path)
        (d.files.mkdir ⟨0, 0o755⟩ (names path))
      exact ⟨answer, d', 0o755, hchanges⟩
  | chown path => exact exists_changes ..
  | setMode path mode => exact exists_changes ..
  | removeFile path =>
      simp only [Works]
      cases d.files.removeFile (names path) with
      | none => exact ⟨.error ⟨.other, []⟩, d, by simp, rfl⟩
      | some files => exact ⟨.ok (), { d with files }, rfl, rfl⟩
  | copy source target =>
      obtain ⟨answer, d', hchanges⟩ := exists_changes d .wrote true (names target)
        ((copied d.files (names source) (names target)).bind
          fun bytes => copyTo d.files 0o644 bytes (names target))
      exact ⟨answer, d', 0o644, hchanges⟩

theorem exists_stageAnswers (exe : Str) (mayBreak : Bool → Prop) (d : Stage) (q : StageCall) :
    ∃ answer d', StageAnswers exe mayBreak d q answer d' := by
  obtain ⟨answer, d', hworks⟩ := exists_works exe d q
  exact ⟨answer, _, d', Or.inl hworks, rfl⟩

/-! ## What readying the directory keeps -/

/-- A regular file with these bytes stands at its own path, below directories. -/
def StandsAt (files : FileTree Attrs) (path : Names) (content : List UInt8) : Prop :=
  ['.', '.'] ∉ path ∧ files.HasDirs path ∧ ∃ attrs, files path = some (.file attrs content)

theorem onward_eq_into_iff {node : Option (Node Attrs)} :
    onward node = .into ↔ ∃ attrs, node = some (.dir attrs) := by
  cases node with
  | none => simp [onward]
  | some node => cases node <;> simp [onward]

section Frames

variable {before after : FileTree Attrs} {path : Names} {content : List UInt8}

theorem StandsAt.read (h : StandsAt before path content) : before.read path = some content := by
  obtain ⟨hdots, hdirs, attrs, hfile⟩ := h
  exact FileTree.read_of_locate (FileTree.locate_of_hasDirs hdots hdirs) hfile

/-- Readying the directory keeps every file but one in the last place. -/
theorem StandsAt.prepared (h : StandsAt before path content) (hpath : path ≠ stagePlace 4)
    (hprepared : Prepared before after) : StandsAt after path content := by
  obtain ⟨hdots, hdirs, attrs, hfile⟩ := h
  refine ⟨hdots, fun dir hdir hne hproper => ?_, attrs, ?_⟩
  · have hinto := hdirs dir hdir hne hproper
    rcases hprepared dir with hsame | ⟨-, hnone, -⟩ | ⟨-, hkept⟩
    · rw [hsame, hinto]
    · rw [hnone] at hinto
      cases hinto
    · exact hkept hinto
  · rcases hprepared path with hsame | ⟨-, hnone, -⟩ | ⟨hleaf, -⟩
    · rw [hsame, hfile]
    · rw [hnone] at hfile
      cases hfile
    · exact absurd hleaf hpath

/-- The unlink of the copy keeps every other file. -/
theorem StandsAt.unlinked (h : StandsAt before path content) (hpath : path ≠ stagePlace 5)
    (hinto : onward (before (stagePlace 5)) ≠ .into) :
    StandsAt (before.set (stagePlace 5) none) path content := by
  obtain ⟨hdots, hdirs, attrs, hfile⟩ := h
  refine ⟨hdots, fun dir hdir hne hproper => ?_, attrs, ?_⟩
  · have hdirInto := hdirs dir hdir hne hproper
    rw [FileTree.set_of_ne, hdirInto]
    rintro rfl
    exact hinto hdirInto
  · rw [FileTree.set_of_ne hpath, hfile]

/-- In a tree with the last directory, readying it keeps what every path reads. -/
theorem Prepared.read (hprepared : Prepared before after) (htree : before.IsTree)
    (hleaf : onward (before (stagePlace 4)) = .into) (hread : before.read path = some content) :
    after.read path = some content := by
  -- The directories above the last one are there.
  have hpresent : ∀ n < 3, before (stagePlace (n + 1)) ≠ none := by
    intro n hn hnone
    rw [missing_below htree (show n + 1 ≤ 4 by omega) (by omega) hnone] at hleaf
    cases hleaf
  have hsight : (fun place => onward (after place)) = fun place => onward (before place) := by
    funext place
    rcases hprepared place with hsame | ⟨⟨n, hn, rfl⟩, hnone, -⟩ | ⟨rfl, hkept⟩
    · rw [hsame]
    · exact absurd hnone (hpresent n hn)
    · rw [hkept hleaf, hleaf]
  have hlocate : after.locate true path = before.locate true path := by
    rw [FileTree.locate, FileTree.locate, hsight]
  rw [FileTree.read] at hread ⊢
  rw [hlocate]
  cases hplace : before.locate true path with
  | none =>
      rw [hplace] at hread
      cases hread
  | some place =>
      rw [hplace] at hread
      simp only [Option.bind_eq_bind, Option.bind_some] at hread ⊢
      rcases hprepared place with hsame | ⟨⟨n, hn, rfl⟩, hnone, -⟩ | ⟨rfl, -⟩
      · rw [hsame, hread]
      · exact absurd hnone (hpresent n hn)
      · obtain ⟨attrs, hdir⟩ := onward_eq_into_iff.mp hleaf
        rw [hdir] at hread
        cases hread

/-- Other places than the last directory are as before, if something was there. -/
theorem Prepared.eq_of_ne_none (hprepared : Prepared before after) (hpath : path ≠ stagePlace 4)
    (hnode : before path ≠ none) : after path = before path := by
  rcases hprepared path with hsame | ⟨-, hnone, -⟩ | ⟨hleaf, -⟩
  · exact hsame
  · exact absurd hnone hnode
  · exact absurd hleaf hpath

end Frames

/-! ## Whole runs -/

section Runs

variable {disk : Disk} {content : List UInt8} {result : Except IoError Str}

/-- A run ends while the directory is readied, or goes on to replace the copy. -/
theorem exec_stageServiceProgram
    (h : Exec (StageAnswers exe mayBreak) disk.start stageServiceProgram result d') :
    ((∃ e, result = .error e) ∧ Prepares disk d' ∧
        (Calm mayBreak → PrefixSafe disk.files → FileInPrefix disk.files)) ∨
      ∃ d, Prepares disk d ∧ SafeDown d.files 5 ∧
        Exec (StageAnswers exe mayBreak) d (replaceProgram exe) result d' := by
  have hexe : ∀ {answer d₁}, Exec (StageAnswers exe mayBreak) disk.start (stageCall .currentExe)
      answer d₁ → d₁ = disk.start ∧ (answer = .ok exe ∨ (¬Calm mayBreak ∧ answer.isOk = false)) := by
    intro answer d₁ hcall
    rcases stageAnswers_cases (exec_query_iff.mp hcall) StageCall.noConfusion with
      hworks | ⟨hmay, hbreaks⟩
    · exact ⟨hworks.2, Or.inl hworks.1⟩
    · exact ⟨hbreaks.2, Or.inr ⟨not_calm hmay, hbreaks.1⟩⟩
  rcases exec_andThen_iff.mp h with ⟨e, hcall, rfl⟩ | ⟨source, d₁, hcall, hrest⟩
  · obtain ⟨rfl, hok | ⟨hcalm, -⟩⟩ := hexe hcall
    · cases hok
    · exact Or.inl ⟨⟨e, rfl⟩, prepares_start disk, fun h => absurd h hcalm⟩
  obtain ⟨rfl, hok | ⟨-, hfalse⟩⟩ := hexe hcall
  swap
  · cases hfalse
  cases hok
  rcases exec_andThen_iff.mp hrest with ⟨e, hprepare, rfl⟩ | ⟨⟨⟩, d, hprepare, hreplace⟩
  · obtain ⟨hprepares, -, herror⟩ := exec_prepareProgramDir hprepare
    exact Or.inl ⟨⟨e, rfl⟩, hprepares, herror nofun⟩
  · obtain ⟨hprepares, hok, -⟩ := exec_prepareProgramDir hprepare
    exact Or.inr ⟨d, hprepares, hok rfl, hreplace⟩

/-- A file in the prefix keeps the directory from being readied. -/
theorem SafeDown.not_fileInPrefix (hdown : SafeDown d.files 5) (hprepares : Prepares disk d)
    {attrs : Attrs} {bytes : List UInt8} :
    disk.files (stagePlace 3) ≠ some (.file attrs bytes) := by
  intro hfile
  obtain ⟨above, hdir, -⟩ := hdown 3 (by omega)
  have hne : stagePlace 3 ≠ stagePlace 4 := by decide
  rw [hprepares.files.eq_of_ne_none hne (by rw [hfile]; exact nofun), hfile] at hdir
  cases hdir

/-- The place of the copy is as before while the directory is readied. -/
theorem Prepares.copy_into_iff (hprepares : Prepares disk d) :
    onward (d.files (stagePlace 5)) = .into ↔ onward (disk.files (stagePlace 5)) = .into := by
  rcases hprepares.files (stagePlace 5) with hsame | ⟨⟨n, hn, hplace⟩, -⟩ | ⟨hplace, -⟩
  · rw [hsame]
  · have := stagePlace_inj (by omega) (by omega) hplace
    omega
  · exact absurd hplace (by decide)

/-- Where only calls before the unlink may break, a run that gets that far succeeds. -/
theorem exec_stage_of_safe (hexe : StandsAt disk.files (names exe) content)
    (hsafe : PrefixSafe disk.files) (hcopy : names exe ≠ names linuxProgramDest)
    (hleaf : names exe ≠ names linuxProgramDir)
    (hdir : ∀ attrs, disk.files (names linuxProgramDest) ≠ some (.dir attrs))
    (hpre : ∀ attrs bytes, disk.files (stagePlace 3) ≠ some (.file attrs bytes))
    (hlate : ¬mayBreak true)
    (h : Exec (StageAnswers exe mayBreak) disk.start stageServiceProgram result d') :
    ((∃ e, result = .error e) ∧ Prepares disk d' ∧ ¬Calm mayBreak) ∨
      (result = .ok linuxProgramDest ∧
        d'.files.read (names linuxProgramDest) = some content) := by
  rcases exec_stageServiceProgram h with ⟨herror, hprepares, hfile⟩ | ⟨d, hprepares, hdown, hreplace⟩
  · refine Or.inl ⟨herror, hprepares, fun hcalm => ?_⟩
    obtain ⟨attrs, bytes, hnode, -⟩ := hfile hcalm hsafe
    exact hpre attrs bytes hnode
  · have hinto : onward (d.files (stagePlace 5)) ≠ .into := by
      rw [Ne, hprepares.copy_into_iff, onward_eq_into_iff, ← names_linuxProgramDest]
      rintro ⟨attrs, hnode⟩
      exact hdir attrs hnode
    have hexe₁ : StandsAt d.files (names exe) content := by
      refine hexe.prepared ?_ hprepares.files
      rwa [← names_linuxProgramDir]
    have hexe₂ : StandsAt (d.files.set (stagePlace 5) none) (names exe) content := by
      refine hexe₁.unlinked ?_ hinto
      rwa [← names_linuxProgramDest]
    rcases exec_replaceProgram hlate hdown hreplace with
      ⟨-, bytes, hread, rfl, hfiles, -⟩ | ⟨-, -, hnode | ⟨hnone, -⟩⟩
    · obtain rfl := Option.some.inj (hread.symm.trans hexe₂.read)
      refine Or.inr ⟨rfl, ?_⟩
      have hdown' := hdown.set (m := 5) le_rfl le_rfl (some (stagedFile bytes))
      rw [hfiles]
      exact FileTree.read_of_locate (hdown'.locate le_rfl) (FileTree.set_self ..)
    · exact absurd hnode hinto
    · rw [hexe₂.read] at hnone
      cases hnone

/-- What the run did to the copy is permitted. -/
theorem TouchesOwn.copied {before : FileTree Attrs} {touched : List Touch}
    (h : TouchesOwn before touched) :
    TouchesOwn before (touched ++ [⟨.wrote, stagePlace 5, true⟩, ⟨.chowned, stagePlace 5, true⟩,
      ⟨.chmodded, stagePlace 5, true⟩]) := by
  have hcopy : ∀ action touched, Permitted before touched ⟨action, stagePlace 5, true⟩ :=
    fun action touched => ⟨rfl, Or.inr (Or.inl rfl)⟩
  have hall := ((h.append (hcopy .wrote _)).append (hcopy .chowned _)).append (hcopy .chmodded _)
  simpa only [List.append_assoc, List.cons_append, List.nil_append] using hall

/-- A staging that succeeds leaves directories of root down to a regular file of
root, and every run acts only on directories that were missing and that it made
itself, on the last directory and on the copy. -/
theorem stageServiceProgram_safe (disk : Disk) (exe : Str) (result : Except IoError Str)
    (d' : Stage)
    (h : Exec (StageAnswers exe fun _ => False) disk.start stageServiceProgram result d') :
    (∀ dest, result = .ok dest → dest = linuxProgramDest ∧ SafeDown d'.files 5 ∧
      ∃ attrs bytes, d'.files (names dest) = some (.file attrs bytes) ∧
        rootOwnedNotWritable attrs.uid attrs.mode = true) ∧
      TouchesOwn disk.files d'.touched := by
  rcases exec_stageServiceProgram h with ⟨⟨e, rfl⟩, hprepares, -⟩ | ⟨d, hprepares, hdown, hreplace⟩
  · exact ⟨nofun, hprepares.touched⟩
  rcases exec_replaceProgram id hdown hreplace with
    ⟨-, bytes, -, rfl, hfiles, htouched⟩ | ⟨herror, htouched, -⟩
  · refine ⟨fun dest hdest => ?_, ?_⟩
    · cases hdest
      refine ⟨rfl, ?_, ⟨0, 0o755⟩, bytes, ?_, by decide⟩
      · rw [hfiles]
        exact hdown.set le_rfl le_rfl _
      · rw [hfiles, names_linuxProgramDest]
        exact FileTree.set_self ..
    · rw [htouched]
      exact hprepares.touched.copied
  · refine ⟨fun dest hdest => absurd hdest (herror dest), ?_⟩
    rw [htouched]
    exact hprepares.touched

/-- In a safe prefix the checks end well. -/
theorem exec_ensurePrefix_of_safe (exe : Str) (hsafe : PrefixSafe disk.files) :
    Exec (StageAnswers exe fun _ => False) disk.start
      (ensurePrefixRootOwnedNotWritable ((parent linuxProgramDir).getD linuxProgramDir)) (.ok ())
      disk.start := by
  obtain ⟨answer, d', hrun⟩ := exists_exec (exists_stageAnswers exe fun _ => False) disk.start
    (ensurePrefixRootOwnedNotWritable ((parent linuxProgramDir).getD linuxProgramDir))
  obtain ⟨rfl, ⟨rfl, -⟩ | ⟨-, hmay | hnotSafe⟩⟩ := exec_ensurePrefix disk.isTree hrun
  · exact hrun
  · exact hmay.elim
  · exact absurd hsafe hnotSafe

/-- A machine with a copy that was staged, and a program that was downloaded. -/
def installedFiles (place : Names) : Option (Node Attrs) :=
  if place ∈ (names linuxProgramDir).inits then some (.dir ⟨0, 0o755⟩)
  else if place = names linuxProgramDest then some (.file ⟨0, 0o755⟩ [1])
  else if place = names "/dig-dns".toList then some (.file ⟨1000, 0o755⟩ [2])
  else none

theorem installedFiles_dir {place : Names} (h : place <+: names linuxProgramDir) :
    installedFiles place = some (.dir ⟨0, 0o755⟩) :=
  if_pos ((List.mem_inits _ _).mpr h)

theorem installedFiles_isTree : FileTree.IsTree installedFiles := by
  refine ⟨⟨_, installedFiles_dir List.nil_prefix⟩, fun {place name} h => ⟨⟨0, 0o755⟩, ?_⟩⟩
  apply installedFiles_dir
  have hdropLast : place = (place ++ [name]).dropLast := by simp
  rw [installedFiles] at h
  split at h
  · rename_i hpre
    exact (List.prefix_append place [name]).trans ((List.mem_inits _ _).mp hpre)
  split at h
  · rename_i hdest
    rw [hdropLast, hdest]
    decide
  split at h
  · rename_i hdownload
    rw [hdropLast, hdownload]
    decide
  · exact absurd rfl h

/-- The disk of this machine. -/
def installedDisk : Disk := ⟨installedFiles, installedFiles_isTree⟩

theorem installedDisk_safeDown : SafeDown installedDisk.files 4 := by
  intro i hi
  refine ⟨⟨0, 0o755⟩, installedFiles_dir ?_, by decide⟩
  rw [names_linuxProgramDir]
  exact List.take_prefix_take_left (by omega)

theorem standsAt_download : StandsAt installedDisk.files (names "/dig-dns".toList) [2] :=
  ⟨by decide, by decide, ⟨1000, 0o755⟩, by decide⟩

theorem standsAt_copy : StandsAt installedDisk.files (names linuxProgramDest) [1] :=
  ⟨by decide, by decide, ⟨0, 0o755⟩, by decide⟩

/-- A run of the program that was downloaded. -/
theorem stageServiceProgram_safe_download :
    ∃ d', Exec (StageAnswers "/dig-dns".toList fun _ => False) installedDisk.start
        stageServiceProgram (.ok linuxProgramDest) d' ∧
      SafeDown d'.files 5 ∧ TouchesOwn installedDisk.files d'.touched := by
  obtain ⟨result, d', hrun⟩ := exists_exec (exists_stageAnswers "/dig-dns".toList fun _ => False)
    installedDisk.start stageServiceProgram
  have hdir : installedDisk.files (names linuxProgramDest) = some (.file ⟨0, 0o755⟩ [1]) := by
    decide
  have hpre : installedDisk.files (stagePlace 3) = some (.dir ⟨0, 0o755⟩) := by
    decide
  rcases exec_stage_of_safe standsAt_download (Or.inl installedDisk_safeDown) (by decide)
    (by decide) (by rw [hdir]; exact nofun) (by rw [hpre]; exact nofun) id hrun with
    ⟨-, -, hcalm⟩ | ⟨rfl, -⟩
  · exact absurd (fun _ => id) hcalm
  · obtain ⟨hsafe, htouches⟩ := stageServiceProgram_safe installedDisk _ _ d' hrun
    exact ⟨d', hrun, (hsafe _ rfl).2.1, htouches⟩

end Runs

end DigDns
