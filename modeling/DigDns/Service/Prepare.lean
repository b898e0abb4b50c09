import DigDns.Service.Staging

/-!
# Readying the directory

Whatever stands at the places of the staging path, the part of the staging before
the unlink of the copy acts only on directories that it made itself and on the
last directory, and when it succeeds the whole chain is directories of root.
-/

namespace DigDns

open Rust Interaction Posix OsConfig

/-! ## The places of the path -/

/-- The places from the root down to the copy. -/
def stagePlace (n : Nat) : Names := (names linuxProgramDest).take n

/-- Their paths. -/
def stagePath : Nat → Str
  | 0 => "/".toList
  | 1 => "/usr".toList
  | 2 => "/usr/local".toList
  | 3 => "/usr/local/lib".toList
  | 4 => linuxProgramDir
  | _ => linuxProgramDest

theorem names_stagePath : ∀ n ≤ 5, names (stagePath n) = stagePlace n := by
  decide

theorem dots_not_mem_stagePlace (n : Nat) : ['.', '.'] ∉ stagePlace n := by
  have hdots : ['.', '.'] ∉ names linuxProgramDest := by decide
  exact fun hmem => hdots (List.mem_of_mem_take hmem)

theorem length_stagePlace {n : Nat} (hn : n ≤ 5) : (stagePlace n).length = n := by
  have hlength : (names linuxProgramDest).length = 5 := by decide
  rw [stagePlace, List.length_take, hlength]
  omega

theorem stagePlace_inj {m n : Nat} (hm : m ≤ 5) (hn : n ≤ 5) (h : stagePlace m = stagePlace n) :
    m = n := by
  rw [← length_stagePlace hm, ← length_stagePlace hn, h]

/-- Each place is one name below the one before. -/
theorem stagePlace_succ {n : Nat} (hn : n < 5) :
    ∃ name, stagePlace (n + 1) = stagePlace n ++ [name] := by
  have hlength : (names linuxProgramDest).length = 5 := by decide
  exact ⟨_, List.take_succ_eq_append_getElem (by omega)⟩

/-- Above a place there are the places before it. -/
theorem exists_of_prefix_stagePlace {n : Nat} {dir : Names} (hn : n ≤ 5)
    (hdir : dir <+: stagePlace n) (hproper : dir ≠ stagePlace n) :
    ∃ i < n, dir = stagePlace i := by
  have hle := hdir.length_le
  rw [length_stagePlace hn] at hle
  have hlt : dir.length < n := by
    refine lt_of_le_of_ne hle fun heq => hproper ?_
    exact hdir.eq_of_length (by rw [heq, length_stagePlace hn])
  have htake := List.prefix_iff_eq_take.mp hdir
  refine ⟨dir.length, hlt, htake.trans ?_⟩
  rw [stagePlace, List.take_take, min_eq_left hle, stagePlace]

/-- There is a directory that is root's, and that only root can write to. -/
def SafeDir (files : FileTree Attrs) (place : Names) : Prop :=
  ∃ attrs, files place = some (.dir attrs) ∧ rootOwnedNotWritable attrs.uid attrs.mode = true

/-- So it is at the first `n` places. -/
def SafeDown (files : FileTree Attrs) (n : Nat) : Prop :=
  ∀ i < n, SafeDir files (stagePlace i)

section Places

variable {files : FileTree Attrs} {n : Nat}

theorem SafeDir.into {place : Names} (h : SafeDir files place) : onward (files place) = .into := by
  obtain ⟨attrs, hdir, -⟩ := h
  rw [hdir]
  rfl

theorem SafeDown.mono {m : Nat} (h : SafeDown files n) (hm : m ≤ n) : SafeDown files m :=
  fun i hi => h i (lt_of_lt_of_le hi hm)

theorem SafeDown.succ (h : SafeDown files n) (hdir : SafeDir files (stagePlace n)) :
    SafeDown files (n + 1) := by
  intro i hi
  rcases Nat.lt_succ_iff_lt_or_eq.mp hi with hlt | rfl
  · exact h i hlt
  · exact hdir

theorem SafeDown.hasDirs (h : SafeDown files n) (hn : n ≤ 5) : files.HasDirs (stagePlace n) := by
  intro dir hdir _ hproper
  obtain ⟨i, hi, rfl⟩ := exists_of_prefix_stagePlace hn ((List.mem_inits _ _).mp hdir) hproper
  exact (h i hi).into

/-- The place of a path below safe directories. -/
theorem SafeDown.locate (h : SafeDown files n) (hn : n ≤ 5) :
    files.locate false (names (stagePath n)) = some (stagePlace n) := by
  rw [names_stagePath n hn]
  exact FileTree.locate_of_hasDirs (dots_not_mem_stagePlace n) (h.hasDirs hn)

theorem SafeDown.locate_true (h : SafeDown files n) (hn : n ≤ 5)
    (hlink : ∀ target, files (stagePlace n) ≠ some (.link target)) :
    files.locate true (names (stagePath n)) = some (stagePlace n) := by
  rw [names_stagePath n hn]
  exact FileTree.locate_true_of_hasDirs (dots_not_mem_stagePlace n) (h.hasDirs hn) hlink

theorem SafeDown.isStraight (h : SafeDown files n) (hn : n ≤ 5)
    (hlink : ∀ target, files (stagePlace n) ≠ some (.link target)) :
    files.isStraight (names (stagePath n)) = true := by
  rw [names_stagePath n hn, FileTree.isStraight, decide_eq_true (h.hasDirs hn), Bool.true_and]
  cases hnode : files (stagePlace n) with
  | none => rfl
  | some node =>
      cases node with
      | link target => exact absurd hnode (hlink target)
      | _ => rfl

/-- Putting something at a place leaves the safe directories above it. -/
theorem SafeDown.set (h : SafeDown files n) {m : Nat} (hm : m ≤ 5) (hnm : n ≤ m)
    (node : Option (Node Attrs)) : SafeDown (files.set (stagePlace m) node) n := by
  intro i hi
  obtain ⟨attrs, hdir, hsafe⟩ := h i hi
  refine ⟨attrs, ?_, hsafe⟩
  rw [FileTree.set_of_ne, hdir]
  intro heq
  have := stagePlace_inj (by omega) hm heq
  omega

/-- `lstat` below safe directories sees what is there. -/
theorem SafeDown.lstat_iff (h : SafeDown files n) (hn : n ≤ 5) (answer : Except IoError Metadata) :
    LstatAnswers files (names (stagePath n)) answer ↔
      match answer with
      | .ok stat => MetadataOf (files (stagePlace n)) stat
      | .error e => files (stagePlace n) = none ∧ e.kind = .notFound := by
  cases answer with
  | ok stat => simp [LstatAnswers, h.locate hn]
  | error e => simp [LstatAnswers, h.locate hn]

/-- A path of the staging path goes on below each of its places. -/
theorem stagePlace_split {m n : Nat} (hm : m ≤ 5) (hnm : n + 1 < m) :
    ∃ name rest, stagePlace (n + 1) = stagePlace n ++ [name] ∧
      stagePlace m = stagePlace n ++ name :: rest ∧ rest ≠ [] := by
  obtain ⟨name, hname⟩ := stagePlace_succ (show n < 5 by omega)
  obtain ⟨rest, hrest⟩ : stagePlace (n + 1) <+: stagePlace m := List.take_prefix_take_left (by omega)
  refine ⟨name, rest, hname, ?_, ?_⟩
  · rw [← hrest, hname, List.append_assoc, List.singleton_append]
  · rintro rfl
    rw [List.append_nil] at hrest
    have := stagePlace_inj (by omega) hm hrest
    omega

/-- Below a place that is missing or holds a file, a path leads nowhere. -/
theorem SafeDown.locate_below (h : SafeDown files (n + 1)) {m : Nat} (hm : m ≤ 5)
    (hnm : n + 1 < m) (hstop : onward (files (stagePlace (n + 1))) = .stop) (follow : Bool) :
    files.locate follow (names (stagePath m)) = none := by
  obtain ⟨name, rest, hname, hpath, hne⟩ := stagePlace_split hm hnm
  have hdirs := h.hasDirs (show n + 1 ≤ 5 by omega)
  have hdots := dots_not_mem_stagePlace (n + 1)
  rw [hname] at hstop hdirs hdots
  rw [names_stagePath m hm, hpath]
  exact FileTree.locate_eq_none follow hdots hdirs hstop hne

/-- `lstat` there sees what is in the way. -/
theorem SafeDown.lstat_below (h : SafeDown files (n + 1)) {m : Nat} (hm : m ≤ 5) (hnm : n + 1 < m)
    (hstop : onward (files (stagePlace (n + 1))) = .stop) {answer : Except IoError Metadata}
    (hanswer : LstatAnswers files (names (stagePath m)) answer) :
    ∃ e, answer = .error e ∧ (files (stagePlace (n + 1)) = none ↔ e.kind = .notFound) := by
  have hlocate := h.locate_below hm hnm hstop false
  obtain ⟨name, rest, hname, hpath, -⟩ := stagePlace_split hm hnm
  have hdirs := h.hasDirs (show n + 1 ≤ 5 by omega)
  rw [hname] at hstop hdirs ⊢
  have hfirst : files.firstNonDir [] (names (stagePath m)) = some (stagePlace n ++ [name]) := by
    rw [names_stagePath m hm, hpath]
    refine FileTree.firstNonDir_eq_some (fun dir hdir hne => ?_) ?_
    · exact hdirs.into (List.cons_ne_nil _ _) hdir hne
    · rw [List.nil_append, hstop]
      exact Onward.noConfusion
  cases answer with
  | ok stat =>
      obtain ⟨place, hplace, -⟩ := hanswer
      rw [hlocate] at hplace
      cases hplace
  | error e =>
      refine ⟨e, rfl, ?_⟩
      simp only [LstatAnswers, hlocate, hfirst, Option.bind_some] at hanswer
      cases hnode : files (stagePlace n ++ [name]) with
      | none =>
          simp only [hnode] at hanswer
          simp [hanswer]
      | some node =>
          rw [hnode] at hanswer hstop
          cases node with
          | file attrs bytes => simpa using hanswer
          | link target => cases hstop
          | dir attrs => cases hstop

/-- What `exists` says of a place below safe directories. -/
theorem SafeDown.isPresent (h : SafeDown files n) (hn : n ≤ 5)
    (hlink : ∀ target, files (stagePlace n) ≠ some (.link target)) :
    files.isPresent (names (stagePath n)) =
      (decide (stagePlace n = []) || (files (stagePlace n)).isSome) := by
  rw [FileTree.isPresent, h.locate_true hn hlink]

/-- Nothing is below a place that is missing. -/
theorem SafeDown.not_isPresent (h : SafeDown files (n + 1)) {m : Nat} (hm : m ≤ 5) (hnm : n + 1 ≤ m)
    (hnone : files (stagePlace (n + 1)) = none) :
    files.isPresent (names (stagePath m)) = false := by
  rcases Nat.lt_or_ge (n + 1) m with hlt | hge
  · rw [FileTree.isPresent, h.locate_below hm hlt (by rw [hnone]; rfl)]
  · obtain rfl : m = n + 1 := by omega
    have hne : stagePlace (n + 1) ≠ [] := by
      intro hnil
      have := length_stagePlace hm
      rw [hnil, List.length_nil] at this
      omega
    rw [h.isPresent hm fun target => by rw [hnone]; exact nofun, hnone, decide_eq_false hne]
    rfl

end Places

/-! ## The prefix -/

variable {exe : Str} {mayBreak : Bool → Prop} {d d' : Stage}

theorem changes_cases {action : Action} {follow : Bool} {path : Names}
    {files : Option (FileTree Attrs)} {answer : Except IoError Unit}
    (h : Changes d action follow path files answer d') :
    (∃ files', files = some files' ∧ answer = .ok () ∧ d' = d.touch action follow path files') ∨
      (files = none ∧ answer ≠ .ok () ∧ d' = d) := by
  cases files with
  | none => exact Or.inr ⟨rfl, h⟩
  | some files' => exact Or.inl ⟨files', rfl, h⟩

theorem unlinking_of_works {q : StageCall} {answer : StageAnswer q}
    (h : Works exe d q answer d') : d'.unlinking = d.unlinking := by
  have hchanges : ∀ {action follow path files answer}, Changes d action follow path files answer d' →
      d'.unlinking = d.unlinking := by
    intro action follow path files answer hchanges
    rcases changes_cases hchanges with ⟨files', -, -, rfl⟩ | ⟨-, -, rfl⟩
    · rfl
    · rfl
  cases q with
  | currentExe => rw [h.2]
  | lstat path => rw [h.2]
  | pathExists path => rw [h.2]
  | createDir path => exact hchanges h.choose_spec
  | chown path => exact hchanges h
  | setMode path mode => exact hchanges h
  | removeFile path =>
      rw [Works] at h
      split at h
      · rw [h.2]
      · rw [h.2]
  | copy source target => exact hchanges h.choose_spec

theorem unlinking_of_breaks {q : StageCall} {answer : StageAnswer q} (h : Breaks d q answer d') :
    d'.unlinking = d.unlinking := by
  cases q with
  | copy source target =>
      rcases h.2 with rfl | ⟨mode, bytes, files, -, rfl⟩
      · rfl
      · rfl
  | _ => rw [h.2]

/-- A call works, or breaks where it may. -/
theorem stageAnswers_cases {q : StageCall} {answer : StageAnswer q}
    (h : StageAnswers exe mayBreak d q answer d') (hq : q ≠ .removeFile linuxProgramDest) :
    Works exe d q answer d' ∨ mayBreak d.unlinking ∧ Breaks d q answer d' := by
  have hlate : d.isLate q = d.unlinking := by
    rw [Stage.isLate, decide_eq_false hq, Bool.or_false]
  obtain ⟨d₁, hanswer, rfl⟩ := h
  rw [hlate] at hanswer ⊢
  rcases hanswer with hworks | ⟨hmay, hbreaks⟩
  · rw [← unlinking_of_works hworks]
    exact Or.inl hworks
  · rw [← unlinking_of_breaks hbreaks] at hmay ⊢
    exact Or.inr ⟨hmay, hbreaks⟩

theorem stageAnswers_of {q : StageCall} {answer : StageAnswer q}
    (hq : q ≠ .removeFile linuxProgramDest)
    (h : Works exe d q answer d' ∨ mayBreak d.unlinking ∧ Breaks d q answer d') :
    StageAnswers exe mayBreak d q answer d' := by
  have hlate : d.isLate q = d.unlinking := by
    rw [Stage.isLate, decide_eq_false hq, Bool.or_false]
  have hsame : d'.unlinking = d.unlinking := by
    rcases h with hworks | ⟨-, hbreaks⟩
    · exact unlinking_of_works hworks
    · exact unlinking_of_breaks hbreaks
  refine ⟨d', by rwa [hlate], ?_⟩
  rw [hlate, ← hsame]

/-- The answers to `lstat` with which a component passes. -/
def Passes : Except IoError Metadata → Prop
  | .ok stat => prefixComponentSafe stat.uid stat.mode stat.isSymlink = true
  | .error e => e.kind = .notFound

theorem judgeComponent_eq_ok_iff (dir component : Str) (answer : Except IoError Metadata) :
    judgeComponent dir component answer = .ok () ↔ Passes answer := by
  cases answer with
  | ok stat =>
      rw [judgeComponent, Passes]
      split <;> simp_all
  | error e =>
      rw [judgeComponent, Passes]
      split <;> simp_all

/-- The answers to `lstat`, where it may break or may not. -/
theorem stageAnswers_lstat {path : Str} {answer : Except IoError Metadata}
    (h : StageAnswers exe mayBreak d (.lstat path) answer d') :
    d' = d ∧ (LstatAnswers d.files (names path) answer ∨
      mayBreak d.unlinking ∧ ∃ e, answer = .error e ∧ e.kind ≠ .notFound) := by
  rcases stageAnswers_cases h StageCall.noConfusion with hworks | ⟨hmay, hbreaks⟩
  · exact ⟨hworks.2, Or.inl hworks.1⟩
  · exact ⟨hbreaks.2, Or.inr ⟨hmay, hbreaks.1⟩⟩

theorem exec_checkComponent {dir component : Str} {result : Except IoError Unit}
    (h : Exec (StageAnswers exe mayBreak) d (checkComponent dir component) result d') :
    d' = d ∧ ∃ answer, (LstatAnswers d.files (names component) answer ∨
        mayBreak d.unlinking ∧ ¬Passes answer) ∧ (result = .ok () ↔ Passes answer) := by
  obtain ⟨answer, d₁, hcall, hrest⟩ := exec_bind_iff.mp h
  obtain ⟨rfl, hanswer⟩ := stageAnswers_lstat (exec_query_iff.mp hcall)
  obtain ⟨rfl, rfl⟩ := exec_ret_iff.mp hrest
  refine ⟨rfl, answer, ?_, judgeComponent_eq_ok_iff _ _ _⟩
  rcases hanswer with hlstat | ⟨hmay, e, rfl, hkind⟩
  · exact Or.inl hlstat
  · exact Or.inr ⟨hmay, hkind⟩

/-- The loop over the components changes nothing, and ends well when they pass. -/
theorem exec_checkComponents {dir : Str} {components : List Str} {result : Except IoError Unit}
    (h : Exec (StageAnswers exe mayBreak) d (Prog.tryEach (checkComponent dir) components)
      result d') :
    d' = d ∧ ((result = .ok () ∧ ∀ component ∈ components,
        ∃ answer, LstatAnswers d.files (names component) answer ∧ Passes answer) ∨
      (result ≠ .ok () ∧ (mayBreak d.unlinking ∨ ∃ component ∈ components,
        ∃ answer, LstatAnswers d.files (names component) answer ∧ ¬Passes answer))) := by
  induction components generalizing d with
  | nil =>
      obtain ⟨rfl, rfl⟩ := exec_ret_iff.mp h
      exact ⟨rfl, Or.inl ⟨rfl, List.forall_mem_nil _⟩⟩
  | cons component components ih =>
      rcases exec_andThen_iff.mp h with ⟨e, hfirst, rfl⟩ | ⟨⟨⟩, d₁, hfirst, hrest⟩
      · obtain ⟨rfl, answer, hanswer, hiff⟩ := exec_checkComponent hfirst
        have hfails : ¬Passes answer := by
          rw [← hiff]
          exact nofun
        refine ⟨rfl, Or.inr ⟨nofun, ?_⟩⟩
        rcases hanswer with hlstat | ⟨hmay, -⟩
        · exact Or.inr ⟨component, List.mem_cons_self, answer, hlstat, hfails⟩
        · exact Or.inl hmay
      · obtain ⟨rfl, answer, hanswer, hiff⟩ := exec_checkComponent hfirst
        have hpasses := hiff.mp rfl
        have hlstat : LstatAnswers d₁.files (names component) answer := by
          rcases hanswer with hlstat | ⟨-, hfails⟩
          · exact hlstat
          · exact absurd hpasses hfails
        obtain ⟨rfl, hall | ⟨herror, hbroken | ⟨other, hother, hfails⟩⟩⟩ := ih hrest
        · refine ⟨rfl, Or.inl ⟨hall.1, List.forall_mem_cons.mpr ⟨?_, hall.2⟩⟩⟩
          exact ⟨answer, hlstat, hpasses⟩
        · exact ⟨rfl, Or.inr ⟨herror, Or.inl hbroken⟩⟩
        · exact ⟨rfl, Or.inr ⟨herror, Or.inr ⟨other, List.mem_cons_of_mem _ hother, hfails⟩⟩⟩

/-- There is a regular file where the last directory of the prefix should be. -/
def FileInPrefix (files : FileTree Attrs) : Prop :=
  ∃ attrs bytes, files (stagePlace 3) = some (.file attrs bytes) ∧
    rootOwnedNotWritable attrs.uid attrs.mode = true

/-- The prefix passes the checks: below directories that are root's the next one
is missing, or the last is a file. -/
def PrefixSafe (files : FileTree Attrs) : Prop :=
  SafeDown files 4 ∨
    (∃ n < 3, SafeDown files (n + 1) ∧ files (stagePlace (n + 1)) = none) ∨
    SafeDown files 3 ∧ FileInPrefix files

section Prefix

variable {files : FileTree Attrs}

/-- A component below safe directories passes when it is missing, or when it is
root's and no link. -/
theorem SafeDown.passes {n : Nat} (h : SafeDown files n) (hn : n ≤ 5)
    {answer : Except IoError Metadata} (hanswer : LstatAnswers files (names (stagePath n)) answer)
    (hpasses : Passes answer) :
    files (stagePlace n) = none ∨ SafeDir files (stagePlace n) ∨
      ∃ attrs bytes, files (stagePlace n) = some (.file attrs bytes) ∧
        rootOwnedNotWritable attrs.uid attrs.mode = true := by
  rw [h.lstat_iff hn] at hanswer
  cases answer with
  | error e => exact Or.inl hanswer.1
  | ok stat =>
      rw [Passes, prefixComponentSafe, Bool.and_eq_true] at hpasses
      cases hnode : files (stagePlace n) with
      | none =>
          simp only [hnode] at hanswer
          cases hanswer
      | some node =>
          rw [hnode] at hanswer
          cases node with
          | file attrs bytes =>
              obtain rfl := hanswer
              exact Or.inr (Or.inr ⟨attrs, bytes, rfl, hpasses.2⟩)
          | dir attrs =>
              obtain rfl := hanswer
              exact Or.inr (Or.inl ⟨attrs, hnode, hpasses.2⟩)
          | link target =>
              have hsymlink : stat.isSymlink = true := decide_eq_true hanswer.2
              rw [hsymlink] at hpasses
              exact absurd hpasses.1 (by decide)

/-- When every component passes, the prefix is safe. -/
theorem prefixSafe_of_passes (htree : files.IsTree)
    (h : ∀ n < 4, ∃ answer, LstatAnswers files (names (stagePath n)) answer ∧ Passes answer) :
    PrefixSafe files := by
  -- A file above the last component would keep the next one from passing.
  have hnoFile : ∀ n < 2, SafeDown files (n + 1) →
      ¬∃ attrs bytes, files (stagePlace (n + 1)) = some (.file attrs bytes) ∧
        rootOwnedNotWritable attrs.uid attrs.mode = true := by
    rintro n hn hdown ⟨attrs, bytes, hfile, -⟩
    obtain ⟨answer, hanswer, hpasses⟩ := h (n + 2) (by omega)
    obtain ⟨e, rfl, hkind⟩ := hdown.lstat_below (by omega) (by omega)
      (by rw [hfile]; rfl) hanswer
    rw [hkind.mpr hpasses] at hfile
    cases hfile
  have hroot : SafeDown files 1 := by
    obtain ⟨attrs, hdir⟩ := htree.root
    obtain ⟨answer, hanswer, hpasses⟩ := h 0 (by omega)
    have hzero : SafeDown files 0 := fun i hi => absurd hi (Nat.not_lt_zero i)
    refine hzero.succ ?_
    rcases hzero.passes (by omega) hanswer hpasses with hnone | hsafe | ⟨attrs', bytes, hfile, -⟩
    · rw [show stagePlace 0 = [] from rfl, hdir] at hnone
      cases hnone
    · exact hsafe
    · rw [show stagePlace 0 = [] from rfl, hdir] at hfile
      cases hfile
  have hstep : ∀ n < 3, SafeDown files (n + 1) →
      files (stagePlace (n + 1)) = none ∨ SafeDown files (n + 2) ∨ (n = 2 ∧ FileInPrefix files) := by
    intro n hn hdown
    obtain ⟨answer, hanswer, hpasses⟩ := h (n + 1) (by omega)
    rcases hdown.passes (by omega) hanswer hpasses with hnone | hsafe | hfile
    · exact Or.inl hnone
    · exact Or.inr (Or.inl (hdown.succ hsafe))
    · rcases Nat.lt_or_ge n 2 with hlt | hge
      · exact absurd hfile (hnoFile n hlt hdown)
      · obtain rfl : n = 2 := by omega
        exact Or.inr (Or.inr ⟨rfl, hfile⟩)
  rcases hstep 0 (by omega) hroot with hnone | hdown | ⟨hn, -⟩
  · exact Or.inr (Or.inl ⟨0, by omega, hroot, hnone⟩)
  · rcases hstep 1 (by omega) hdown with hnone | hdown' | ⟨hn, -⟩
    · exact Or.inr (Or.inl ⟨1, by omega, hdown, hnone⟩)
    · rcases hstep 2 (by omega) hdown' with hnone | hdown'' | ⟨-, hfile⟩
      · exact Or.inr (Or.inl ⟨2, by omega, hdown', hnone⟩)
      · exact Or.inl hdown''
      · exact Or.inr (Or.inr ⟨hdown', hfile⟩)
    · cases hn
  · cases hn

/-- In a safe prefix every component passes. -/
theorem passes_of_prefixSafe (h : PrefixSafe files) {n : Nat} (hn : n < 4)
    {answer : Except IoError Metadata} (hanswer : LstatAnswers files (names (stagePath n)) answer) :
    Passes answer := by
  have howned : ∀ {m}, SafeDown files m → m < 4 →
      (SafeDir files (stagePlace m) ∨ m = 3 ∧ FileInPrefix files) →
      LstatAnswers files (names (stagePath m)) answer → Passes answer := by
    intro m hdown hm hnode hanswer
    rw [hdown.lstat_iff (by omega)] at hanswer
    rcases hnode with ⟨attrs, hdir, hsafe⟩ | ⟨rfl, attrs, bytes, hfile, hsafe⟩
    · rw [hdir] at hanswer
      cases answer with
      | error e => cases hanswer.1
      | ok stat =>
          obtain rfl := hanswer
          exact hsafe
    · rw [hfile] at hanswer
      cases answer with
      | error e => cases hanswer.1
      | ok stat =>
          obtain rfl := hanswer
          exact hsafe
  rcases h with hdown | ⟨k, hk, hdown, hnone⟩ | ⟨hdown, hfile⟩
  · exact howned (hdown.mono (by omega)) hn (Or.inl (hdown n hn)) hanswer
  · rcases Nat.lt_trichotomy n (k + 1) with hlt | rfl | hgt
    · exact howned (hdown.mono (by omega)) hn (Or.inl (hdown n hlt)) hanswer
    · rw [hdown.lstat_iff (by omega), hnone] at hanswer
      cases answer with
      | ok stat => cases hanswer
      | error e => exact hanswer.2
    · obtain ⟨e, rfl, hkind⟩ := hdown.lstat_below (by omega) hgt (by rw [hnone]; rfl) hanswer
      exact hkind.mp hnone
  · rcases Nat.lt_or_ge n 3 with hlt | hge
    · exact howned (hdown.mono (by omega)) hn (Or.inl (hdown n hlt)) hanswer
    · obtain rfl : n = 3 := by omega
      exact howned hdown hn (Or.inr ⟨rfl, hfile⟩) hanswer

/-- The checks of the prefix change nothing; they end well only on a safe one,
and there always if no call breaks. -/
theorem exec_ensurePrefix (htree : d.files.IsTree) {result : Except IoError Unit}
    (h : Exec (StageAnswers exe mayBreak) d
      (ensurePrefixRootOwnedNotWritable ((parent linuxProgramDir).getD linuxProgramDir)) result d') :
    d' = d ∧ (result = .ok () ∧ PrefixSafe d.files ∨
      result ≠ .ok () ∧ (mayBreak d.unlinking ∨ ¬PrefixSafe d.files)) := by
  have hcomponents : ancestors ((parent linuxProgramDir).getD linuxProgramDir) =
      [stagePath 3, stagePath 2, stagePath 1, stagePath 0] := by decide
  rw [ensurePrefixRootOwnedNotWritable, hcomponents] at h
  obtain ⟨rfl, ⟨rfl, hall⟩ | ⟨herror, hbroken | ⟨component, hmem, answer, hanswer, hfails⟩⟩⟩ :=
    exec_checkComponents h
  · refine ⟨rfl, Or.inl ⟨rfl, prefixSafe_of_passes htree fun n hn => hall _ ?_⟩⟩
    have hmem : ∀ n < 4, stagePath n ∈ [stagePath 3, stagePath 2, stagePath 1, stagePath 0] := by
      decide
    exact hmem n hn
  · exact ⟨rfl, Or.inr ⟨herror, Or.inl hbroken⟩⟩
  · refine ⟨rfl, Or.inr ⟨herror, Or.inr fun hsafe => hfails ?_⟩⟩
    simp only [List.mem_cons, List.not_mem_nil, or_false] at hmem
    rcases hmem with rfl | rfl | rfl | rfl
    · exact passes_of_prefixSafe hsafe (by omega) hanswer
    · exact passes_of_prefixSafe hsafe (by omega) hanswer
    · exact passes_of_prefixSafe hsafe (by omega) hanswer
    · exact passes_of_prefixSafe hsafe (by omega) hanswer

end Prefix

/-! ## What a run may change before the unlink -/

/-- The files are as before, except that missing directories of the prefix were
made, and that something was done about the last directory. -/
def Prepared (before after : FileTree Attrs) : Prop :=
  ∀ place, after place = before place ∨
    ((∃ n < 3, place = stagePlace (n + 1)) ∧ before place = none ∧
      onward (after place) = .into) ∨
    (place = stagePlace 4 ∧ (onward (before place) = .into → onward (after place) = .into))

/-- The run acted on a directory that it made itself, on the last directory or on
the copy, and came there through no link. -/
def Permitted (before : FileTree Attrs) (touched : List Touch) (t : Touch) : Prop :=
  t.straight = true ∧ (t.place = stagePlace 4 ∨ t.place = stagePlace 5 ∨
    (∃ n < 3, t.place = stagePlace (n + 1)) ∧ before t.place = none ∧
      ⟨.created, t.place, true⟩ ∈ touched)

/-- Everything that the run acted on is permitted. -/
def TouchesOwn (before : FileTree Attrs) (touched : List Touch) : Prop :=
  ∀ t ∈ touched, Permitted before touched t

/-- The invariant up to the unlink of the copy. -/
structure Prepares (disk : Disk) (d : Stage) : Prop where
  files : Prepared disk.files d.files
  touched : TouchesOwn disk.files d.touched
  early : d.unlinking = false

/-- The files change at a place of the path, which was reached through no link. -/
def Stage.act (d : Stage) (action : Action) (n : Nat) (node : Node Attrs) : Stage :=
  { d with
    files := d.files.set (stagePlace n) (some node)
    touched := d.touched ++ [⟨action, stagePlace n, true⟩] }

@[simp] theorem Stage.act_files (d : Stage) (action : Action) (n : Nat) (node : Node Attrs) :
    (d.act action n node).files = d.files.set (stagePlace n) (some node) := rfl

@[simp] theorem Stage.act_touched (d : Stage) (action : Action) (n : Nat) (node : Node Attrs) :
    (d.act action n node).touched = d.touched ++ [⟨action, stagePlace n, true⟩] := rfl

@[simp] theorem Stage.act_unlinking (d : Stage) (action : Action) (n : Nat) (node : Node Attrs) :
    (d.act action n node).unlinking = d.unlinking := rfl

theorem Stage.act_self (d : Stage) (action : Action) (n : Nat) (node : Node Attrs) :
    (d.act action n node).files (stagePlace n) = some node :=
  FileTree.set_self ..

/-- What is done at a place leaves the directories above it safe. -/
theorem SafeDown.act {n : Nat} (h : SafeDown d.files n) (hn : n ≤ 5) (action : Action)
    (node : Node Attrs) : SafeDown (d.act action n node).files n :=
  h.set hn le_rfl _

theorem TouchesOwn.append {before : FileTree Attrs} {touched : List Touch} {t : Touch}
    (h : TouchesOwn before touched) (ht : Permitted before (touched ++ [t]) t) :
    TouchesOwn before (touched ++ [t]) := by
  intro t' ht'
  rcases List.mem_append.mp ht' with hmem | hmem
  · obtain ⟨hstraight, hleaf | hcopy | ⟨hn, hnone, hcreated⟩⟩ := h t' hmem
    · exact ⟨hstraight, Or.inl hleaf⟩
    · exact ⟨hstraight, Or.inr (Or.inl hcopy)⟩
    · exact ⟨hstraight, Or.inr (Or.inr ⟨hn, hnone, List.mem_append_left _ hcreated⟩)⟩
  · obtain rfl := List.mem_singleton.mp hmem
    exact ht

section Prepares

variable {disk : Disk} {n : Nat} {action : Action} {attrs : Attrs}

theorem prepares_start (disk : Disk) : Prepares disk disk.start :=
  ⟨fun _ => Or.inl rfl, List.forall_mem_nil _, rfl⟩

/-- What is missing now was missing at the start. -/
theorem Prepares.missing (h : Prepares disk d) (hn : n < 3)
    (hnone : d.files (stagePlace (n + 1)) = none) : disk.files (stagePlace (n + 1)) = none := by
  rcases h.files (stagePlace (n + 1)) with hsame | ⟨-, hmissing, -⟩ | ⟨hleaf, -⟩
  · rw [← hsame, hnone]
  · exact hmissing
  · have := stagePlace_inj (by omega) (by omega) hleaf
    omega

theorem Prepares.act_dir (h : Prepares disk d) (hn : n < 3)
    (hmissing : disk.files (stagePlace (n + 1)) = none)
    (hcreated : ⟨.created, stagePlace (n + 1), true⟩ ∈
      d.touched ++ [⟨action, stagePlace (n + 1), true⟩]) :
    Prepares disk (d.act action (n + 1) (.dir attrs)) := by
  refine ⟨fun place => ?_, h.touched.append ?_, h.early⟩
  · by_cases hplace : place = stagePlace (n + 1)
    · subst hplace
      refine Or.inr (Or.inl ⟨⟨n, hn, rfl⟩, hmissing, ?_⟩)
      rw [Stage.act_files, FileTree.set_self]
      rfl
    · rw [Stage.act_files, FileTree.set_of_ne hplace]
      exact h.files place
  · exact ⟨rfl, Or.inr (Or.inr ⟨⟨n, hn, rfl⟩, hmissing, hcreated⟩)⟩

theorem Prepares.set_leaf (h : Prepares disk d) {node : Option (Node Attrs)}
    (hnode : onward (disk.files (stagePlace 4)) = .into → onward node = .into) :
    Prepared disk.files (d.files.set (stagePlace 4) node) := by
  intro place
  by_cases hplace : place = stagePlace 4
  · subst hplace
    rw [FileTree.set_self]
    exact Or.inr (Or.inr ⟨rfl, hnode⟩)
  · rw [FileTree.set_of_ne hplace]
    exact h.files place

theorem Prepares.act_leaf (h : Prepares disk d) :
    Prepares disk (d.act action 4 (.dir attrs)) :=
  ⟨h.set_leaf fun _ => rfl, h.touched.append ⟨rfl, Or.inl rfl⟩, h.early⟩

end Prepares

/-! ## Calls below safe directories -/

section Calls

variable {n : Nat} {answer : Except IoError Unit} {attrs : Attrs}

theorem touch_eq_act (hdown : SafeDown d.files n) (hn : n ≤ 5) {action : Action} {follow : Bool}
    {node : Node Attrs} (hlink : ∀ target, d.files (stagePlace n) ≠ some (.link target)) :
    d.touch action follow (names (stagePath n)) (d.files.set (stagePlace n) (some node)) =
      d.act action n node := by
  have hlocate : d.files.locate follow (names (stagePath n)) = some (stagePlace n) := by
    cases follow with
    | false => exact hdown.locate hn
    | true => exact hdown.locate_true hn hlink
  rw [Stage.touch, Stage.act, hlocate, hdown.isStraight hn hlink]
  rfl

/-- A directory is made where nothing is. -/
theorem changes_createDir (hdown : SafeDown d.files n) (hn : n ≤ 5)
    (h : Changes d .created false (names (stagePath n)) (d.files.mkdir attrs (names (stagePath n)))
      answer d') :
    (d.files (stagePlace n) = none ∧ 0 < n ∧ answer = .ok () ∧
        d' = d.act .created n (.dir attrs)) ∨
      ((d.files (stagePlace n) ≠ none ∨ n = 0) ∧ answer ≠ .ok () ∧ d' = d) := by
  rcases changes_cases h with ⟨files, hmkdir, rfl, rfl⟩ | ⟨hmkdir, herror, rfl⟩
  · obtain ⟨place, hvacancy, rfl⟩ := FileTree.mkdir_eq_some_iff.mp hmkdir
    obtain ⟨hlocate, hne, hnone⟩ := FileTree.vacancy_eq_some_iff.mp hvacancy
    obtain rfl := Option.some.inj ((hdown.locate hn).symm.trans hlocate)
    have hpositive : 0 < n := by
      rw [Nat.pos_iff_ne_zero]
      rintro rfl
      exact hne rfl
    refine Or.inl ⟨hnone, hpositive, rfl, touch_eq_act hdown hn fun target => ?_⟩
    rw [hnone]
    exact nofun
  · refine Or.inr ⟨?_, herror, rfl⟩
    by_contra hboth
    rw [not_or, not_not] at hboth
    have hne : stagePlace n ≠ [] := by
      intro hnil
      have := length_stagePlace hn
      rw [hnil, List.length_nil] at this
      omega
    have hvacancy := FileTree.vacancy_eq_some_iff.mpr ⟨hdown.locate hn, hne, hboth.1⟩
    rw [FileTree.mkdir_eq_some_iff.mpr ⟨_, hvacancy, rfl⟩] at hmkdir
    cases hmkdir

theorem changes_setAttrs_dir (hdown : SafeDown d.files n) (hn : n ≤ 5) {action : Action}
    {update : Attrs → Attrs} (hdir : d.files (stagePlace n) = some (.dir attrs))
    (h : Changes d action true (names (stagePath n))
      (d.files.setAttrs update (names (stagePath n))) answer d') :
    answer = .ok () ∧ d' = d.act action n (.dir (update attrs)) := by
  have hlink : ∀ target, d.files (stagePlace n) ≠ some (.link target) := by
    intro target
    rw [hdir]
    simp
  rw [FileTree.setAttrs_of_dir (hdown.locate_true hn hlink) hdir] at h
  exact ⟨h.1, h.2.trans (touch_eq_act hdown hn hlink)⟩

theorem changes_setAttrs_file (hdown : SafeDown d.files n) (hn : n ≤ 5) {action : Action}
    {update : Attrs → Attrs} {bytes : List UInt8}
    (hfile : d.files (stagePlace n) = some (.file attrs bytes))
    (h : Changes d action true (names (stagePath n))
      (d.files.setAttrs update (names (stagePath n))) answer d') :
    answer = .ok () ∧ d' = d.act action n (.file (update attrs) bytes) := by
  have hlink : ∀ target, d.files (stagePlace n) ≠ some (.link target) := by
    intro target
    rw [hfile]
    simp
  rw [FileTree.setAttrs_of_file (hdown.locate_true hn hlink) hfile] at h
  exact ⟨h.1, h.2.trans (touch_eq_act hdown hn hlink)⟩

end Calls

/-! ## Readying the directory -/

/-- No call may break. -/
def Calm (mayBreak : Bool → Prop) : Prop := ∀ late, ¬mayBreak late

section Prepare

variable {disk : Disk} {n : Nat}

theorem not_calm {late : Bool} (h : mayBreak late) : ¬Calm mayBreak :=
  fun hcalm => hcalm late h

/-- Making a directory below safe ones. -/
theorem exec_createDir {answer : Except IoError Unit} (hdown : SafeDown d.files n) (hn : n ≤ 5)
    (h : Exec (StageAnswers exe mayBreak) d (stageCall (.createDir (stagePath n))) answer d') :
    (d.files (stagePlace n) = none ∧ 0 < n ∧ answer = .ok () ∧
        ∃ mode, d' = d.act .created n (.dir ⟨0, mode⟩)) ∨
      (answer ≠ .ok () ∧ d' = d ∧ (Calm mayBreak → d.files (stagePlace n) ≠ none ∨ n = 0)) := by
  rcases stageAnswers_cases (exec_query_iff.mp h) StageCall.noConfusion with
    ⟨mode, hchanges⟩ | ⟨hmay, herror, rfl⟩
  · rcases changes_createDir hdown hn hchanges with ⟨hnone, hpos, hok, hact⟩ | ⟨hnode, herror, rfl⟩
    · exact Or.inl ⟨hnone, hpos, hok, mode, hact⟩
    · exact Or.inr ⟨herror, rfl, fun _ => hnode⟩
  · exact Or.inr ⟨herror, rfl, fun hcalm => absurd hcalm (not_calm hmay)⟩

/-- Giving a directory below safe ones to root, with the mode of the source. -/
theorem exec_own_dir {answer : Except IoError Unit} {attrs : Attrs} (hdown : SafeDown d.files n)
    (hn : n ≤ 5) (hdir : d.files (stagePlace n) = some (.dir attrs))
    (h : Exec (StageAnswers exe mayBreak) d ((stageCall (.chown (stagePath n))).andThen
      fun _ => stageCall (.setMode (stagePath n) 0o755)) answer d') :
    (answer = .ok () ∧ d' = (d.act .chowned n (.dir ⟨0, attrs.mode⟩)).act .chmodded n
        (.dir ⟨0, 0o755⟩)) ∨
      (answer ≠ .ok () ∧ ¬Calm mayBreak ∧
        (d' = d ∨ d' = d.act .chowned n (.dir ⟨0, attrs.mode⟩))) := by
  rcases exec_andThen_iff.mp h with ⟨e, hchown, rfl⟩ | ⟨⟨⟩, d₁, hchown, hsetMode⟩
  · rcases stageAnswers_cases (exec_query_iff.mp hchown) StageCall.noConfusion with
      hchanges | ⟨hmay, -, rfl⟩
    · cases (changes_setAttrs_dir hdown hn hdir hchanges).1
    · exact Or.inr ⟨nofun, not_calm hmay, Or.inl rfl⟩
  · rcases stageAnswers_cases (exec_query_iff.mp hchown) StageCall.noConfusion with
      hchanges | ⟨-, herror, -⟩
    · obtain ⟨-, rfl⟩ := changes_setAttrs_dir hdown hn hdir hchanges
      rcases stageAnswers_cases (exec_query_iff.mp hsetMode) StageCall.noConfusion with
        hchanges | ⟨hmay, herror, rfl⟩
      · exact Or.inl (changes_setAttrs_dir (hdown.act hn _ _) hn (Stage.act_self ..) hchanges)
      · exact Or.inr ⟨herror, not_calm hmay, Or.inr rfl⟩
    · exact absurd rfl herror

/-- A directory with the mode of the source is safe. -/
theorem safeDir_set (files : FileTree Attrs) (place : Names) :
    SafeDir (files.set place (some (.dir ⟨0, 0o755⟩))) place :=
  ⟨⟨0, 0o755⟩, FileTree.set_self .., by decide⟩

/-- A directory of the prefix that is missing is made, and given to root. -/
theorem exec_createOwned {result : Except IoError Unit} (hn : n < 3)
    (hprepares : Prepares disk d) (hdown : SafeDown d.files (n + 1))
    (h : Exec (StageAnswers exe mayBreak) d (createOwned (stagePath (n + 1))) result d') :
    Prepares disk d' ∧
      (result = .ok () → SafeDown d'.files (n + 2) ∧
        ∀ place ≠ stagePlace (n + 1), d'.files place = d.files place) ∧
      (result ≠ .ok () → Calm mayBreak → d.files (stagePlace (n + 1)) ≠ none) := by
  rcases exec_andThen_iff.mp h with ⟨e, hcreate, rfl⟩ | ⟨⟨⟩, d₁, hcreate, hrest⟩
  · rcases exec_createDir hdown (by omega) hcreate with ⟨-, -, hok, -⟩ | ⟨-, rfl, hcalm⟩
    · cases hok
    · refine ⟨hprepares, nofun, fun _ h => (hcalm h).resolve_right (by omega)⟩
  · rcases exec_createDir hdown (by omega) hcreate with ⟨hnone, -, -, mode, rfl⟩ | ⟨herror, -⟩
    · have hmissing := hprepares.missing hn hnone
      have hcreated : Prepares disk (d.act .created (n + 1) (.dir ⟨0, mode⟩)) :=
        hprepares.act_dir hn hmissing (List.mem_append_right _ (List.mem_singleton_self _))
      have hentry : ⟨.created, stagePlace (n + 1), true⟩ ∈
          (d.act .created (n + 1) (.dir ⟨0, mode⟩)).touched :=
        List.mem_append_right _ (List.mem_singleton_self _)
      have hchowned : Prepares disk ((d.act .created (n + 1) (.dir ⟨0, mode⟩)).act .chowned (n + 1)
          (.dir ⟨0, mode⟩)) :=
        hcreated.act_dir hn hmissing (List.mem_append_left _ hentry)
      have hdown₁ := hdown.act (by omega) .created (.dir ⟨0, mode⟩)
      rcases exec_own_dir hdown₁ (by omega) (Stage.act_self ..) hrest with
        ⟨rfl, rfl⟩ | ⟨herror, hcalm, rfl | rfl⟩
      · refine ⟨hchowned.act_dir hn hmissing (List.mem_append_left _ (List.mem_append_left _ hentry)),
          fun _ => ⟨?_, fun place hplace => ?_⟩, fun hne => absurd rfl hne⟩
        · have hdown₂ := hdown₁.act (by omega) .chowned (.dir ⟨0, mode⟩)
          exact (hdown₂.act (by omega) .chmodded (.dir ⟨0, 0o755⟩)).succ (safeDir_set _ _)
        · simp only [Stage.act_files, FileTree.set_of_ne hplace]
      · exact ⟨hcreated, fun hok => absurd hok herror, fun _ h => absurd h hcalm⟩
      · exact ⟨hchowned, fun hok => absurd hok herror, fun _ h => absurd h hcalm⟩
    · exact absurd rfl herror

/-- The paths of the prefix, from the root. -/
def prefixPaths : List Str := (List.range 4).map stagePath

theorem exec_collectMissing {paths missing : List Str}
    (h : Exec (StageAnswers exe mayBreak) d (collectMissing paths) missing d') :
    d' = d ∧ ∃ rest, paths = missing ++ rest ∧
      (∀ path ∈ rest.head?, d.files.isPresent (names path) = true) ∧
      (Calm mayBreak → ∀ path ∈ missing, d.files.isPresent (names path) = false) := by
  induction paths generalizing d missing with
  | nil =>
      obtain ⟨rfl, rfl⟩ := exec_ret_iff.mp h
      exact ⟨rfl, [], rfl, nofun, fun _ => List.forall_mem_nil _⟩
  | cons current paths ih =>
      obtain ⟨present, d₁, hcall, hrest⟩ := exec_bind_iff.mp h
      have hanswer := stageAnswers_cases (exec_query_iff.mp hcall) StageCall.noConfusion
      have hsame : d₁ = d := by
        rcases hanswer with hworks | ⟨-, hbreaks⟩
        · exact hworks.2
        · exact hbreaks.2
      subst hsame
      cases present with
      | true =>
          obtain ⟨rfl, rfl⟩ := exec_ret_iff.mp hrest
          refine ⟨rfl, current :: paths, rfl, fun path hpath => ?_, fun _ => List.forall_mem_nil _⟩
          cases hpath
          rcases hanswer with hworks | ⟨-, hbreaks⟩
          · exact hworks.1.symm
          · cases hbreaks.1
      | false =>
          obtain ⟨more, d₂, hmore, hret⟩ := exec_bind_iff.mp hrest
          obtain ⟨rfl, rfl⟩ := exec_ret_iff.mp hret
          obtain ⟨rfl, rest, rfl, hpresent, hmissing⟩ := ih hmore
          refine ⟨rfl, rest, rfl, hpresent, fun hcalm => List.forall_mem_cons.mpr ⟨?_, hmissing hcalm⟩⟩
          rcases hanswer with hworks | ⟨hmay, -⟩
          · exact hworks.1.symm
          · exact absurd hcalm (not_calm hmay)

theorem prefixPaths_drop {j : Nat} (hj : j < 4) :
    prefixPaths.drop j = stagePath j :: prefixPaths.drop (j + 1) := by
  have hlength : prefixPaths.length = 4 := rfl
  rw [List.drop_eq_getElem_cons (by omega)]
  simp [prefixPaths]

/-- The root is never made. -/
theorem exec_createOwned_root {result : Except IoError Unit}
    (h : Exec (StageAnswers exe mayBreak) d (createOwned (stagePath 0)) result d') :
    d' = d ∧ result ≠ .ok () := by
  have hzero : SafeDown d.files 0 := fun i hi => absurd hi (Nat.not_lt_zero i)
  rcases exec_andThen_iff.mp h with ⟨e, hcreate, rfl⟩ | ⟨⟨⟩, d₁, hcreate, -⟩
  · rcases exec_createDir hzero (by omega) hcreate with ⟨-, hpos, -⟩ | ⟨-, rfl, -⟩
    · cases hpos
    · exact ⟨rfl, nofun⟩
  · rcases exec_createDir hzero (by omega) hcreate with ⟨-, hpos, -⟩ | ⟨herror, -⟩
    · cases hpos
    · exact absurd rfl herror

/-- The missing directories are made from the top down. -/
theorem exec_createEach {result : Except IoError Unit} {j : Nat} (hj : j ≤ 4)
    (hprepares : Prepares disk d) (hdown : SafeDown d.files j)
    (hmissing : Calm mayBreak → 0 < j ∧ ∀ i < 4, j ≤ i → d.files (stagePlace i) = none)
    (h : Exec (StageAnswers exe mayBreak) d (Prog.tryEach createOwned (prefixPaths.drop j))
      result d') :
    Prepares disk d' ∧ (result = .ok () → SafeDown d'.files 4) ∧
      (result ≠ .ok () → ¬Calm mayBreak) := by
  induction hk : 4 - j generalizing j d with
  | zero =>
      obtain rfl : j = 4 := by omega
      obtain ⟨rfl, rfl⟩ := exec_ret_iff.mp h
      exact ⟨hprepares, fun _ => hdown, fun hne => absurd rfl hne⟩
  | succ k ih =>
      rw [prefixPaths_drop (by omega)] at h
      cases j with
      | zero =>
          rcases exec_andThen_iff.mp h with ⟨e, hroot, rfl⟩ | ⟨⟨⟩, d₁, hroot, -⟩
          · obtain ⟨rfl, -⟩ := exec_createOwned_root hroot
            exact ⟨hprepares, nofun, fun _ hcalm => absurd (hmissing hcalm).1 (by omega)⟩
          · exact absurd rfl (exec_createOwned_root hroot).2
      | succ n =>
          rcases exec_andThen_iff.mp h with ⟨e, hcreate, rfl⟩ | ⟨⟨⟩, d₁, hcreate, hrest⟩
          · obtain ⟨hprepares', -, hnode⟩ := exec_createOwned (by omega) hprepares hdown hcreate
            refine ⟨hprepares', nofun, fun _ hcalm => hnode nofun hcalm ?_⟩
            exact (hmissing hcalm).2 (n + 1) (by omega) le_rfl
          · obtain ⟨hprepares', hok, -⟩ := exec_createOwned (by omega) hprepares hdown hcreate
            obtain ⟨hdown', hframe⟩ := hok rfl
            refine ih (by omega) hprepares' hdown' (fun hcalm => ⟨by omega, fun i hi hji => ?_⟩)
              hrest (by omega)
            rw [hframe]
            · exact (hmissing hcalm).2 i hi (by omega)
            · intro heq
              have := stagePlace_inj (by omega) (by omega) heq
              omega

/-- Below a missing place of a tree everything is missing. -/
theorem missing_below {files : FileTree Attrs} (htree : files.IsTree) {m : Nat} (hnm : n ≤ m)
    (hm : m ≤ 5) (hnone : files (stagePlace n) = none) : files (stagePlace m) = none := by
  induction m, hnm using Nat.le_induction with
  | base => exact hnone
  | succ m hnm ih =>
      obtain ⟨name, hname⟩ := stagePlace_succ (show m < 5 by omega)
      by_contra hnode
      rw [hname] at hnode
      obtain ⟨attrs, hdir⟩ := htree.parent hnode
      rw [ih (by omega)] at hdir
      cases hdir

/-- What is collected are the paths from one place on, and the one before it exists. -/
theorem exec_collectPrefix {missing : List Str}
    (h : Exec (StageAnswers exe mayBreak) d (collectMissing prefixPaths.reverse) missing d') :
    d' = d ∧ ∃ j ≤ 4, missing.reverse = prefixPaths.drop j ∧
      (0 < j → d.files.isPresent (names (stagePath (j - 1))) = true) ∧
      (Calm mayBreak → ∀ i < 4, j ≤ i → d.files.isPresent (names (stagePath i)) = false) := by
  obtain ⟨rfl, rest, hpaths, hpresent, hmissing⟩ := exec_collectMissing h
  have hreverse : prefixPaths = rest.reverse ++ missing.reverse := by
    rw [← List.reverse_append, ← hpaths, List.reverse_reverse]
  have hlength : rest.length ≤ 4 := by
    have hfour : prefixPaths.length = 4 := rfl
    have hle := congrArg List.length hreverse
    rw [hfour, List.length_append, List.length_reverse] at hle
    omega
  have hdrop : missing.reverse = prefixPaths.drop rest.length := by
    rw [hreverse, ← List.length_reverse, List.drop_left]
  refine ⟨rfl, rest.length, hlength, hdrop, fun hpos => ?_, fun hcalm i hi hji => ?_⟩
  · apply hpresent
    have htake : rest.reverse = prefixPaths.take rest.length := by
      rw [hreverse, ← List.length_reverse, List.take_left]
    have hlast := congrArg List.getLast? htake
    rw [List.getLast?_reverse, List.getLast?_take] at hlast
    rw [Option.mem_def, hlast, if_neg (by omega)]
    have hbound : rest.length - 1 < 4 := by omega
    have hget : ∀ k < 4, prefixPaths[k]? = some (stagePath k) := by decide
    rw [hget _ hbound]
    rfl
  · apply hmissing hcalm
    rw [← List.mem_reverse, hdrop]
    have hget : prefixPaths[i]? = some (stagePath i) := by
      have hall : ∀ k < 4, prefixPaths[k]? = some (stagePath k) := by decide
      exact hall i hi
    rw [List.mem_iff_getElem?]
    refine ⟨i - rest.length, ?_⟩
    rw [List.getElem?_drop, Nat.add_sub_cancel' hji]
    exact hget

/-- After the missing directories are made, the prefix is safe directories, or a
file is in it, which was there before. -/
theorem exec_createMissing {result : Except IoError Unit} (hsafe : PrefixSafe disk.files)
    (h : Exec (StageAnswers exe mayBreak) disk.start (createMissingIntermediates linuxProgramDir)
      result d') :
    Prepares disk d' ∧
      (result = .ok () → SafeDown d'.files 4 ∨
        (d' = disk.start ∧ SafeDown disk.files 3 ∧ FileInPrefix disk.files)) ∧
      (result ≠ .ok () → ¬Calm mayBreak) := by
  have htarget : (parent linuxProgramDir).getD linuxProgramDir = stagePath 3 := by decide
  have hancestors : ancestors (stagePath 3) = prefixPaths.reverse := by decide
  -- When the last directory is seen, there is a safe directory or a file.
  have hseen : disk.files.isPresent (names (stagePath 3)) = true →
      SafeDown disk.files 4 ∨
        (disk.start = disk.start ∧ SafeDown disk.files 3 ∧ FileInPrefix disk.files) := by
    intro hpresent
    rcases hsafe with hdown | ⟨n, hn, hdown, hnone⟩ | hfile
    · exact Or.inl hdown
    · rw [hdown.not_isPresent (by omega) (by omega) hnone] at hpresent
      cases hpresent
    · exact Or.inr ⟨rfl, hfile⟩
  have hstart := prepares_start disk
  rw [createMissingIntermediates, htarget] at h
  obtain ⟨present, d₁, hcall, hrest⟩ := exec_bind_iff.mp h
  have hanswer := stageAnswers_cases (exec_query_iff.mp hcall) StageCall.noConfusion
  have hsame : d₁ = disk.start := by
    rcases hanswer with hworks | ⟨-, hbreaks⟩
    · exact hworks.2
    · exact hbreaks.2
  subst hsame
  cases present with
  | true =>
      obtain ⟨rfl, rfl⟩ := exec_ret_iff.mp hrest
      refine ⟨hstart, fun _ => hseen ?_, fun hne => absurd rfl hne⟩
      rcases hanswer with hworks | ⟨-, hbreaks⟩
      · exact hworks.1.symm
      · cases hbreaks.1
  | false =>
      obtain ⟨missing, d₂, hcollect, hrest⟩ := exec_bind_iff.mp hrest
      rw [hancestors] at hcollect
      obtain ⟨rfl, j, hj, hmissing, hpresent, hcalm⟩ := exec_collectPrefix hcollect
      rw [hmissing] at hrest
      rcases Nat.lt_or_ge j 4 with hlt | hge
      · -- What is collected begins at or above the first missing directory.
        have hdown : SafeDown disk.files j := by
          rcases hsafe with hdown | ⟨n, hn, hdown, hnone⟩ | ⟨hdown, -⟩
          · exact hdown.mono hj
          · refine hdown.mono ?_
            by_contra hgt
            have := hpresent (by omega)
            rw [Disk.start, hdown.not_isPresent (by omega) (by omega) hnone] at this
            cases this
          · exact hdown.mono (by omega)
        have hnone : Calm mayBreak →
            0 < j ∧ ∀ i < 4, j ≤ i → disk.files (stagePlace i) = none := by
          intro hquiet
          have habsent := hcalm hquiet
          -- A safe directory would have been seen.
          have hnotSafe : ∀ i < 4, j ≤ i → ¬SafeDown disk.files (i + 1) := by
            intro i hi hji hdown'
            obtain ⟨attrs, hdir, -⟩ := hdown' i (by omega)
            have hpresent := (hdown'.mono (Nat.le_succ i)).isPresent (by omega) fun target => by
              rw [hdir]
              exact nofun
            rw [hdir, Option.isSome_some, Bool.or_true] at hpresent
            rw [Disk.start] at habsent
            exact absurd (hpresent.symm.trans (habsent i hi hji)) (by decide)
          rcases hsafe with hdown' | ⟨n, hn, hdown', hnone⟩ | ⟨hdown', attrs, bytes, hfile, -⟩
          · exact absurd (hdown'.mono (by omega)) (hnotSafe j hlt le_rfl)
          · have hle : n + 1 ≤ j := by
              by_contra hgt
              exact hnotSafe j hlt le_rfl (hdown'.mono (by omega))
            refine ⟨by omega, fun i hi hji => ?_⟩
            exact missing_below disk.isTree (by omega) (by omega) hnone
          · have hpresent := hdown'.isPresent (by omega) fun target => by
              rw [hfile]
              exact nofun
            rw [hfile, Option.isSome_some, Bool.or_true] at hpresent
            rw [Disk.start] at habsent
            exact absurd (hpresent.symm.trans (habsent 3 (by omega) (by omega))) (by decide)
        obtain ⟨hprepares, hok, herror⟩ := exec_createEach hj hstart hdown hnone hrest
        exact ⟨hprepares, fun h => Or.inl (hok h), herror⟩
      · obtain rfl : j = 4 := by omega
        obtain ⟨rfl, rfl⟩ := exec_ret_iff.mp hrest
        exact ⟨hstart, fun _ => hseen (hpresent (by omega)), fun hne => absurd rfl hne⟩

/-- What squats the last place is unlinked. -/
theorem exec_unlinkLeaf {answer : Except IoError Unit} (hdown : SafeDown d.files 4)
    {node : Node Attrs} (hnode : d.files (stagePlace 4) = some node)
    (hinto : onward (some node) ≠ .into)
    (h : Exec (StageAnswers exe mayBreak) d (stageCall (.removeFile linuxProgramDir)) answer d') :
    (answer = .ok () ∧ d' = { d with files := d.files.set (stagePlace 4) none }) ∨
      (answer ≠ .ok () ∧ d' = d ∧ ¬Calm mayBreak) := by
  have hother : StageCall.removeFile linuxProgramDir ≠ .removeFile linuxProgramDest := by decide
  have hremove : d.files.removeFile (names linuxProgramDir) =
      some (d.files.set (stagePlace 4) none) :=
    FileTree.removeFile_of_not_into (hdown.locate (by omega)) hnode hinto
  rcases stageAnswers_cases (exec_query_iff.mp h) hother with hworks | ⟨hmay, herror, rfl⟩
  · simp only [Works, hremove] at hworks
    exact Or.inl hworks
  · exact Or.inr ⟨herror, rfl, not_calm hmay⟩

/-- The last directory is made where nothing is. -/
theorem exec_createLeaf {answer : Except IoError Unit} (hprepares : Prepares disk d)
    (hdown : SafeDown d.files 4) (hnone : d.files (stagePlace 4) = none)
    (h : Exec (StageAnswers exe mayBreak) d (stageCall (.createDir linuxProgramDir)) answer d') :
    Prepares disk d' ∧
      (answer = .ok () → SafeDown d'.files 4 ∧ ∃ attrs, d'.files (stagePlace 4) = some (.dir attrs)) ∧
      (answer ≠ .ok () → ¬Calm mayBreak) := by
  rcases exec_createDir hdown (by omega) h with ⟨-, -, rfl, mode, rfl⟩ | ⟨herror, rfl, hnode⟩
  · exact ⟨hprepares.act_leaf, fun _ => ⟨hdown.act (by omega) _ _, _, Stage.act_self ..⟩,
      fun hne => absurd rfl hne⟩
  · refine ⟨hprepares, fun hok => absurd hok herror, fun _ hcalm => ?_⟩
    rcases hnode hcalm with hnode | hzero
    · exact hnode hnone
    · cases hzero

theorem exec_ensureRealLeafDir {result : Except IoError Unit} (hprepares : Prepares disk d)
    (hdown : SafeDown d.files 4)
    (h : Exec (StageAnswers exe mayBreak) d (ensureRealLeafDir linuxProgramDir) result d') :
    Prepares disk d' ∧
      (result = .ok () → SafeDown d'.files 4 ∧ ∃ attrs, d'.files (stagePlace 4) = some (.dir attrs)) ∧
      (result ≠ .ok () → ¬Calm mayBreak) := by
  obtain ⟨answer, d₁, hcall, hrest⟩ := exec_bind_iff.mp h
  obtain ⟨rfl, hanswer⟩ := stageAnswers_lstat (exec_query_iff.mp hcall)
  cases answer with
  | error e =>
      rcases hanswer with hlstat | ⟨hmay, e', he, hkind⟩
      · obtain ⟨hnone, hkind⟩ := (hdown.lstat_iff (by omega) _).mp hlstat
        simp only [hkind, if_true] at hrest
        exact exec_createLeaf hprepares hdown hnone hrest
      · cases he
        simp only [hkind, if_false] at hrest
        obtain ⟨rfl, rfl⟩ := exec_ret_iff.mp hrest
        exact ⟨hprepares, nofun, fun _ => not_calm hmay⟩
  | ok stat =>
      rcases hanswer with hlstat | ⟨-, e', he, -⟩
      · have hstat := (hdown.lstat_iff (by omega) _).mp hlstat
        -- Whatever is there and no directory is unlinked first.
        have hsquatter : ∀ node, d₁.files (stagePlace 4) = some node →
            onward (some node) ≠ .into → stat.fileType ≠ .dir →
            Prepares disk d' ∧ (result = .ok () → SafeDown d'.files 4 ∧
              ∃ attrs, d'.files (stagePlace 4) = some (.dir attrs)) ∧
              (result ≠ .ok () → ¬Calm mayBreak) := by
          intro node hnode hinto htype
          simp only [htype, if_false] at hrest
          rcases exec_andThen_iff.mp hrest with ⟨e, hremove, rfl⟩ | ⟨⟨⟩, d₂, hremove, hcreate⟩
          · rcases exec_unlinkLeaf hdown hnode hinto hremove with ⟨hok, -⟩ | ⟨-, rfl, hcalm⟩
            · cases hok
            · exact ⟨hprepares, nofun, fun _ => hcalm⟩
          · rcases exec_unlinkLeaf hdown hnode hinto hremove with ⟨-, rfl⟩ | ⟨herror, -⟩
            · have hbefore : onward (disk.files (stagePlace 4)) ≠ .into := by
                intro hdir
                rcases hprepares.files (stagePlace 4) with hsame | ⟨-, hmissing, -⟩ | ⟨-, hkept⟩
                · rw [← hsame, hnode] at hdir
                  exact hinto hdir
                · rw [hmissing] at hdir
                  cases hdir
                · have := hkept hdir
                  rw [hnode] at this
                  exact hinto this
              have hprepares₂ : Prepares disk
                  { d₁ with files := d₁.files.set (stagePlace 4) none } :=
                ⟨hprepares.set_leaf fun hdir => absurd hdir hbefore, hprepares.touched,
                  hprepares.early⟩
              have hvacant : (d₁.files.set (stagePlace 4) none) (stagePlace 4) = none :=
                FileTree.set_self ..
              exact exec_createLeaf hprepares₂ (hdown.set (by omega) le_rfl _) hvacant hcreate
            · exact absurd rfl herror
        cases hnode : d₁.files (stagePlace 4) with
        | none =>
            simp only [hnode] at hstat
            cases hstat
        | some node =>
            simp only [hnode] at hstat
            cases node with
            | file attrs bytes =>
                obtain rfl := hstat
                exact hsquatter _ hnode Onward.noConfusion FileType.noConfusion
            | link target =>
                refine hsquatter _ hnode Onward.noConfusion ?_
                rw [hstat.2]
                exact FileType.noConfusion
            | dir attrs =>
                obtain rfl := hstat
                obtain ⟨rfl, rfl⟩ := exec_ret_iff.mp hrest
                exact ⟨hprepares, fun _ => ⟨hdown, attrs, hnode⟩, fun hne => absurd rfl hne⟩
      · cases he

/-- Below a file there is no last directory. -/
theorem exec_ensureRealLeafDir_file {result : Except IoError Unit} (hdown : SafeDown d.files 3)
    (hfile : FileInPrefix d.files)
    (h : Exec (StageAnswers exe mayBreak) d (ensureRealLeafDir linuxProgramDir) result d') :
    d' = d ∧ result ≠ .ok () := by
  obtain ⟨answer, d₁, hcall, hrest⟩ := exec_bind_iff.mp h
  obtain ⟨rfl, hanswer⟩ := stageAnswers_lstat (exec_query_iff.mp hcall)
  obtain ⟨attrs, bytes, hnode, -⟩ := hfile
  have herror : ∃ e, answer = .error e ∧ e.kind ≠ .notFound := by
    rcases hanswer with hlstat | ⟨-, hbreaks⟩
    · obtain ⟨e, rfl, hkind⟩ := hdown.lstat_below (by omega) (show 3 < 4 by omega)
        (by rw [hnode]; rfl) hlstat
      refine ⟨e, rfl, fun hnotFound => ?_⟩
      rw [hkind.mpr hnotFound] at hnode
      cases hnode
    · exact hbreaks
  obtain ⟨e, rfl, hkind⟩ := herror
  simp only [hkind, if_false] at hrest
  obtain ⟨rfl, rfl⟩ := exec_ret_iff.mp hrest
  exact ⟨rfl, nofun⟩

/-- When the directory is readied, everything down to it is a directory of root. -/
theorem exec_prepareProgramDir {result : Except IoError Unit}
    (h : Exec (StageAnswers exe mayBreak) disk.start prepareProgramDir result d') :
    Prepares disk d' ∧ (result = .ok () → SafeDown d'.files 5) ∧
      (result ≠ .ok () → Calm mayBreak → PrefixSafe disk.files → FileInPrefix disk.files) := by
  have hstart := prepares_start disk
  rcases exec_andThen_iff.mp h with ⟨e, hpre, rfl⟩ | ⟨⟨⟩, d₁, hpre, hrest⟩
  · obtain ⟨rfl, ⟨hok, -⟩ | ⟨-, hbroken⟩⟩ := exec_ensurePrefix disk.isTree hpre
    · cases hok
    · refine ⟨hstart, nofun, fun _ hcalm hsafe => ?_⟩
      rcases hbroken with hmay | hnotSafe
      · exact absurd hcalm (not_calm hmay)
      · exact absurd hsafe hnotSafe
  obtain ⟨rfl, ⟨-, hsafe⟩ | ⟨herror, -⟩⟩ := exec_ensurePrefix disk.isTree hpre
  swap
  · exact absurd rfl herror
  rcases exec_andThen_iff.mp hrest with ⟨e, hcreate, rfl⟩ | ⟨⟨⟩, d₂, hcreate, hrest⟩
  · obtain ⟨hprepares, -, hcalm⟩ := exec_createMissing hsafe hcreate
    exact ⟨hprepares, nofun, fun _ h => absurd h (hcalm nofun)⟩
  obtain ⟨hprepares₂, hok, -⟩ := exec_createMissing hsafe hcreate
  rcases hok rfl with hdown | ⟨rfl, hdown, hfile⟩
  · rcases exec_andThen_iff.mp hrest with ⟨e, hleaf, rfl⟩ | ⟨⟨⟩, d₃, hleaf, hown⟩
    · obtain ⟨hprepares, -, hcalm⟩ := exec_ensureRealLeafDir hprepares₂ hdown hleaf
      exact ⟨hprepares, nofun, fun _ h => absurd h (hcalm nofun)⟩
    · obtain ⟨hprepares₃, hok, -⟩ := exec_ensureRealLeafDir hprepares₂ hdown hleaf
      obtain ⟨hdown₃, attrs, hdir⟩ := hok rfl
      rcases exec_own_dir hdown₃ (by omega) hdir hown with ⟨rfl, rfl⟩ | ⟨herror, hcalm, rfl | rfl⟩
      · refine ⟨hprepares₃.act_leaf.act_leaf, fun _ => ?_, fun hne => absurd rfl hne⟩
        have hdown₄ := hdown₃.act (by omega) .chowned (.dir ⟨0, attrs.mode⟩)
        exact (hdown₄.act (by omega) .chmodded (.dir ⟨0, 0o755⟩)).succ (safeDir_set _ _)
      · exact ⟨hprepares₃, fun hok => absurd hok herror, fun _ h => absurd h hcalm⟩
      · exact ⟨hprepares₃.act_leaf, fun hok => absurd hok herror, fun _ h => absurd h hcalm⟩
  · rcases exec_andThen_iff.mp hrest with ⟨e, hleaf, rfl⟩ | ⟨⟨⟩, d₃, hleaf, -⟩
    · obtain ⟨rfl, -⟩ := exec_ensureRealLeafDir_file hdown hfile hleaf
      exact ⟨hstart, nofun, fun _ _ _ => hfile⟩
    · exact absurd rfl (exec_ensureRealLeafDir_file hdown hfile hleaf).2

end Prepare

end DigDns
