import DigDns.OsConfig.Machine

/-!
# What a successful write leaves

When `atomic_write` succeeds away from Windows, the place of the path holds a
regular file with the content, whatever stood there, and nothing else has
changed: the temporary file is gone again.  When it fails, at most the temporary
file is left.
-/

namespace DigDns.OsConfig

open Rust Interaction Posix

/-- The calls that tell which resolver a machine has. -/
def Call.detects : Call → Bool
  | .readLink _ | .isDir _ => true
  | _ => false

section Writes

variable {ps : PowerShell} {m m' : Machine}
  {step : Machine → (q : Call) → Answer q → Machine → Prop}

variable (hstep : ∀ {m q r m'}, step m q r m' → q.detects = false → Answers ps m q r m')
include hstep

/-- The new file stands where its path makes a new entry. -/
theorem exec_writeNew_ok {tmp content : Str}
    (h : Exec step m (writeNew tmp content) (.ok ()) m') :
    ∃ file attrs, m.files.vacancy (names tmp) = some file ∧
      m' = { m with files := m.files.set file (some (.file attrs (utf8 content))) } := by
  obtain ⟨opened, m₁, hopened, hrest⟩ := exec_bind_iff.mp h
  have hnew := hstep (exec_query_iff.mp hopened) rfl
  cases opened with
  | error e => cases (exec_ret_iff.mp hrest).1
  | ok file =>
      obtain ⟨attrs, files, hcreated, rfl⟩ := hnew
      obtain ⟨hvacancy, rfl⟩ := FileTree.createNew_eq_some_iff.mp hcreated
      obtain ⟨written, m₂, hwritten, hrest⟩ := exec_bind_iff.mp hrest
      have hwrite := hstep (exec_query_iff.mp hwritten) rfl
      cases written with
      | error e => cases (exec_ret_iff.mp hrest).1
      | ok _ =>
          obtain ⟨bytes, -, rfl, hall⟩ := hwrite
          obtain rfl := hall rfl
          obtain rfl := hstep (exec_query_iff.mp hrest) rfl
          refine ⟨file, attrs, hvacancy, ?_⟩
          simp [FileTree.append, FileTree.set]

omit hstep in
/-- A new file that is renamed was nowhere in between. -/
theorem rename_new {files files' : FileTree Attrs} {tmp path file : Names} {node : Node Attrs}
    (hvacancy : files.vacancy tmp = some file) (hnode : onward (some node) = .stop)
    (h : (files.set file (some node)).rename tmp path = some files') :
    ∃ place, files.locate false path = some place ∧ onward (files place) ≠ .into ∧
      files' = files.set place (some node) := by
  obtain ⟨hlocate, -, hnone⟩ := FileTree.vacancy_eq_some_iff.mp hvacancy
  have hsight : onward (some node) = onward (files file) := by
    rw [hnode, hnone]
    rfl
  obtain ⟨old, place, moved, hold, hplace, hmoved, hinto, rfl⟩ := FileTree.rename_eq_some h
  rw [FileTree.locate_set hsight] at hold hplace
  obtain rfl := Option.some.inj (hlocate.symm.trans hold)
  rw [FileTree.set_self, Option.some.injEq] at hmoved
  subst hmoved
  refine ⟨place, hplace, ?_, ?_⟩
  · by_cases hfile : place = file
    · rw [hfile, ← hsight, hnode]
      exact Onward.noConfusion
    · rwa [FileTree.set_of_ne hfile] at hinto
  have hgone : (files.set file (some node)).set file none = files := by
    rw [FileTree.set, FileTree.set, Function.update_idem, ← hnone]
    exact Function.update_eq_self file files
  rw [hgone]

theorem exec_atomicWrite_ok {os : Os} {path content : Str} (hos : os ≠ .windows)
    (h : Exec step m (atomicWrite os path content) (.ok ()) m') :
    ∃ place attrs, m.files.locate false (names path) = some place ∧
      onward (m.files place) ≠ .into ∧
      m' = { m with files := m.files.set place (some (.file attrs (utf8 content))) } := by
  rw [atomicWrite, if_neg hos] at h
  split at h
  · cases (exec_ret_iff.mp h).1
  split at h
  · cases (exec_ret_iff.mp h).1
  obtain ⟨pid, m₁, hpid, hrest⟩ := exec_bind_iff.mp h
  obtain rfl : m₁ = m := hstep (exec_query_iff.mp hpid) rfl
  obtain ⟨written, m₂, hwritten, hrest⟩ := exec_bind_iff.mp hrest
  cases written with
  | error e => cases (exec_ret_iff.mp hrest).1
  | ok _ =>
      obtain ⟨file, attrs, hvacancy, rfl⟩ := exec_writeNew_ok hstep hwritten
      obtain ⟨renamed, m₃, hrenamed, hrest⟩ := exec_bind_iff.mp hrest
      have hrename := hstep (exec_query_iff.mp hrenamed) rfl
      cases renamed with
      | error e =>
          obtain ⟨_, _, -, hrest⟩ := exec_bind_iff.mp hrest
          cases (exec_ret_iff.mp hrest).1
      | ok _ =>
          obtain ⟨-, rfl⟩ := exec_ret_iff.mp hrest
          obtain ⟨files, hfiles, rfl⟩ := hrename
          obtain ⟨place, hplace, hinto, rfl⟩ := rename_new hvacancy rfl hfiles
          exact ⟨place, attrs, hplace, hinto, rfl⟩

end Writes

section Failures

variable {ps : PowerShell} {m m' : Machine}

/-- A new file that is not finished may be left. -/
theorem exec_writeNew_error {tmp content e : Str}
    (h : Exec (Answers ps) m (writeNew tmp content) (.error e) m') :
    m' = m ∨ ∃ file attrs bytes, m.files.vacancy (names tmp) = some file ∧
      m' = { m with files := m.files.set file (some (.file attrs bytes)) } := by
  obtain ⟨opened, m₁, hopened, hrest⟩ := exec_bind_iff.mp h
  have hnew := exec_query_iff.mp hopened
  cases opened with
  | error e =>
      obtain ⟨-, rfl⟩ := exec_ret_iff.mp hrest
      exact Or.inl hnew
  | ok file =>
      obtain ⟨attrs, files, hcreated, rfl⟩ := hnew
      obtain ⟨hvacancy, rfl⟩ := FileTree.createNew_eq_some_iff.mp hcreated
      obtain ⟨written, m₂, hwritten, hrest⟩ := exec_bind_iff.mp hrest
      obtain ⟨bytes, -, rfl, -⟩ := exec_query_iff.mp hwritten
      have happend : FileTree.append (m.files.set file (some (.file attrs []))) file bytes =
          m.files.set file (some (.file attrs bytes)) := by
        simp [FileTree.append, FileTree.set_set]
      refine Or.inr ⟨file, attrs, bytes, hvacancy, ?_⟩
      rw [← happend]
      cases written with
      | error e => exact (exec_ret_iff.mp hrest).2
      | ok _ => exact exec_query_iff.mp hrest

/-- Away from Windows, a failed `atomic_write` leaves at most its temporary file. -/
theorem exec_atomicWrite_error {os : Os} {path content dir name e : Str} (hos : os ≠ .windows)
    (hdir : parent path = some dir) (hname : fileName path = some name)
    (h : Exec (Answers ps) m (atomicWrite os path content) (.error e) m') :
    m' = m ∨ ∃ pid file attrs bytes,
      m.files.vacancy (names (tempPath dir name pid)) = some file ∧
        m' = { m with files := m.files.set file (some (.file attrs bytes)) } := by
  simp only [atomicWrite, if_neg hos, hdir, hname] at h
  obtain ⟨pid, m₁, hpid, hrest⟩ := exec_bind_iff.mp h
  obtain rfl : m₁ = m := exec_query_iff.mp hpid
  obtain ⟨written, m₂, hwritten, hrest⟩ := exec_bind_iff.mp hrest
  cases written with
  | error e =>
      obtain ⟨-, rfl⟩ := exec_ret_iff.mp hrest
      rcases exec_writeNew_error hwritten with hsame | ⟨file, attrs, bytes, hleft⟩
      · exact Or.inl hsame
      · exact Or.inr ⟨pid, file, attrs, bytes, hleft⟩
  | ok _ =>
      obtain ⟨file, attrs, hvacancy, rfl⟩ := exec_writeNew_ok (fun hstep _ => hstep) hwritten
      obtain ⟨renamed, m₃, hrenamed, hrest⟩ := exec_bind_iff.mp hrest
      cases renamed with
      | ok _ => cases (exec_ret_iff.mp hrest).1
      | error e =>
          obtain rfl : m₃ = _ := exec_query_iff.mp hrenamed
          obtain ⟨removed, m₄, hremoved, hrest⟩ := exec_bind_iff.mp hrest
          obtain ⟨-, rfl⟩ := exec_ret_iff.mp hrest
          have hremove := exec_query_iff.mp hremoved
          cases removed with
          | error e => exact Or.inr ⟨pid, file, attrs, _, hvacancy, hremove⟩
          | ok _ =>
              -- The temporary file is found where it was made, and taken away.
              obtain ⟨files, hfiles, rfl⟩ := hremove
              obtain ⟨place, hplace, -, rfl⟩ := FileTree.removeFile_eq_some hfiles
              obtain ⟨hlocate, -, hnone⟩ := FileTree.vacancy_eq_some_iff.mp hvacancy
              rw [FileTree.locate_set_file (by rw [hnone]; rfl), hlocate, Option.some.injEq] at hplace
              subst hplace
              refine Or.inl ?_
              rw [FileTree.set_set, ← hnone]
              exact congrArg (fun files => { m₁ with files }) (Function.update_eq_self file m₁.files)

end Failures

end DigDns.OsConfig
