import DigDns.OsConfig.Attempts
import DigDns.OsConfig.Uninstall
import DigDns.Support.Walks

/-!
# What a failed write leaves

`atomic_write` removes its temporary file when the rename fails, and only then.
A write or a sync that fails leaves the file behind, and the next attempt of the
same process runs into it.
-/

namespace DigDns.OsConfig

open Rust Interaction Posix

/-! ## All or nothing -/

/-- The answer tells that a new file stays where it was made. -/
def strands : (q : Call) → Answer q → Bool
  | .writeAll _ _, answer => !answer.isOk
  | .syncAll _, answer => !answer.isOk
  | .removeFile _, answer => !answer.isOk
  | _, _ => false

/-- The answer tells that the new file is renamed. -/
def installs : (q : Call) → Answer q → Bool
  | .rename _ _, answer => answer.isOk
  | _, _ => false

/-- The path leads to a regular file with the content. -/
def RealFile (files : FileTree Attrs) (path : Names) (content : Str) : Prop :=
  ∃ place attrs, files.locate false path = some place ∧
    files place = some (.file attrs (utf8 content))

/-- The path now leads to a regular file with the content, in the place of what stood
there; a link that stood there is gone, and no other entry changed. -/
def Installed (files files' : FileTree Attrs) (path : Names) (content : Str) : Prop :=
  RealFile files' path content ∧
    ∃ place, files.locate false path = some place ∧
      files'.locate false path = some place ∧ ∀ other, other ≠ place → files' other = files other

/-- After an error the files are as before, and after success the content is there. -/
def AllOrNothing (files files' : FileTree Attrs) (path : Names) (content : Str) :
    Except Str Unit → Prop
  | .error _ => files' = files
  | .ok _ => Installed files files' path content

/-- An error that leaves the files changed. -/
theorem not_allOrNothing {files files' : FileTree Attrs} {path : Names} {content : Str}
    {result : Except Str Unit} (hresult : result.isOk = false) (hfiles : files' ≠ files) :
    ¬AllOrNothing files files' path content result := by
  cases result with
  | ok _ => cases hresult
  | error e => exact hfiles

section Logged

variable {ps : PowerShell} {m m' : Machine} {path content tmp : Str}
  {out : Except Str Unit × List (Event Answer)}

/-- A new file that is put at the place of the path is found there exactly if the way to
it is direct. -/
theorem locate_set_iff_direct {files : FileTree Attrs} {path place : Names} {attrs : Attrs}
    {bytes : List UInt8} (hplace : files.locate false path = some place) :
    (files.set place (some (.file attrs bytes))).locate false path = some place ↔
      FileTree.Direct files path := by
  rw [FileTree.locate_set_file_eq]
  constructor
  · intro h other hother
    rw [hplace, Option.some.injEq] at hother
    rwa [← hother]
  · exact fun h => h place hplace

theorem installed_iff_direct {files : FileTree Attrs} {path place : Names} {attrs : Attrs}
    (hplace : files.locate false path = some place) :
    Installed files (files.set place (some (.file attrs (utf8 content)))) path content ↔
      FileTree.Direct files path := by
  have hdirect : (files.set place (some (.file attrs (utf8 content)))).locate false path =
      some place ↔ FileTree.Direct files path := locate_set_iff_direct hplace
  rw [← hdirect]
  constructor
  · rintro ⟨-, other, hother, hlocate, -⟩
    rw [hplace, Option.some.injEq] at hother
    rwa [← hother] at hlocate
  · intro h
    exact ⟨⟨place, attrs, h, FileTree.set_self _ _ _⟩, place, hplace, h,
      fun other hother => FileTree.set_of_ne hother⟩

/-- What a new file leaves: nothing, an entry that stays, or the whole content. -/
theorem exec_writeNew_logged (h : Exec (Answers ps) m (writeNew tmp content).logged out m') :
    ¬Has installs out.2 ∧
      ((out.1.isOk = false ∧ ¬Has strands out.2 ∧ m' = m) ∨
        (out.1.isOk = false ∧ Has strands out.2 ∧ m'.files ≠ m.files) ∨
        (out.1.isOk = true ∧ ¬Has strands out.2 ∧ ∃ file attrs,
          m.files.vacancy (names tmp) = some file ∧
            m' = { m with files := m.files.set file (some (.file attrs (utf8 content))) })) := by
  obtain ⟨opened, m₁, rest, hopened, hrest, rfl⟩ := exec_logged_bind_iff.mp h
  obtain ⟨answer, hnew, rfl⟩ := exec_logged_query_iff.mp hopened
  cases answer with
  | error e =>
      obtain ⟨rfl, rfl⟩ := exec_logged_ret_iff.mp hrest
      obtain rfl : m' = m := hnew
      simp [installs, strands]
  | ok file =>
      obtain ⟨attrs, files, hcreated, rfl⟩ := hnew
      obtain ⟨hvacancy, rfl⟩ := FileTree.createNew_eq_some_iff.mp hcreated
      have hnone := (FileTree.vacancy_eq_some_iff.mp hvacancy).2.2
      obtain ⟨written, m₂, last, hwritten, hlast, rfl⟩ := exec_logged_bind_iff.mp hrest
      obtain ⟨answer, ⟨bytes, -, rfl, hall⟩, rfl⟩ := exec_logged_query_iff.mp hwritten
      have happend : FileTree.append (m.files.set file (some (.file attrs []))) file bytes =
          m.files.set file (some (.file attrs bytes)) := by
        simp [FileTree.append, FileTree.set_set]
      have hstays : m.files.set file (some (.file attrs bytes)) ≠ m.files :=
        FileTree.set_some_ne hnone
      dsimp only at hlast
      rw [happend] at hlast
      cases answer with
      | error e =>
          obtain ⟨rfl, rfl⟩ := exec_logged_ret_iff.mp hlast
          simp [installs, strands, hstays]
      | ok _ =>
          obtain rfl := hall rfl
          obtain ⟨synced, hsync, rfl⟩ := exec_logged_query_iff.mp hlast
          obtain rfl : m' = _ := hsync
          cases synced with
          | error e => simp [installs, strands, hstays]
          | ok _ =>
              refine ⟨by simp [installs], Or.inr (Or.inr ⟨rfl, by simp [strands], ?_⟩)⟩
              exact ⟨file, attrs, hvacancy, rfl⟩

/-- Away from Windows, what a failed `atomic_write` leaves tells whether a new file was
stranded, and one that succeeds replaces what stood at the path. -/
theorem exec_atomicWrite_logged {os : Os} (hos : os ≠ .windows)
    (h : Exec (Answers ps) m (atomicWrite os path content).logged out m') :
    (out.1.isOk = false ∧ ¬Has installs out.2 ∧ (m'.files = m.files ↔ ¬Has strands out.2)) ∨
      (out.1.isOk = true ∧ Has installs out.2 ∧ ¬Has strands out.2 ∧ ∃ place attrs,
        m.files.locate false (names path) = some place ∧
          m'.files = m.files.set place (some (.file attrs (utf8 content)))) := by
  rw [atomicWrite, if_neg hos] at h
  split at h
  · obtain ⟨rfl, rfl⟩ := exec_logged_ret_iff.mp h
    simp
  split at h
  · obtain ⟨rfl, rfl⟩ := exec_logged_ret_iff.mp h
    simp
  obtain ⟨first, m₁, rest, hpid, hrest, rfl⟩ := exec_logged_bind_iff.mp h
  obtain ⟨pid, hsame, rfl⟩ := exec_logged_query_iff.mp hpid
  obtain rfl : m = m₁ := hsame.symm
  obtain ⟨written, m₂, last, hwritten, hlast, rfl⟩ := exec_logged_bind_iff.mp hrest
  obtain ⟨hplain, hnew⟩ := exec_writeNew_logged hwritten
  obtain ⟨result, log⟩ := written
  cases result with
  | error e =>
      obtain ⟨rfl, rfl⟩ := exec_logged_ret_iff.mp hlast
      rcases hnew with ⟨-, hnone, rfl⟩ | ⟨-, hstrands, hfiles⟩ | ⟨hok, -⟩
      · simp [installs, strands, hplain, hnone]
      · simp [installs, strands, hplain, hstrands, hfiles]
      · cases hok
  | ok _ =>
      rcases hnew with ⟨hfalse, -⟩ | ⟨hfalse, -⟩ | ⟨-, hnone, file, attrs, hvacancy, rfl⟩
      · cases hfalse
      · cases hfalse
      obtain ⟨-, -, hfree⟩ := FileTree.vacancy_eq_some_iff.mp hvacancy
      obtain ⟨renamed, m₃, tail, hrenamed, htail, rfl⟩ := exec_logged_bind_iff.mp hlast
      obtain ⟨answer, hrename, rfl⟩ := exec_logged_query_iff.mp hrenamed
      cases answer with
      | ok _ =>
          obtain ⟨rfl, rfl⟩ := exec_logged_ret_iff.mp htail
          obtain ⟨files, hfiles, rfl⟩ := hrename
          obtain ⟨place, hplace, -, rfl⟩ := rename_new hvacancy rfl hfiles
          refine Or.inr ⟨rfl, by simp [installs], by simpa [strands] using hnone, ?_⟩
          exact ⟨place, attrs, hplace, rfl⟩
      | error e =>
          obtain rfl : m₃ = _ := hrename
          obtain ⟨cleaned, m₄, final, hcleaned, hfinal, rfl⟩ := exec_logged_bind_iff.mp htail
          obtain ⟨removed, hremove, rfl⟩ := exec_logged_query_iff.mp hcleaned
          obtain ⟨rfl, rfl⟩ := exec_logged_ret_iff.mp hfinal
          have hsight : onward (some (.file attrs (utf8 content))) = onward (m.files file) := by
            rw [hfree]
            rfl
          cases removed with
          | error e =>
              obtain rfl : m' = _ := hremove
              simp [installs, strands, hplain, FileTree.set_some_ne hfree]
          | ok _ =>
              obtain ⟨files, hfiles, rfl⟩ := hremove
              obtain ⟨place, hplace, -, rfl⟩ := FileTree.removeFile_eq_some hfiles
              rw [FileTree.locate_set hsight,
                (FileTree.vacancy_eq_some_iff.mp hvacancy).1, Option.some.injEq] at hplace
              subst hplace
              have hgone : (m.files.set file (some (.file attrs (utf8 content)))).set file none =
                  m.files := by
                rw [FileTree.set_set, ← hfree]
                exact Function.update_eq_self file m.files
              simp [installs, strands, hplain, hnone, hgone]

end Logged

/-- Away from Windows `atomic_write` is all or nothing exactly if no write, sync or removal
of its new file fails, and the way to the path it writes is direct. -/
theorem atomicWrite_allOrNothing_iff (ps : PowerShell) (os : Os) (hos : os ≠ .windows)
    (path content : Str) (m m' : Machine) (out : Except Str Unit × List (Event Answer))
    (h : Exec (Answers ps) m (atomicWrite os path content).logged out m') :
    AllOrNothing m.files m'.files (names path) content out.1 ↔
      ¬Has strands out.2 ∧ (Has installs out.2 → FileTree.Direct m.files (names path)) := by
  obtain ⟨result, log⟩ := out
  rcases exec_atomicWrite_logged hos h with ⟨hfalse, hplain, hfiles⟩ |
    ⟨htrue, hinstalls, hnone, place, attrs, hplace, hfiles⟩
  · cases result with
    | ok _ => cases hfalse
    | error e => exact hfiles.trans ⟨fun hnone => ⟨hnone, fun h => absurd h hplain⟩, And.left⟩
  · cases result with
    | error e => cases htrue
    | ok _ =>
        have hinstalled : Installed m.files m'.files (names path) content ↔
            FileTree.Direct m.files (names path) := by
          rw [hfiles]
          exact installed_iff_direct hplace
        exact hinstalled.trans ⟨fun hdirect => ⟨hnone, fun _ => hdirect⟩, fun h => h.2 hinstalls⟩

/-- A machine whose disk is full: one byte of what is written still fits. -/
def fillUp (m : Machine) : (q : Call) → Answer q × Machine
  | .writeAll file bytes =>
      (.error "no space left on device".toList,
        { m with files := m.files.append file (bytes.take 1) })
  | q => serve m q

theorem answers_fillUp (m : Machine) (q : Call) :
    Answers PowerShell.reference m q (fillUp m q).1 (fillUp m q).2 := by
  cases q with
  | writeAll file bytes => exact ⟨bytes.take 1, List.take_prefix _ _, rfl, fun h => by cases h⟩
  | _ => exact answers_serve m _

/-- On a bare machine on which nothing fails a file is written. -/
theorem atomicWrite_allOrNothing_served :
    AllOrNothing Machine.bare.files
      ((atomicWrite .linux "/f".toList "ab".toList).logged.eval serve Machine.bare).2.files
      (names "/f".toList) "ab".toList
      ((atomicWrite .linux "/f".toList "ab".toList).logged.eval serve Machine.bare).1.1 := by
  have hrun := exec_eval answers_serve Machine.bare
    (atomicWrite .linux "/f".toList "ab".toList).logged
  refine (atomicWrite_allOrNothing_iff PowerShell.reference .linux Os.noConfusion _ _ _ _ _
    hrun).mpr ⟨by decide +kernel, ?_⟩
  intro _ place hplace
  have hsight : onward (none : Option (Node Attrs)) = onward (Machine.bare.files place) := rfl
  rw [FileTree.locate_set hsight, hplace]

/-- When the disk is full the file that was begun stays, and another attempt, once there is
room, fails because of it. -/
theorem atomicWrite_not_allOrNothing :
    ∃ out m', Exec (Answers PowerShell.reference) Machine.bare
      (atomicWrite .linux "/f".toList "ab".toList).logged out m' ∧
      ¬AllOrNothing Machine.bare.files m'.files (names "/f".toList) "ab".toList out.1 ∧
      ((atomicWrite .linux "/f".toList "ab".toList).eval serve m').1.isOk = false := by
  refine ⟨_, _, exec_eval answers_fillUp _ _, ?_, by decide +kernel⟩
  refine not_allOrNothing (by decide +kernel) fun hsame => ?_
  have hstays : ((atomicWrite .linux "/f".toList "ab".toList).logged.eval fillUp
      Machine.bare).2.files [".f.dig-dns.1.tmp".toList] ≠ none := by
    decide +kernel
  exact hstays (congrFun hsame _)

end DigDns.OsConfig
