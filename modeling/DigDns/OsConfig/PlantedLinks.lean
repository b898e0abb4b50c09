import DigDns.OsConfig.AllOrNothing

/-!
# Links at the path of a privileged file

`write_if_changed` compares the content that a path leads to, through a link if
one stands there, and replaces what stands at the path itself.  A link to a file
with the right content is therefore left in place.
-/

namespace DigDns.OsConfig

open Rust Interaction Posix

/-- The answer is this content. -/
def readsText (content : Str) : (q : Call) → Answer q → Bool
  | .readToString _, answer => answer.toOption = some content
  | _, _ => false

/-- A symbolic link stands at the path. -/
def Linked (files : FileTree Attrs) (path : Names) : Prop :=
  ∃ place target, files.locate false path = some place ∧ files place = some (.link target)

/-- Away from where the path leads, no entry changed; directories may be new. -/
def OthersKept (files files' : FileTree Attrs) (path : Names) : Prop :=
  ∀ other, files'.locate false path ≠ some other → files' other = files other ∨
    files other = none ∧ ∃ attrs, files' other = some (.dir attrs)

/-- If `write_if_changed` succeeds, the path leads to a regular file with the content and
other files are unchanged; it says that nothing was written only if that was so before. -/
def EndsUpReal (files files' : FileTree Attrs) (path : Names) (content : Str) :
    Except Str Bool → Prop
  | .error _ => True
  | .ok changed => RealFile files' path content ∧ OthersKept files files' path ∧
      (changed = false → RealFile files path content)

/-- The path is absent, a file or a link to a file, also once directories on the way to
it have been made. -/
def NamesFile (files : FileTree Attrs) (path : Str) : Prop :=
  ∀ dir, parent path = some dir → ∀ made, FileTree.MakesDirs (names dir) files made →
    FileTree.LeadsToFile made (names path)

/-- A success that leaves a link at the path. -/
theorem not_endsUpReal {files files' : FileTree Attrs} {path place : Names} {target content : Str}
    {result : Except Str Bool} (hresult : result.isOk = true)
    (hplace : files'.locate false path = some place) (hlink : files' place = some (.link target)) :
    ¬EndsUpReal files files' path content result := by
  cases result with
  | error e => cases hresult
  | ok changed =>
      rintro ⟨⟨other, attrs, hother, hfile⟩, -⟩
      rw [hplace, Option.some.injEq] at hother
      rw [← hother, hlink] at hfile
      cases hfile

section Links

variable {ps : PowerShell} {m m' : Machine} {path content : Str}

/-- Where the content is read, the path is a regular file with it unless it is a link. -/
theorem realFile_iff_not_linked {files : FileTree Attrs} {path : Names}
    (h : files.read path = some (utf8 content)) :
    RealFile files path content ↔ ¬Linked files path := by
  constructor
  · rintro ⟨place, attrs, hplace, hfile⟩ ⟨other, target, hother, hlink⟩
    rw [hplace, Option.some.injEq] at hother
    rw [← hother, hfile] at hlink
    cases hlink
  · intro hlinked
    obtain ⟨place, hplace, hbytes⟩ := Option.bind_eq_some_iff.mp h
    split at hbytes
    · rename_i attrs bytes hfile
      cases hbytes
      refine ⟨place, attrs, FileTree.locate_false_of_true ?_ hplace, hfile⟩
      exact fun other target hother hlink => hlinked ⟨other, target, hother, hlink⟩
    · cases hbytes

/-- A call that is not a read of a file. -/
def Call.noRead : Call → Prop
  | .readToString _ => False
  | _ => True

theorem asks_writeNew (tmp content : Str) : (writeNew tmp content).Asks Call.noRead := by
  refine Prog.asks_bind (Prog.asks_query trivial) fun opened => ?_
  cases opened with
  | error e => trivial
  | ok file =>
      refine Prog.asks_bind (Prog.asks_query trivial) fun written => ?_
      cases written with
      | error e => trivial
      | ok _ => exact Prog.asks_query trivial

theorem asks_atomicWrite (os : Os) (path content : Str) :
    (atomicWrite os path content).Asks Call.noRead := by
  rw [atomicWrite]
  split
  · exact Prog.asks_bind (Prog.asks_query trivial) fun _ => trivial
  split
  · trivial
  split
  · trivial
  refine Prog.asks_bind (Prog.asks_query trivial) fun pid => ?_
  refine Prog.asks_bind (asks_writeNew _ _) fun written => ?_
  cases written with
  | error e => trivial
  | ok _ =>
      refine Prog.asks_bind (Prog.asks_query trivial) fun renamed => ?_
      cases renamed with
      | ok _ => trivial
      | error e => exact Prog.asks_bind (Prog.asks_query trivial) fun _ => trivial

theorem not_has_readsText {t : List (Event Answer)} (h : ∀ event ∈ t, Call.noRead event.1) :
    ¬Has (readsText content) t := by
  rintro ⟨⟨q, answer⟩, hmem, hreads⟩
  have hq := h _ hmem
  cases q with
  | readToString path => exact hq
  | _ => cases hreads

/-- After directories were made, a write leaves the file in its place. -/
theorem endsUpReal_of_written {made : FileTree Attrs} {dir path place : Names} {attrs : Attrs}
    {files : FileTree Attrs} (hmakes : FileTree.MakesDirs dir files made)
    (hdirect : FileTree.Direct made path) (hplace : made.locate false path = some place) :
    EndsUpReal files (made.set place (some (.file attrs (utf8 content)))) path content
      (.ok true) := by
  have hlocate : (made.set place (some (.file attrs (utf8 content)))).locate false path =
      some place := (locate_set_iff_direct hplace).mpr hdirect
  refine ⟨⟨place, attrs, hlocate, FileTree.set_self _ _ _⟩, fun other hother => ?_, ?_⟩
  · have hne : other ≠ place := by
      rintro rfl
      exact hother hlocate
    rw [FileTree.set_of_ne hne]
    exact hmakes.cases other
  · exact fun h => Bool.noConfusion h

/-- A write in a directory that was made ends with the file at the path. -/
theorem exec_atomicWrite_endsUpReal {os : Os} (hos : os ≠ .windows) {files : FileTree Attrs}
    {dir : Names} {out : Except Str Unit × List (Event Answer)} (htree : files.IsTree)
    (hmakes : FileTree.MakesDirs dir files m.files)
    (hleads : FileTree.LeadsToFile m.files (names path))
    (h : Exec (Answers ps) m (atomicWrite os path content).logged out m') :
    EndsUpReal files m'.files (names path) content (out.1.map fun _ => true) ∧
      ¬Has (readsText content) out.2 := by
  refine ⟨?_, not_has_readsText ((runs_of_exec_logged h).of_asks (asks_atomicWrite _ _ _))⟩
  obtain ⟨result, log⟩ := out
  cases result with
  | error e => trivial
  | ok _ =>
      rcases exec_atomicWrite_logged hos h with
        ⟨hfalse, -⟩ | ⟨-, -, -, place, attrs, hplace, hfiles⟩
      · cases hfalse
      · rw [hfiles]
        exact endsUpReal_of_written hmakes ((htree.makesDirs hmakes).direct hleads) hplace

end Links

/-- Away from Windows, `write_if_changed` to a path that is absent, a file or a link to a
file ends up with a real file exactly if it does not read the content through a link. -/
theorem writeIfChanged_endsUpReal_iff (ps : PowerShell) (os : Os) (hos : os ≠ .windows)
    (path content : Str) (m m' : Machine) (htree : m.files.IsTree)
    (hnames : NamesFile m.files path) (out : Except Str Bool × List (Event Answer))
    (h : Exec (Answers ps) m (writeIfChanged os path content).logged out m') :
    EndsUpReal m.files m'.files (names path) content out.1 ↔
      ¬(Linked m.files (names path) ∧ Has (readsText content) out.2) := by
  obtain ⟨read, m₁, rest, hread, hrest, rfl⟩ := exec_logged_bind_iff.mp h
  obtain ⟨existing, ⟨hsame, htext⟩, rfl⟩ := exec_logged_query_iff.mp hread
  obtain rfl : m = m₁ := hsame.symm
  dsimp only at hrest
  split at hrest
  · rename_i hcontent
    obtain ⟨rfl, rfl⟩ := exec_logged_ret_iff.mp hrest
    cases existing with
    | error e => cases hcontent
    | ok text =>
        cases hcontent
        have hreal := realFile_iff_not_linked (htext _ rfl)
        have hreads : Has (readsText content)
            [⟨.readToString path, (.ok content : Except Str Str)⟩] := by
          rw [has_cons_iff, readsText]
          exact Or.inl (decide_eq_true rfl)
        constructor
        · rintro ⟨hfile, -⟩ ⟨hlinked, -⟩
          exact hreal.mp hfile hlinked
        · intro hnot
          have hfile := hreal.mpr fun hlinked => hnot ⟨hlinked, hreads⟩
          exact ⟨hfile, fun other _ => Or.inl rfl, fun _ => hfile⟩
  · rename_i hcontent
    have hfirst : ¬Has (readsText content) [⟨.readToString path, existing⟩] := by
      simpa [readsText] using hcontent
    suffices hend : EndsUpReal m.files m'.files (names path) content rest.1 ∧
        ¬Has (readsText content) rest.2 by
      refine iff_of_true hend.1 fun hboth => ?_
      exact (has_append_iff.mp hboth.2).elim hfirst hend.2
    obtain ⟨made, m₂, last, hmade, hlast, rfl⟩ := exec_logged_bind_iff.mp hrest
    rw [makeParent] at hmade
    split at hmade
    · rename_i dir hdir
      obtain ⟨answer, ⟨files, hmakes, rfl, -⟩, rfl⟩ := exec_logged_query_iff.mp hmade
      cases answer with
      | error e =>
          obtain ⟨rfl, rfl⟩ := exec_logged_ret_iff.mp hlast
          exact ⟨trivial, by simp [readsText]⟩
      | ok _ =>
          obtain ⟨written, m₃, final, hwritten, hfinal, rfl⟩ := exec_logged_bind_iff.mp hlast
          obtain ⟨rfl, rfl⟩ := exec_logged_ret_iff.mp hfinal
          obtain ⟨hreal, hplain⟩ := exec_atomicWrite_endsUpReal hos htree hmakes
            (hnames dir hdir files hmakes) hwritten
          exact ⟨hreal, by simpa [readsText] using hplain⟩
    · rename_i hdir
      obtain ⟨rfl, rfl⟩ := exec_logged_ret_iff.mp hmade
      obtain ⟨written, m₃, final, hwritten, hfinal, rfl⟩ := exec_logged_bind_iff.mp hlast
      obtain ⟨rfl, rfl⟩ := exec_logged_ret_iff.mp hfinal
      rw [atomicWrite, if_neg hos, hdir] at hwritten
      obtain ⟨rfl, rfl⟩ := exec_logged_ret_iff.mp hwritten
      exact ⟨trivial, by simp⟩

/-! ## A link that stays -/

/-- A machine with a file and a link to it. -/
def planted : Machine where
  files place :=
    if place = [] then some (.dir rootAttrs)
    else if place = ["victim".toList] then some (.file rootAttrs (utf8 "x".toList))
    else if place = ["f".toList] then some (.link "/victim".toList)
    else none
  rules := []

theorem planted_isTree : planted.files.IsTree := by
  refine ⟨⟨rootAttrs, rfl⟩, fun {place name} h => ⟨rootAttrs, ?_⟩⟩
  have hplace : place = [] := by
    by_contra hne
    have hother : ∀ single : List Char, place ++ [name] ≠ [single] := by
      intro single hsame
      have hlength := congrArg List.length hsame
      rw [List.length_append, List.length_singleton, List.length_singleton] at hlength
      exact hne (List.eq_nil_of_length_eq_zero (by omega))
    refine h ?_
    exact (if_neg (by simp)).trans ((if_neg (hother _)).trans (if_neg (hother _)))
  rw [hplace]
  rfl

theorem planted_namesFile : NamesFile planted.files "/f".toList := by
  intro dir hdir made hmakes place _
  obtain rfl : dir = "/".toList := by
    have hparent : parent "/f".toList = some "/".toList := by decide +kernel
    rw [hparent, Option.some.injEq] at hdir
    exact hdir.symm
  rw [FileTree.makesDirs_nil hmakes]
  exact ⟨["victim".toList], by decide +kernel, by decide +kernel⟩

/-- A link to a file with another content is replaced. -/
theorem writeIfChanged_endsUpReal_planted :
    EndsUpReal planted.files
      ((writeIfChanged .linux "/f".toList "y".toList).logged.eval serve planted).2.files
      (names "/f".toList) "y".toList
      ((writeIfChanged .linux "/f".toList "y".toList).logged.eval serve planted).1.1 := by
  have hrun := exec_eval answers_serve planted
    (writeIfChanged .linux "/f".toList "y".toList).logged
  have hother : ¬Has (readsText "y".toList)
      ((writeIfChanged .linux "/f".toList "y".toList).logged.eval serve planted).1.2 := by
    decide +kernel
  rw [writeIfChanged_endsUpReal_iff PowerShell.reference .linux Os.noConfusion
    "/f".toList "y".toList planted _ planted_isTree planted_namesFile _ hrun]
  exact fun hboth => hother hboth.2

/-- A link to a file with the same content stays where it is. -/
theorem writeIfChanged_not_endsUpReal :
    ∃ out m', Exec (Answers PowerShell.reference) planted
      (writeIfChanged .linux "/f".toList "x".toList).logged out m' ∧
      ¬EndsUpReal planted.files m'.files (names "/f".toList) "x".toList out.1 := by
  refine ⟨_, _, exec_eval answers_serve _ _, ?_⟩
  have hok : ((writeIfChanged .linux "/f".toList "x".toList).logged.eval serve planted).1.1.isOk =
      true := by
    decide +kernel
  have hplace : ((writeIfChanged .linux "/f".toList "x".toList).logged.eval serve
      planted).2.files.locate false (names "/f".toList) = some ["f".toList] := by
    decide +kernel
  have hlink : ((writeIfChanged .linux "/f".toList "x".toList).logged.eval serve
      planted).2.files ["f".toList] = some (.link "/victim".toList) := by
    decide +kernel
  exact not_endsUpReal hok hplace hlink

end DigDns.OsConfig
