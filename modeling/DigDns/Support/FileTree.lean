import Mathlib.Logic.Function.Basic
import Mathlib.Data.List.Infix

/-!
# File trees

Directories, regular files and symbolic links under one root, and the walk that
leads from a path to a place in the tree.  A walk goes through the links on its
way; whether it follows a link at its end depends on the call.

The calls below are partial functions that say what a successful call does.
Nodes carry attributes of an arbitrary type, and trees are unbounded.
-/

namespace Posix

/-- A path cut at its slashes, or the names from the root to a place. -/
abbrev Names := List (List Char)

/-- The names of an absolute path. -/
def names (path : List Char) : Names :=
  (path.splitOn '/').filter fun name => name != [] && name != ['.']

/-- What can stand at a place. -/
inductive Node (A : Type)
  | file (attrs : A) (bytes : List UInt8)
  | link (target : List Char)
  | dir (attrs : A)
deriving DecidableEq

/-- The nodes of a tree; the root is a directory that no call replaces. -/
abbrev FileTree (A : Type) := Names → Option (Node A)

variable {A : Type}

/-! ## Walks -/

/-- Where a walk goes on from a node. -/
inductive Onward
  | into
  | via (target : List Char)
  | stop
deriving DecidableEq

/-- What a walk can see of a node. -/
def onward : Option (Node A) → Onward
  | some (.dir _) => .into
  | some (.link target) => .via target
  | _ => .stop

/-- The bound on the links that one walk goes through. -/
def maxLinks : Nat := 40

/-- Where the target of a link starts: at the root, or where the link stands. -/
def linkStart (target : List Char) (here : Names) : Names :=
  if target.head? = some '/' then [] else here

/-- Walk on from `here`, and at a link go on with `through`. -/
def walkFrom (sight : Names → Onward) (follow : Bool) (through : Names → Names → Option Names) :
    Names → Names → Option Names
  | here, [] => some here
  | here, name :: rest =>
      if name = ['.', '.'] then walkFrom sight follow through here.dropLast rest
      else
        match sight (here ++ [name]) with
        | .into => walkFrom sight follow through (here ++ [name]) rest
        | .stop => if rest = [] then some (here ++ [name]) else none
        | .via target =>
            if rest = [] && !follow then some (here ++ [name])
            else through (linkStart target here) (names target ++ rest)

/-- Walk on from `here`, through at most `links` links. -/
def walk (sight : Names → Onward) (follow : Bool) : Nat → Names → Names → Option Names
  | 0 => walkFrom sight follow fun _ _ => none
  | links + 1 => walkFrom sight follow (walk sight follow links)

section Walk

variable {sight : Names → Onward} {through through' : Names → Names → Option Names}
  {here rest place : Names}

/-- A walk that ends at something other than a link ends there in both modes. -/
theorem walkFrom_follow
    (hthrough : ∀ {here rest}, through here rest = some place → through' here rest = some place)
    (hplace : ∀ target, sight place ≠ .via target)
    (h : walkFrom sight false through here rest = some place) :
    walkFrom sight true through' here rest = some place := by
  induction rest generalizing here with
  | nil => exact h
  | cons name rest ih =>
      rw [walkFrom] at h ⊢
      by_cases hname : name = ['.', '.']
      · rw [if_pos hname] at h ⊢
        exact ih h
      rw [if_neg hname] at h ⊢
      cases hsight : sight (here ++ [name]) with
      | into =>
          rw [hsight] at h
          exact ih h
      | stop =>
          rw [hsight] at h
          exact h
      | via target =>
          rw [hsight] at h
          by_cases hrest : rest = []
          · -- In the first mode the walk would have ended at this link.
            simp only [hrest, decide_true, Bool.not_false, Bool.and_self, if_true,
              Option.some.injEq] at h
            rw [h] at hsight
            exact absurd hsight (hplace target)
          · simp only [hrest, decide_false, Bool.false_and, Bool.false_eq_true, if_false] at h ⊢
            exact hthrough h

theorem walk_follow {links : Nat} (h : walk sight false links here rest = some place)
    (hplace : ∀ target, sight place ≠ .via target) :
    walk sight true links here rest = some place := by
  induction links generalizing here rest with
  | zero => exact walkFrom_follow (fun h => h) hplace h
  | succ links ih => exact walkFrom_follow (fun h => ih h) hplace h

/-- A walk that ends where it did sees the same, if only entries that stopped
walks have changed. -/
theorem walkFrom_kept {sight' : Names → Onward} {follow : Bool}
    (hsight : ∀ other, sight other ≠ .stop → sight' other = sight other)
    (hplace : sight' place = sight place)
    (hthrough : ∀ {here rest}, through here rest = some place → through' here rest = some place)
    (h : walkFrom sight follow through here rest = some place) :
    walkFrom sight' follow through' here rest = some place := by
  induction rest generalizing here with
  | nil => exact h
  | cons name rest ih =>
      rw [walkFrom] at h ⊢
      by_cases hname : name = ['.', '.']
      · rw [if_pos hname] at h ⊢
        exact ih h
      rw [if_neg hname] at h ⊢
      cases hnode : sight (here ++ [name]) with
      | into =>
          rw [hnode] at h
          rw [hsight _ (by rw [hnode]; exact Onward.noConfusion), hnode]
          exact ih h
      | via target =>
          rw [hnode] at h
          rw [hsight _ (by rw [hnode]; exact Onward.noConfusion), hnode]
          dsimp only at h ⊢
          split at h
          · rw [if_pos ‹_›]
            exact h
          · rw [if_neg ‹_›]
            exact hthrough h
      | stop =>
          rw [hnode] at h
          dsimp only at h
          split at h
          · cases h
            rw [hplace, hnode]
            exact if_pos ‹_›
          · cases h

theorem walk_kept {sight' : Names → Onward} {follow : Bool} {links : Nat}
    (hsight : ∀ other, sight other ≠ .stop → sight' other = sight other)
    (hplace : sight' place = sight place) (h : walk sight follow links here rest = some place) :
    walk sight' follow links here rest = some place := by
  induction links generalizing here rest with
  | zero => exact walkFrom_kept hsight hplace (fun h => h) h
  | succ links ih => exact walkFrom_kept hsight hplace (fun h => ih h) h

/-- Where the last name is not followed, the place ends with it. -/
theorem getLast?_walkFrom {name : List Char} (hname : name ≠ ['.', '.'])
    (hthrough : ∀ {here rest}, rest.getLast? = some name → through here rest = some place →
      place.getLast? = some name)
    (hlast : rest.getLast? = some name) (h : walkFrom sight false through here rest = some place) :
    place.getLast? = some name := by
  induction rest generalizing here with
  | nil => cases hlast
  | cons first rest ih =>
      rw [walkFrom] at h
      by_cases hfirst : first = ['.', '.']
      · rw [if_pos hfirst] at h
        cases rest with
        | nil =>
            rw [List.getLast?_singleton, Option.some.injEq] at hlast
            exact absurd (hlast.symm.trans hfirst) hname
        | cons second rest => exact ih (by rwa [List.getLast?_cons_cons] at hlast) h
      rw [if_neg hfirst] at h
      cases rest with
      | nil =>
          rw [List.getLast?_singleton, Option.some.injEq] at hlast
          subst hlast
          have hend : place = here ++ [first] := by
            cases hnode : sight (here ++ [first]) <;> simp_all [walkFrom]
          rw [hend, List.getLast?_append, List.getLast?_singleton]
          rfl
      | cons second rest =>
          rw [List.getLast?_cons_cons] at hlast
          cases hnode : sight (here ++ [first]) with
          | into =>
              rw [hnode] at h
              exact ih hlast h
          | stop =>
              rw [hnode] at h
              cases h
          | via target =>
              rw [hnode] at h
              refine hthrough ?_ h
              rw [List.getLast?_append, hlast]
              rfl

theorem getLast?_walk {links : Nat} {name : List Char} (hname : name ≠ ['.', '.'])
    (hlast : rest.getLast? = some name) (h : walk sight false links here rest = some place) :
    place.getLast? = some name := by
  induction links generalizing here rest with
  | zero =>
      refine getLast?_walkFrom hname (fun {here rest} _ h => ?_) hlast h
      cases h
  | succ links ih => exact getLast?_walkFrom hname (fun hlast h => ih hlast h) hlast h

/-- A walk that follows the last name ends where one that does not follow it
ends, or that one ends at a link. -/
theorem walkFrom_unfollow
    (hthrough : ∀ {here rest}, through here rest = some place → through' here rest = some place ∨
      ∃ other target, through' here rest = some other ∧ sight other = .via target)
    (h : walkFrom sight true through here rest = some place) :
    walkFrom sight false through' here rest = some place ∨
      ∃ other target, walkFrom sight false through' here rest = some other ∧
        sight other = .via target := by
  induction rest generalizing here with
  | nil => exact Or.inl h
  | cons name rest ih =>
      rw [walkFrom] at h ⊢
      by_cases hname : name = ['.', '.']
      · rw [if_pos hname] at h ⊢
        exact ih h
      rw [if_neg hname] at h ⊢
      cases hnode : sight (here ++ [name]) with
      | into =>
          rw [hnode] at h
          exact ih h
      | stop =>
          rw [hnode] at h
          exact Or.inl h
      | via target =>
          rw [hnode] at h
          by_cases hrest : rest = []
          · refine Or.inr ⟨here ++ [name], target, ?_, hnode⟩
            simp [hrest]
          · simp only [hrest, decide_false, Bool.false_and, Bool.false_eq_true, if_false] at h ⊢
            exact hthrough h

theorem walk_unfollow {links : Nat} (h : walk sight true links here rest = some place) :
    walk sight false links here rest = some place ∨
      ∃ other target, walk sight false links here rest = some other ∧ sight other = .via target := by
  induction links generalizing here rest with
  | zero =>
      refine walkFrom_unfollow (fun {here rest} h => ?_) h
      cases h
  | succ links ih => exact walkFrom_unfollow (fun h => ih h) h

end Walk

/-! ## Calls -/

namespace FileTree

/-- Put a node at a place, or take the one there away. -/
def set (tree : FileTree A) (place : Names) (node : Option (Node A)) : FileTree A :=
  Function.update tree place node

@[simp] theorem set_self (tree : FileTree A) (place : Names) (node : Option (Node A)) :
    tree.set place node place = node :=
  Function.update_self ..

theorem set_of_ne {tree : FileTree A} {place other : Names} {node : Option (Node A)}
    (h : other ≠ place) : tree.set place node other = tree other :=
  Function.update_of_ne h ..

/-- The last node that is put at a place counts. -/
theorem set_set (tree : FileTree A) (place : Names) (node node' : Option (Node A)) :
    (tree.set place node).set place node' = tree.set place node' :=
  Function.update_idem ..

theorem set_some_ne {tree : FileTree A} {place : Names} {node : Node A}
    (h : tree place = none) : tree.set place (some node) ≠ tree := by
  intro hsame
  have hplace := congrFun hsame place
  rw [set_self, h] at hplace
  cases hplace

/-- The place that a path leads to. -/
def locate (tree : FileTree A) (follow : Bool) (path : Names) : Option Names :=
  walk (fun place => onward (tree place)) follow maxLinks [] path

/-- A change that a walk cannot see leads no walk elsewhere. -/
theorem locate_set {tree : FileTree A} {place : Names} {node : Option (Node A)}
    (h : onward node = onward (tree place)) (follow : Bool) (path : Names) :
    (tree.set place node).locate follow path = tree.locate follow path := by
  have hsight : (fun other => onward (tree.set place node other)) =
      fun other => onward (tree other) := by
    funext other
    by_cases hother : other = place
    · rw [hother, set_self, h]
    · rw [set_of_ne hother]
  rw [locate, locate, hsight]

/-- A file that is put where no directory and no link stands leads no walk elsewhere. -/
theorem locate_set_file {tree : FileTree A} {place : Names} {attrs : A} {bytes : List UInt8}
    (h : onward (tree place) = .stop) (follow : Bool) (path : Names) :
    (tree.set place (some (.file attrs bytes))).locate follow path = tree.locate follow path :=
  locate_set (show onward (some (.file attrs bytes)) = onward (tree place) from h.symm) follow path

/-- Walks see a file that is put somewhere as if nothing was there. -/
theorem locate_set_file_eq (tree : FileTree A) (place : Names) (attrs : A) (bytes : List UInt8)
    (follow : Bool) (path : Names) :
    (tree.set place (some (.file attrs bytes))).locate follow path =
      (tree.set place none).locate follow path := by
  rw [← set_set tree place none, locate_set_file]
  rw [set_self]
  rfl

/-- Every name of the path but the last is a directory, and not a link to one. -/
def HasDirs (tree : FileTree A) (path : Names) : Prop :=
  ∀ dir ∈ path.inits, dir ≠ [] → dir ≠ path → onward (tree dir) = .into

instance (tree : FileTree A) (path : Names) : Decidable (tree.HasDirs path) :=
  inferInstanceAs (Decidable (∀ dir ∈ path.inits, _))

/-- Through directories a walk goes straight down. -/
theorem walkFrom_append {sight : Names → Onward} {follow : Bool}
    {through : Names → Names → Option Names} {here path rest : Names} (hdots : ['.', '.'] ∉ path)
    (hdirs : ∀ dir, dir <+: path → dir ≠ [] → sight (here ++ dir) = .into) :
    walkFrom sight follow through here (path ++ rest) =
      walkFrom sight follow through (here ++ path) rest := by
  induction path generalizing here with
  | nil => simp
  | cons name path ih =>
      have hname : name ≠ ['.', '.'] := by
        rintro rfl
        exact hdots List.mem_cons_self
      have hinto : sight (here ++ [name]) = .into :=
        hdirs [name] ⟨path, rfl⟩ (List.cons_ne_nil _ _)
      rw [List.cons_append, walkFrom, if_neg hname, hinto]
      have hrest : walkFrom sight follow through (here ++ [name]) (path ++ rest) =
          walkFrom sight follow through (here ++ [name] ++ path) rest := by
        apply ih
        · exact fun hmem => hdots (List.mem_cons_of_mem _ hmem)
        · intro dir hpre _
          have hfull := hdirs (name :: dir) (List.cons_prefix_cons.mpr ⟨rfl, hpre⟩)
            (List.cons_ne_nil _ _)
          simpa using hfull
      simpa using hrest

/-- The last step of a walk. -/
theorem walkFrom_singleton {sight : Names → Onward} {through : Names → Names → Option Names}
    {here : Names} {name : List Char} (hname : name ≠ ['.', '.']) :
    walkFrom sight false through here [name] = some (here ++ [name]) := by
  rw [walkFrom, if_neg hname]
  cases sight (here ++ [name]) <;> simp [walkFrom]

/-- What is put at the end of the path leaves its directories. -/
theorem HasDirs.set {tree : FileTree A} {path : Names} (h : tree.HasDirs path)
    (node : Option (Node A)) : (tree.set path node).HasDirs path := by
  intro dir hdir hne hproper
  rw [set_of_ne hproper]
  exact h dir hdir hne hproper

/-- Above the end of the path, and at it if it is one, there are directories. -/
theorem HasDirs.into {tree : FileTree A} {path rest dir : Names} (h : tree.HasDirs (path ++ rest))
    (hrest : rest ≠ []) (hdir : dir <+: path) (hne : dir ≠ []) : onward (tree dir) = .into := by
  refine h dir ((List.mem_inits _ _).mpr (hdir.trans (List.prefix_append _ _))) hne ?_
  rintro rfl
  have hlength := hdir.length_le
  rw [List.length_append] at hlength
  have := List.length_pos_iff.mpr hrest
  omega

/-- A path through directories leads to its own place. -/
theorem locate_of_hasDirs {tree : FileTree A} {path : Names} (hdots : ['.', '.'] ∉ path)
    (hdirs : tree.HasDirs path) : tree.locate false path = some path := by
  rcases List.eq_nil_or_concat path with rfl | ⟨dir, name, rfl⟩
  · rfl
  · rw [List.concat_eq_append] at hdots hdirs ⊢
    rw [List.mem_append, List.mem_singleton, not_or] at hdots
    have hwalk : tree.locate false (dir ++ [name]) = walkFrom (fun place => onward (tree place))
        false (walk (fun place => onward (tree place)) false 39) ([] ++ dir) [name] :=
      walkFrom_append hdots.1 fun above habove hne =>
        hdirs.into (List.cons_ne_nil _ _) habove hne
    rw [hwalk, walkFrom_singleton fun hname => hdots.2 hname.symm, List.nil_append]

/-- It does so in both modes if no link stands there. -/
theorem locate_true_of_hasDirs {tree : FileTree A} {path : Names} (hdots : ['.', '.'] ∉ path)
    (hdirs : tree.HasDirs path) (hlink : ∀ target, tree path ≠ some (.link target)) :
    tree.locate true path = some path := by
  refine walk_follow (locate_of_hasDirs hdots hdirs) fun target hvia => ?_
  cases hnode : tree path with
  | none => simp [hnode, onward] at hvia
  | some node =>
      cases node with
      | link other => exact hlink other hnode
      | _ => simp [hnode, onward] at hvia

/-- Past an entry that is neither a directory nor a link, a walk leads nowhere. -/
theorem locate_eq_none {tree : FileTree A} {path rest : Names} {name : List Char} (follow : Bool)
    (hdots : ['.', '.'] ∉ path ++ [name]) (hdirs : tree.HasDirs (path ++ [name]))
    (hstop : onward (tree (path ++ [name])) = .stop) (hrest : rest ≠ []) :
    tree.locate follow (path ++ name :: rest) = none := by
  rw [List.mem_append, List.mem_singleton, not_or] at hdots
  have hwalk : tree.locate follow (path ++ name :: rest) =
      walkFrom (fun place => onward (tree place)) follow
        (walk (fun place => onward (tree place)) follow 39) ([] ++ path) (name :: rest) :=
    walkFrom_append hdots.1 fun above habove hne => hdirs.into (List.cons_ne_nil _ _) habove hne
  rw [hwalk, walkFrom, if_neg fun hname => hdots.2 hname.symm, List.nil_append, hstop]
  exact if_neg hrest

/-- What new entries and new directories leave of the walks. -/
theorem locate_kept {tree tree' : FileTree A} {follow : Bool} {path place : Names}
    (hkept : ∀ other, tree other ≠ none → tree' other = tree other) (hplace : tree place ≠ none)
    (h : tree.locate follow path = some place) : tree'.locate follow path = some place := by
  refine walk_kept (fun other hother => ?_) (congrArg onward (hkept place hplace)) h
  rw [hkept other]
  intro hnone
  rw [hnone] at hother
  exact hother rfl

/-- The place of a path ends with its last name. -/
theorem getLast?_locate {tree : FileTree A} {path place : Names} {name : List Char}
    (hname : name ≠ ['.', '.']) (hlast : path.getLast? = some name)
    (h : tree.locate false path = some place) : place.getLast? = some name :=
  getLast?_walk hname hlast h

/-- Where no link stands at its end, a path leads to the same place in both modes. -/
theorem locate_false_of_true {tree : FileTree A} {path place : Names}
    (hlink : ∀ other target, tree.locate false path = some other →
      tree other ≠ some (.link target))
    (h : tree.locate true path = some place) : tree.locate false path = some place := by
  rcases walk_unfollow h with hsame | ⟨other, target, hother, hvia⟩
  · exact hsame
  · cases hnode : tree other with
    | none =>
        rw [hnode] at hvia
        cases hvia
    | some node =>
        cases node with
        | link target => exact absurd hnode (hlink other target hother)
        | _ =>
            rw [hnode] at hvia
            cases hvia

/-- A path to a regular file leads there in both modes. -/
theorem locate_file {tree : FileTree A} {path place : Names} {attrs : A} {bytes : List UInt8}
    (h : tree.locate false path = some place) (hfile : tree place = some (.file attrs bytes)) :
    tree.locate true path = some place := by
  refine walk_follow h fun target => ?_
  rw [hfile]
  simp [onward]

/-- Read a regular file. -/
def read (tree : FileTree A) (path : Names) : Option (List UInt8) := do
  let place ← tree.locate true path
  match tree place with
  | some (.file _ bytes) => some bytes
  | _ => none

/-- Whether a path leads to anything. -/
def isPresent (tree : FileTree A) (path : Names) : Bool :=
  match tree.locate true path with
  | some place => place = [] || (tree place).isSome
  | none => false

/-- Whether a path leads to a directory. -/
def isDir (tree : FileTree A) (path : Names) : Bool :=
  match tree.locate true path with
  | some place => place = [] || onward (tree place) = .into
  | none => false

theorem read_of_locate {tree : FileTree A} {path place : Names} {attrs : A} {bytes : List UInt8}
    (h : tree.locate false path = some place) (hfile : tree place = some (.file attrs bytes)) :
    tree.read path = some bytes := by
  simp [read, locate_file h hfile, hfile]

/-- Nothing else than a regular file is read. -/
theorem read_eq_none {tree : FileTree A} {path place : Names}
    (hplace : tree.locate true path = some place)
    (hnode : ∀ attrs bytes, tree place ≠ some (.file attrs bytes)) : tree.read path = none := by
  rw [read, hplace, Option.bind_eq_bind, Option.bind_some]
  split
  · rename_i attrs bytes hfile
    exact absurd hfile (hnode attrs bytes)
  · rfl

/-- Whether a path leads to a regular file. -/
def isFile (tree : FileTree A) (path : Names) : Bool := (tree.read path).isSome

/-- The target of a link. -/
def readLink (tree : FileTree A) (path : Names) : Option (List Char) := do
  let place ← tree.locate false path
  match tree place with
  | some (.link target) => some target
  | _ => none

/-- The place where a path would make a new entry. -/
def vacancy (tree : FileTree A) (path : Names) : Option Names := do
  let place ← tree.locate false path
  if place ≠ [] ∧ (tree place).isNone then some place else none

/-- Make a directory. -/
def mkdir (tree : FileTree A) (attrs : A) (path : Names) : Option (FileTree A) := do
  let place ← tree.vacancy path
  return tree.set place (some (.dir attrs))

/-- Make an empty file, and open it: neither an entry nor a link may be there. -/
def createNew (tree : FileTree A) (attrs : A) (path : Names) : Option (Names × FileTree A) := do
  let place ← tree.vacancy path
  return (place, tree.set place (some (.file attrs [])))

/-- Write at the end of an open file. -/
def append (tree : FileTree A) (place : Names) (bytes : List UInt8) : FileTree A :=
  match tree place with
  | some (.file attrs old) => tree.set place (some (.file attrs (old ++ bytes)))
  | _ => tree

/-- Make a file with these bytes, or give them to the file that is there. -/
def overwrite (tree : FileTree A) (attrs : A) (path : Names) (bytes : List UInt8) :
    Option (FileTree A) := do
  let place ← tree.locate true path
  match tree place with
  | some (.file old _) => some (tree.set place (some (.file old bytes)))
  | none => if place = [] then none else some (tree.set place (some (.file attrs bytes)))
  | _ => none

/-- The place and node of an entry that is not a directory. -/
def leaf (tree : FileTree A) (path : Names) : Option (Names × Node A) := do
  let place ← tree.locate false path
  match tree place with
  | some (.file attrs bytes) => some (place, .file attrs bytes)
  | some (.link target) => some (place, .link target)
  | _ => none

/-- Move an entry that is not a directory over another one, or to a free place. -/
def rename (tree : FileTree A) (source target : Names) : Option (FileTree A) := do
  let (old, node) ← tree.leaf source
  let new ← tree.locate false target
  if new = [] ∨ onward (tree new) = .into then none
  else some ((tree.set old none).set new (some node))

/-- Take an entry that is not a directory away. -/
def removeFile (tree : FileTree A) (path : Names) : Option (FileTree A) := do
  let (place, _) ← tree.leaf path
  return tree.set place none

/-- Change the attributes of the file or directory that a path leads to. -/
def setAttrs (tree : FileTree A) (update : A → A) (path : Names) : Option (FileTree A) := do
  let place ← tree.locate true path
  match tree place with
  | some (.file attrs bytes) => some (tree.set place (some (.file (update attrs) bytes)))
  | some (.dir attrs) => some (tree.set place (some (.dir (update attrs))))
  | _ => none

/-- Make every missing directory on the way to a path. -/
def makeDirs (tree : FileTree A) (attrs : A) (path : Names) : FileTree A :=
  path.inits.foldl (fun tree ancestor => (tree.mkdir attrs ancestor).getD tree) tree

/-- Make some of the directories on the way to a path. -/
inductive MakesDirs (path : Names) : FileTree A → FileTree A → Prop
  | refl (tree : FileTree A) : MakesDirs path tree tree
  | step {tree tree' tree'' : FileTree A} {attrs : A} {ancestor : Names}
      (hancestor : ancestor <+: path) (hmkdir : tree.mkdir attrs ancestor = some tree')
      (hrest : MakesDirs path tree' tree'') : MakesDirs path tree tree''

/-- The root is a directory, and every entry stands in one. -/
structure IsTree (tree : FileTree A) : Prop where
  root : ∃ attrs, tree [] = some (.dir attrs)
  parent {place : Names} {name : List Char} (h : tree (place ++ [name]) ≠ none) :
    ∃ attrs, tree place = some (.dir attrs)

/-- The first place on the way down from `here` that is not a directory. -/
def firstNonDir (tree : FileTree A) : Names → Names → Option Names
  | _, [] => none
  | here, name :: rest =>
      if onward (tree (here ++ [name])) = .into then firstNonDir tree (here ++ [name]) rest
      else some (here ++ [name])

/-- Whether a path leads to its place through no link, and to none. -/
def isStraight (tree : FileTree A) (path : Names) : Bool :=
  decide (tree.HasDirs path) &&
    match tree path with
    | some (.link _) => false
    | _ => true

/-- The first entry on a path that is not a directory. -/
theorem firstNonDir_eq_some {tree : FileTree A} {here path rest : Names} {name : List Char}
    (hdirs : ∀ dir, dir <+: path → dir ≠ [] → onward (tree (here ++ dir)) = .into)
    (hnode : onward (tree (here ++ path ++ [name])) ≠ .into) :
    tree.firstNonDir here (path ++ name :: rest) = some (here ++ path ++ [name]) := by
  induction path generalizing here with
  | nil =>
      rw [List.append_nil] at hnode ⊢
      exact if_neg hnode
  | cons first path ih =>
      have hfirst : onward (tree (here ++ [first])) = .into :=
        hdirs [first] ⟨path, rfl⟩ (List.cons_ne_nil _ _)
      rw [List.cons_append, firstNonDir, if_pos hfirst]
      have hrest : tree.firstNonDir (here ++ [first]) (path ++ name :: rest) =
          some (here ++ [first] ++ path ++ [name]) := by
        apply ih
        · intro dir hpre _
          have hfull := hdirs (first :: dir) (List.cons_prefix_cons.mpr ⟨rfl, hpre⟩)
            (List.cons_ne_nil _ _)
          simpa using hfull
        · simpa using hnode
      simpa using hrest

/-! ## What a call changes -/

variable {tree tree' : FileTree A} {path place : Names} {attrs : A}

theorem vacancy_eq_some_iff :
    tree.vacancy path = some place ↔
      tree.locate false path = some place ∧ place ≠ [] ∧ tree place = none := by
  rw [vacancy]
  cases tree.locate false path with
  | none => simp
  | some found =>
      simp only [Option.bind_eq_bind, Option.bind_some, Option.isNone_iff_eq_none,
        Option.ite_none_right_eq_some, Option.some.injEq]
      constructor
      · rintro ⟨hvacant, rfl⟩
        exact ⟨rfl, hvacant⟩
      · rintro ⟨rfl, hvacant⟩
        exact ⟨hvacant, rfl⟩

/-- A vacancy is not where something stands. -/
theorem ne_of_vacancy {vacant : Names} {node : Node A} (hvacancy : tree.vacancy path = some vacant)
    (hnode : tree place = some node) : place ≠ vacant := by
  rintro rfl
  rw [(vacancy_eq_some_iff.mp hvacancy).2.2] at hnode
  cases hnode

theorem mkdir_eq_some_iff :
    tree.mkdir attrs path = some tree' ↔
      ∃ place, tree.vacancy path = some place ∧ tree' = tree.set place (some (.dir attrs)) := by
  rw [mkdir]
  cases tree.vacancy path with
  | none => simp
  | some found => simp [eq_comm]

theorem createNew_eq_some_iff :
    tree.createNew attrs path = some (place, tree') ↔
      tree.vacancy path = some place ∧ tree' = tree.set place (some (.file attrs [])) := by
  rw [createNew]
  cases tree.vacancy path with
  | none => simp
  | some found =>
      simp only [Option.bind_eq_bind, Option.bind_some, Option.pure_def, Option.some.injEq,
        Prod.mk.injEq]
      constructor
      · rintro ⟨rfl, rfl⟩
        exact ⟨rfl, rfl⟩
      · rintro ⟨rfl, rfl⟩
        exact ⟨rfl, rfl⟩

theorem setAttrs_of_dir {update : A → A} (hplace : tree.locate true path = some place)
    (hdir : tree place = some (.dir attrs)) :
    tree.setAttrs update path = some (tree.set place (some (.dir (update attrs)))) := by
  simp [setAttrs, hplace, hdir]

theorem setAttrs_of_file {update : A → A} {bytes : List UInt8}
    (hplace : tree.locate true path = some place) (hfile : tree place = some (.file attrs bytes)) :
    tree.setAttrs update path = some (tree.set place (some (.file (update attrs) bytes))) := by
  simp [setAttrs, hplace, hfile]

theorem leaf_eq_some {node : Node A} (h : tree.leaf path = some (place, node)) :
    tree.locate false path = some place ∧ tree place = some node ∧
      onward (some node) ≠ .into := by
  rw [leaf] at h
  cases hplace : tree.locate false path with
  | none =>
      rw [hplace] at h
      cases h
  | some found =>
      rw [hplace] at h
      simp only [Option.bind_eq_bind, Option.bind_some] at h
      split at h
      · rename_i hfile
        cases h
        exact ⟨rfl, hfile, by simp [onward]⟩
      · rename_i hlink
        cases h
        exact ⟨rfl, hlink, by simp [onward]⟩
      · cases h

theorem removeFile_of_not_into (hplace : tree.locate false path = some place) {node : Node A}
    (hnode : tree place = some node) (hinto : onward (some node) ≠ .into) :
    tree.removeFile path = some (tree.set place none) := by
  rw [removeFile, leaf, hplace]
  cases node with
  | dir attrs => exact absurd rfl hinto
  | _ => simp [hnode]

theorem removeFile_eq_some (h : tree.removeFile path = some tree') :
    ∃ place, tree.locate false path = some place ∧ onward (tree place) ≠ .into ∧
      tree' = tree.set place none := by
  rw [removeFile] at h
  cases hleaf : tree.leaf path with
  | none =>
      rw [hleaf] at h
      cases h
  | some found =>
      rw [hleaf] at h
      cases h
      obtain ⟨hplace, hnode, hinto⟩ := leaf_eq_some hleaf
      exact ⟨found.1, hplace, hnode ▸ hinto, rfl⟩

/-- Taking an entry away leaves the directories. -/
theorem HasDirs.removeFile {dirs : Names} (hdirs : tree.HasDirs dirs)
    (h : tree.removeFile path = some tree') : tree'.HasDirs dirs := by
  rw [FileTree.removeFile] at h
  cases hleaf : tree.leaf path with
  | none =>
      rw [hleaf] at h
      cases h
  | some found =>
      rw [hleaf] at h
      cases h
      obtain ⟨-, hnode, hleafNode⟩ := leaf_eq_some hleaf
      intro dir hdir hne hproper
      have hinto := hdirs dir hdir hne hproper
      have hother : dir ≠ found.1 := by
        rintro rfl
        rw [hnode] at hinto
        exact hleafNode hinto
      rw [set_of_ne hother]
      exact hinto

theorem rename_eq_some {target : Names} (h : tree.rename path target = some tree') :
    ∃ old new node, tree.locate false path = some old ∧ tree.locate false target = some new ∧
      tree old = some node ∧ onward (tree new) ≠ .into ∧
      tree' = (tree.set old none).set new (some node) := by
  rw [rename] at h
  cases hleaf : tree.leaf path with
  | none =>
      rw [hleaf] at h
      cases h
  | some found =>
      obtain ⟨old, node⟩ := found
      rw [hleaf] at h
      simp only [Option.bind_eq_bind, Option.bind_some] at h
      cases hnew : tree.locate false target with
      | none =>
          rw [hnew] at h
          cases h
      | some new =>
          simp only [hnew, Option.bind_some, Option.ite_none_left_eq_some,
            Option.some.injEq] at h
          obtain ⟨hfree, rfl⟩ := h
          obtain ⟨hold, hnode, -⟩ := leaf_eq_some hleaf
          exact ⟨old, new, node, hold, rfl, hnode, fun hinto => hfree (Or.inr hinto), rfl⟩

theorem append_cases (tree : FileTree A) (place : Names) (bytes : List UInt8) :
    tree.append place bytes = tree ∨
      ∃ attrs old, tree place = some (.file attrs old) ∧
        tree.append place bytes = tree.set place (some (.file attrs (old ++ bytes))) := by
  unfold append
  split
  · rename_i attrs old hfile
    exact Or.inr ⟨attrs, old, hfile, rfl⟩
  · exact Or.inl rfl

/-- Writing to an open file changes no other place, and no walk. -/
theorem append_of_ne {other : Names} {bytes : List UInt8} (h : other ≠ place) :
    tree.append place bytes other = tree other := by
  rcases append_cases tree place bytes with hsame | ⟨attrs, old, -, hset⟩
  · rw [hsame]
  · rw [hset, set_of_ne h]

theorem locate_append (tree : FileTree A) (place : Names) (bytes : List UInt8) (follow : Bool)
    (path : Names) : (tree.append place bytes).locate follow path = tree.locate follow path := by
  rcases append_cases tree place bytes with hsame | ⟨attrs, old, hfile, hset⟩
  · rw [hsame]
  · rw [hset]
    exact locate_set (by rw [hfile]; rfl) follow path

/-- Making directories changes no entry that exists. -/
theorem MakesDirs.kept (h : MakesDirs path tree tree') {node : Node A}
    (hnode : tree place = some node) : tree' place = some node := by
  induction h with
  | refl => exact hnode
  | step _ hmkdir _ ih =>
      obtain ⟨made, hvacancy, rfl⟩ := mkdir_eq_some_iff.mp hmkdir
      exact ih ((set_of_ne (ne_of_vacancy hvacancy hnode)).trans hnode)

/-- What is new is a directory. -/
theorem MakesDirs.cases (h : MakesDirs path tree tree') (place : Names) :
    tree' place = tree place ∨ tree place = none ∧ ∃ attrs, tree' place = some (.dir attrs) := by
  induction h with
  | refl => exact Or.inl rfl
  | @step tree tree₁ tree₂ attrs ancestor _ hmkdir hrest ih =>
      obtain ⟨made, hvacancy, rfl⟩ := mkdir_eq_some_iff.mp hmkdir
      by_cases hplace : place = made
      · subst hplace
        exact Or.inr ⟨(vacancy_eq_some_iff.mp hvacancy).2.2, attrs, hrest.kept (set_self _ _ _)⟩
      · rwa [set_of_ne hplace] at ih

/-- The root is always there. -/
theorem makesDirs_nil (h : MakesDirs [] tree tree') : tree' = tree := by
  cases h with
  | refl => rfl
  | step hancestor hmkdir _ =>
      obtain ⟨made, hvacancy, -⟩ := mkdir_eq_some_iff.mp hmkdir
      rw [List.prefix_nil.mp hancestor] at hvacancy
      obtain ⟨hroot, hne, -⟩ := vacancy_eq_some_iff.mp hvacancy
      exact absurd (Option.some.inj hroot).symm hne

theorem makesDirs_makeDirs (tree : FileTree A) (attrs : A) (path : Names) :
    MakesDirs path tree (tree.makeDirs attrs path) := by
  have hall : ∀ ancestors : List Names, (∀ ancestor ∈ ancestors, ancestor <+: path) →
      ∀ tree : FileTree A, MakesDirs path tree
        (ancestors.foldl (fun tree ancestor => (tree.mkdir attrs ancestor).getD tree) tree) := by
    intro ancestors
    induction ancestors with
    | nil => exact fun _ tree => .refl tree
    | cons ancestor rest ih =>
        intro hancestors tree
        have hrest := ih fun other hother => hancestors other (List.mem_cons_of_mem _ hother)
        rw [List.foldl_cons]
        cases hmkdir : tree.mkdir attrs ancestor with
        | none => exact hrest tree
        | some made => exact .step (hancestors ancestor List.mem_cons_self) hmkdir (hrest made)
  exact hall _ (fun ancestor h => (List.mem_inits _ _).mp h) tree

end FileTree

end Posix
