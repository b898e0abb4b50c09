import DigDns.Support.FileTree

/-!
# Walks past links

A walk that goes on past a link to a file leads nowhere.  A path that ends at
such a link therefore passes it only at its end, and still leads there when
something else is put in its place.
-/

namespace Posix

/-! ## Where walks can go on -/

/-- A walk can go on below the place. -/
def Enterable (sight : Names → Onward) (place : Names) : Prop :=
  place = [] ∨ sight place = .into

/-- Above what directs walks there are directories. -/
def DirsAbove (sight : Names → Onward) : Prop :=
  ∀ place, sight place ≠ .stop → Enterable sight place.dropLast

section Walks

variable {sight sight' : Names → Onward} {follow : Bool}
  {through through' : Names → Names → Option Names} {here path rest place other : Names}
  {target : List Char} {links links' : Nat}

theorem Enterable.dropLast (hdirs : DirsAbove sight) (h : Enterable sight place) :
    Enterable sight place.dropLast := by
  rcases h with rfl | hinto
  · exact Or.inl rfl
  · exact hdirs place (by rw [hinto]; exact Onward.noConfusion)

theorem Enterable.linkStart (h : Enterable sight here) (target : List Char) :
    Enterable sight (linkStart target here) := by
  rw [Posix.linkStart]
  split
  · exact Or.inl rfl
  · exact h

theorem not_enterable_of_stop (hplace : place ≠ []) (hstop : sight place = .stop) :
    ¬Enterable sight place := by
  rintro (rfl | hinto)
  · exact hplace rfl
  · rw [hstop] at hinto
    cases hinto

/-- A walk from a directory ends in a directory. -/
theorem walkFrom_enterable (hdirs : DirsAbove sight)
    (hthrough : ∀ {here rest}, Enterable sight here → through here rest = some place →
      Enterable sight place.dropLast)
    (hhere : Enterable sight here) (h : walkFrom sight follow through here path = some place) :
    Enterable sight place.dropLast := by
  induction path generalizing here with
  | nil =>
      cases h
      exact hhere.dropLast hdirs
  | cons name path ih =>
      rw [walkFrom] at h
      by_cases hname : name = ['.', '.']
      · rw [if_pos hname] at h
        exact ih (hhere.dropLast hdirs) h
      rw [if_neg hname] at h
      have hend : Enterable sight (here ++ [name]).dropLast := by
        rwa [List.dropLast_concat]
      cases hnode : sight (here ++ [name]) with
      | into =>
          rw [hnode] at h
          exact ih (Or.inr hnode) h
      | stop =>
          rw [hnode] at h
          dsimp only at h
          split at h
          · cases h
            exact hend
          · cases h
      | via target =>
          rw [hnode] at h
          dsimp only at h
          split at h
          · cases h
            exact hend
          · exact hthrough (hhere.linkStart target) h

theorem walk_enterable (hdirs : DirsAbove sight) (hhere : Enterable sight here)
    (h : walk sight follow links here path = some place) : Enterable sight place.dropLast := by
  induction links generalizing here path with
  | zero => exact walkFrom_enterable hdirs (fun _ h => by cases h) hhere h
  | succ links ih => exact walkFrom_enterable hdirs (fun hhere h => ih hhere h) hhere h

/-! ## Past a file -/

/-- Past a file a walk leads nowhere. -/
theorem walkFrom_past_stop (hdirs : DirsAbove sight) (hplace : place ≠ [])
    (hstop : sight place = .stop) (hrest : rest ≠ [])
    (hthrough : ∀ {here path}, Enterable sight here → through here path = some place →
      through' here (path ++ rest) = none)
    (hhere : Enterable sight here) (h : walkFrom sight true through here path = some place) :
    walkFrom sight follow through' here (path ++ rest) = none := by
  induction path generalizing here with
  | nil =>
      cases h
      exact absurd hhere (not_enterable_of_stop hplace hstop)
  | cons name path ih =>
      have hne : path ++ rest ≠ [] := fun hnil => hrest (List.append_eq_nil_iff.mp hnil).2
      rw [walkFrom] at h
      rw [List.cons_append, walkFrom]
      by_cases hname : name = ['.', '.']
      · rw [if_pos hname] at h ⊢
        exact ih (hhere.dropLast hdirs) h
      rw [if_neg hname] at h ⊢
      cases hnode : sight (here ++ [name]) with
      | into =>
          rw [hnode] at h
          exact ih (Or.inr hnode) h
      | stop => exact if_neg hne
      | via target =>
          rw [hnode] at h
          simp only [Bool.not_true, Bool.and_false, Bool.false_eq_true, if_false] at h
          simp only [hne, decide_false, Bool.false_and, Bool.false_eq_true, if_false]
          rw [← List.append_assoc]
          exact hthrough (hhere.linkStart target) h

theorem walk_past_stop (hdirs : DirsAbove sight) (hplace : place ≠ []) (hstop : sight place = .stop)
    (hrest : rest ≠ []) (hhere : Enterable sight here)
    (h : walk sight true links here path = some place) :
    walk sight follow links' here (path ++ rest) = none := by
  induction links generalizing here path links' with
  | zero =>
      cases links' with
      | zero => exact walkFrom_past_stop hdirs hplace hstop hrest (fun _ h => by cases h) hhere h
      | succ links' =>
          exact walkFrom_past_stop hdirs hplace hstop hrest (fun _ h => by cases h) hhere h
  | succ links ih =>
      cases links' with
      | zero => exact walkFrom_past_stop hdirs hplace hstop hrest (fun _ _ => rfl) hhere h
      | succ links' =>
          exact walkFrom_past_stop hdirs hplace hstop hrest (fun hhere h => ih hhere h) hhere h

/-! ## Through a link at the end -/

/-- A walk that follows the link at its end goes on with the target of the link. -/
theorem walkFrom_target (hdirs : DirsAbove sight) (hplace : place ≠ [])
    (hvia : sight place = .via target)
    (hwalk : ∀ {here rest}, through' here rest = some other →
      ∃ links, walk sight true links here rest = some other)
    (hthrough : ∀ {here rest}, Enterable sight here → through here rest = some place →
      through' here rest = some other → ∃ links,
        walk sight true links (linkStart target place.dropLast) (names target) = some other)
    (hhere : Enterable sight here) (h : walkFrom sight false through here path = some place)
    (hother : walkFrom sight true through' here path = some other) :
    ∃ links, walk sight true links (linkStart target place.dropLast) (names target) =
      some other := by
  induction path generalizing here with
  | nil =>
      cases h
      rcases hhere with rfl | hinto
      · exact absurd rfl hplace
      · rw [hinto] at hvia
        cases hvia
  | cons name path ih =>
      rw [walkFrom] at h hother
      by_cases hname : name = ['.', '.']
      · rw [if_pos hname] at h hother
        exact ih (hhere.dropLast hdirs) h hother
      rw [if_neg hname] at h hother
      cases hnode : sight (here ++ [name]) with
      | into =>
          rw [hnode] at h hother
          exact ih (Or.inr hnode) h hother
      | stop =>
          rw [hnode] at h
          dsimp only at h
          split at h
          · cases h
            rw [hnode] at hvia
            cases hvia
          · cases h
      | via target' =>
          rw [hnode] at h hother
          simp only [Bool.not_true, Bool.and_false, Bool.false_eq_true, if_false] at hother
          dsimp only at h
          split at h
          · rename_i hend
            cases h
            rw [hvia] at hnode
            cases hnode
            have hpath : path = [] := by simpa using hend
            rw [hpath, List.append_nil] at hother
            rw [List.dropLast_concat]
            exact hwalk hother
          · exact hthrough (hhere.linkStart target') h hother

theorem walk_target (hdirs : DirsAbove sight) (hplace : place ≠ [])
    (hvia : sight place = .via target) (hhere : Enterable sight here)
    (h : walk sight false links here path = some place)
    (hother : walk sight true links here path = some other) :
    ∃ links, walk sight true links (linkStart target place.dropLast) (names target) =
      some other := by
  induction links generalizing here path with
  | zero =>
      exact walkFrom_target hdirs hplace hvia (fun h => by cases h) (fun _ h => by cases h)
        hhere h hother
  | succ links ih =>
      exact walkFrom_target hdirs hplace hvia (fun h => ⟨links, h⟩)
        (fun hhere h hother => ih hhere h hother) hhere h hother

/-- A walk to a link that leads to a file does not pass the link before its end. -/
theorem walkFrom_replaced (hvia : sight place = .via target)
    (hsight : ∀ other, other ≠ place → sight' other = sight other)
    (hplace : sight' place = .stop)
    (hpast : ∀ {rest}, rest ≠ [] →
      through (linkStart target place.dropLast) (names target ++ rest) = none)
    (hthrough : ∀ {here rest}, through here rest = some place → through' here rest = some place)
    (h : walkFrom sight false through here path = some place) :
    walkFrom sight' false through' here path = some place := by
  induction path generalizing here with
  | nil => exact h
  | cons name path ih =>
      rw [walkFrom] at h ⊢
      by_cases hname : name = ['.', '.']
      · rw [if_pos hname] at h ⊢
        exact ih h
      rw [if_neg hname] at h ⊢
      by_cases hend : here ++ [name] = place
      · subst hend
        rw [hvia] at h
        rw [List.dropLast_concat] at hpast
        rw [hplace]
        by_cases hpath : path = []
        · exact if_pos hpath
        · simp only [hpath, decide_false, Bool.false_and, Bool.false_eq_true, if_false] at h
          rw [hpast hpath] at h
          cases h
      · rw [hsight _ hend]
        cases hnode : sight (here ++ [name]) with
        | into =>
            rw [hnode] at h
            exact ih h
        | stop =>
            rw [hnode] at h
            exact h
        | via target' =>
            rw [hnode] at h
            dsimp only at h ⊢
            split at h
            · rw [if_pos ‹_›]
              exact h
            · rw [if_neg ‹_›]
              exact hthrough h

theorem walk_replaced (hdirs : DirsAbove sight) (hvia : sight place = .via target)
    (hsight : ∀ other, other ≠ place → sight' other = sight other) (hplace : sight' place = .stop)
    (hother : other ≠ []) (hstop : sight other = .stop)
    (htarget : walk sight true links' (linkStart target place.dropLast) (names target) = some other)
    (h : walk sight false links here path = some place) :
    walk sight' false links here path = some place := by
  have hstart : Enterable sight (linkStart target place.dropLast) :=
    (hdirs place (by rw [hvia]; exact Onward.noConfusion)).linkStart target
  induction links generalizing here path with
  | zero => exact walkFrom_replaced hvia hsight hplace (fun _ => rfl) (fun h => by cases h) h
  | succ links ih =>
      exact walkFrom_replaced hvia hsight hplace
        (fun hrest => walk_past_stop hdirs hother hstop hrest hstart htarget) (fun h => ih h) h

/-- Without links, a walk without `..` ends where its names say. -/
theorem walkFrom_linkless (hlinks : ∀ place target, sight place ≠ .via target)
    (hdots : ['.', '.'] ∉ path) (h : walkFrom sight follow through here path = some place) :
    place = here ++ path := by
  induction path generalizing here with
  | nil =>
      cases h
      rw [List.append_nil]
  | cons name path ih =>
      obtain ⟨hname, hrest⟩ := List.ne_and_not_mem_of_not_mem_cons hdots
      rw [walkFrom, if_neg hname.symm] at h
      cases hnode : sight (here ++ [name]) with
      | into =>
          rw [hnode] at h
          rw [ih hrest h, List.append_assoc, List.singleton_append]
      | stop =>
          rw [hnode] at h
          dsimp only at h
          split at h
          · rename_i hend
            cases h
            rw [hend]
          · cases h
      | via target => exact absurd hnode (hlinks _ target)

end Walks

/-! ## Trees -/

namespace FileTree

variable {A : Type} {tree tree' : FileTree A} {path place : Names} {attrs : A}

theorem IsTree.dirsAbove (h : tree.IsTree) : DirsAbove fun place => onward (tree place) := by
  intro place hplace
  rcases List.eq_nil_or_concat place with rfl | ⟨dir, name, rfl⟩
  · exact Or.inl rfl
  · rw [List.concat_eq_append] at hplace ⊢
    have hentry : tree (dir ++ [name]) ≠ none :=
      fun hnone => hplace (congrArg onward hnone)
    obtain ⟨attrs, hdir⟩ := h.parent hentry
    rw [List.dropLast_concat]
    exact Or.inr (congrArg onward hdir)

/-- A place below which a walk can go on is a directory. -/
theorem IsTree.dir_of_enterable (h : tree.IsTree)
    (hplace : Enterable (fun place => onward (tree place)) place) :
    ∃ attrs, tree place = some (.dir attrs) := by
  rcases hplace with rfl | hinto
  · exact h.root
  · cases hnode : tree place with
    | none => simp [hnode, onward] at hinto
    | some node =>
        cases node with
        | dir attrs => exact ⟨attrs, rfl⟩
        | _ => simp [hnode, onward] at hinto

theorem IsTree.mkdir (h : tree.IsTree) (hmkdir : tree.mkdir attrs path = some tree') :
    tree'.IsTree := by
  obtain ⟨made, hvacancy, rfl⟩ := mkdir_eq_some_iff.mp hmkdir
  obtain ⟨hmade, hroot, hnone⟩ := vacancy_eq_some_iff.mp hvacancy
  have hkept : ∀ {place attrs}, tree place = some (.dir attrs) →
      (tree.set made (some (.dir attrs))) place = some (.dir attrs) := by
    intro place attrs hdir
    rw [set_of_ne, hdir]
    rintro rfl
    rw [hnone] at hdir
    cases hdir
  obtain ⟨rootAttrs, hrootDir⟩ := h.root
  refine ⟨⟨rootAttrs, ?_⟩, ?_⟩
  · rw [set_of_ne hroot.symm, hrootDir]
  · intro place name hentry
    have hdir : ∃ attrs, tree place = some (.dir attrs) := by
      by_cases hend : place ++ [name] = made
      · apply h.dir_of_enterable
        have hparent := walk_enterable h.dirsAbove (Or.inl rfl) hmade
        rwa [← hend, List.dropLast_concat] at hparent
      · rw [set_of_ne hend] at hentry
        exact h.parent hentry
    obtain ⟨attrs', hdir⟩ := hdir
    refine ⟨attrs', ?_⟩
    rw [set_of_ne, hdir]
    rintro rfl
    rw [hnone] at hdir
    cases hdir

theorem IsTree.makesDirs (h : tree.IsTree) (hmakes : MakesDirs path tree tree') : tree'.IsTree := by
  induction hmakes with
  | refl => exact h
  | step _ hmkdir _ ih => exact ih (h.mkdir hmkdir)

/-! ## Paths that pass their end once -/

/-- The way to the end of the path does not pass what stands there. -/
def Direct (tree : FileTree A) (path : Names) : Prop :=
  ∀ place, tree.locate false path = some place →
    (tree.set place none).locate false path = some place

/-- What stands at the path, if anything, is a file or leads to one, or to where one
can be made. -/
def LeadsToFile (tree : FileTree A) (path : Names) : Prop :=
  ∀ place, tree.locate false path = some place →
    ∃ other, tree.locate true path = some other ∧ onward (tree other) = .stop

theorem IsTree.onward_nil (h : tree.IsTree) : onward (tree []) = .into := by
  obtain ⟨attrs, hroot⟩ := h.root
  rw [hroot]
  rfl

/-- A path to a file, or to a link to one, passes its end once. -/
theorem IsTree.direct (h : tree.IsTree) (hleads : LeadsToFile tree path) : Direct tree path := by
  intro place hplace
  obtain ⟨other, hother, hstop⟩ := hleads place hplace
  have hne : ∀ {place}, onward (tree place) ≠ .into → place ≠ [] := by
    rintro place hinto rfl
    exact hinto h.onward_nil
  have hotherNe : other ≠ [] := hne (by rw [hstop]; exact Onward.noConfusion)
  cases hnode : onward (tree place) with
  | stop => rw [locate_set (by rw [hnode]; rfl), hplace]
  | into =>
      -- The path would lead to this directory in both modes.
      have hsame : tree.locate true path = some place :=
        walk_follow hplace fun target => by
          rw [hnode]
          exact Onward.noConfusion
      rw [hother, Option.some.injEq] at hsame
      rw [hsame, hnode] at hstop
      cases hstop
  | via target =>
      have hplaceNe : place ≠ [] := hne (by rw [hnode]; exact Onward.noConfusion)
      obtain ⟨links, htarget⟩ :=
        walk_target h.dirsAbove hplaceNe hnode (Or.inl rfl) hplace hother
      refine walk_replaced h.dirsAbove hnode (fun other hne => ?_) ?_ hotherNe hstop htarget hplace
      · rw [set_of_ne hne]
      · rw [set_self]
        rfl

/-! ## Trees with fewer entries -/

/-- Entries below the root may be gone. -/
def Thinned (tree tree' : FileTree A) : Prop :=
  tree' [] = tree [] ∧ ∀ place, tree' place = tree place ∨ tree' place = none

theorem Thinned.refl (tree : FileTree A) : Thinned tree tree :=
  ⟨rfl, fun _ => Or.inl rfl⟩

theorem Thinned.trans {tree₁ : FileTree A} (h : Thinned tree tree₁) (h' : Thinned tree₁ tree') :
    Thinned tree tree' := by
  refine ⟨h'.1.trans h.1, fun place => ?_⟩
  rcases h'.2 place with hsame | hgone
  · rw [hsame]
    exact h.2 place
  · exact Or.inr hgone

theorem thinned_set_none (hplace : place ≠ []) : Thinned tree (tree.set place none) := by
  refine ⟨set_of_ne hplace.symm, fun other => ?_⟩
  by_cases hother : other = place
  · exact Or.inr (hother ▸ set_self _ _ _)
  · exact Or.inl (set_of_ne hother)

theorem Thinned.kept (h : Thinned tree tree') {other : Names} (hother : tree' other ≠ none) :
    tree other = tree' other := by
  rcases h.2 other with hsame | hgone
  · exact hsame.symm
  · exact absurd hgone hother

/-- What is read is still read when only new entries are made. -/
theorem read_kept {bytes : List UInt8}
    (hkept : ∀ other, tree other ≠ none → tree' other = tree other)
    (h : tree.read path = some bytes) : tree'.read path = some bytes := by
  obtain ⟨place, hplace, hbytes⟩ := Option.bind_eq_some_iff.mp h
  split at hbytes
  · rename_i attrs bytes' hfile
    cases hbytes
    have hentry : tree place ≠ none := by
      rw [hfile]
      exact Option.some_ne_none _
    have hlocate : tree'.locate true path = some place := locate_kept hkept hentry hplace
    simp [FileTree.read, hlocate, hkept place hentry, hfile]
  · cases hbytes

/-- What is read in the smaller tree is read in the larger one. -/
theorem Thinned.read (h : Thinned tree tree') {bytes : List UInt8}
    (hread : tree'.read path = some bytes) : tree.read path = some bytes :=
  read_kept (fun _ hother => h.kept hother) hread

theorem Thinned.isPresent (h : Thinned tree tree') (hpresent : tree'.isPresent path = true) :
    tree.isPresent path = true := by
  rw [FileTree.isPresent] at hpresent ⊢
  split at hpresent
  · rename_i place hplace
    have hsame : tree place = tree' place := by
      by_cases hroot : place = []
      · rw [hroot, h.1]
      · refine h.kept fun hnone => ?_
        simp [hroot, hnone] at hpresent
    have hlocate : tree.locate true path = some place := by
      refine walk_kept (fun other hother => ?_) (congrArg onward hsame) hplace
      rw [h.kept]
      intro hnone
      exact hother (congrArg onward hnone)
    rw [hlocate]
    dsimp only
    rwa [hsame]
  · cases hpresent

/-- When what stands at its end is gone, a path leads there or nowhere. -/
theorem locate_true_removed {other : Names} (hplace : tree.locate false path = some place)
    (h : (tree.set place none).locate true path = some other) : other = place := by
  by_contra hne
  have hsight : ∀ other, onward (tree.set place none other) ≠ .stop →
      onward (tree other) = onward (tree.set place none other) := by
    intro other hother
    rw [set_of_ne]
    rintro rfl
    rw [set_self] at hother
    exact hother rfl
  have hback : ∀ other, onward (tree other) = onward (tree.set place none other) →
      (tree.set place none).locate false path = some other → other = place := by
    intro other hsame hlocate
    have hlarger : tree.locate false path = some other := walk_kept hsight hsame hlocate
    rw [hplace, Option.some.injEq] at hlarger
    exact hlarger.symm
  rcases walk_unfollow h with hsame | ⟨link, target, hlink, hvia⟩
  · exact hne (hback other (by rw [set_of_ne hne]) hsame)
  · -- The path would lead to a link that is still there, which is not the one at its end.
    have hstands : onward (tree.set place none link) ≠ .stop := by
      rw [hvia]
      exact Onward.noConfusion
    have hend := hback link (hsight link hstands) hlink
    rw [hend, set_self] at hstands
    exact hstands rfl

theorem read_removed (hplace : tree.locate false path = some place) :
    (tree.set place none).read path = none := by
  rw [FileTree.read]
  cases hlocate : (tree.set place none).locate true path with
  | none => rfl
  | some other =>
      obtain rfl := locate_true_removed hplace hlocate
      simp

theorem isPresent_removed (hroot : place ≠ []) (hplace : tree.locate false path = some place) :
    (tree.set place none).isPresent path = false := by
  rw [FileTree.isPresent]
  cases hlocate : (tree.set place none).locate true path with
  | none => rfl
  | some other =>
      obtain rfl := locate_true_removed hplace hlocate
      simp [hroot]

/-! ## Changes that walks do not see -/

/-- Walks see the same in both trees. -/
def SameSight (tree tree' : FileTree A) : Prop :=
  ∀ place, onward (tree' place) = onward (tree place)

theorem SameSight.refl (tree : FileTree A) : SameSight tree tree := fun _ => rfl

theorem SameSight.trans {tree₁ : FileTree A} (h : SameSight tree tree₁)
    (h' : SameSight tree₁ tree') : SameSight tree tree' :=
  fun place => (h' place).trans (h place)

theorem SameSight.locate (h : SameSight tree tree') (follow : Bool) (path : Names) :
    tree'.locate follow path = tree.locate follow path := by
  have hsight : (fun place => onward (tree' place)) = fun place => onward (tree place) :=
    funext h
  rw [FileTree.locate, FileTree.locate, hsight]

theorem sameSight_set {node : Option (Node A)} (h : onward node = onward (tree place)) :
    SameSight tree (tree.set place node) := by
  intro other
  by_cases hother : other = place
  · rw [hother, set_self, h]
  · rw [set_of_ne hother]

/-- Making directories after a file was put in its place, or before. -/
theorem MakesDirs.of_set {bytes : List UInt8} (hstop : onward (tree place) = .stop)
    (h : MakesDirs path (tree.set place (some (.file attrs bytes))) tree') :
    ∃ made, MakesDirs path tree made ∧ onward (made place) = .stop ∧
      tree' = made.set place (some (.file attrs bytes)) := by
  generalize hstart : tree.set place (some (.file attrs bytes)) = start at h
  induction h generalizing tree with
  | refl => exact ⟨tree, .refl tree, hstop, hstart.symm⟩
  | @step first second _ attrs' ancestor hancestor hmkdir _ ih =>
      subst hstart
      obtain ⟨made, hvacancy, rfl⟩ := mkdir_eq_some_iff.mp hmkdir
      obtain ⟨hlocate, hroot, hnone⟩ := vacancy_eq_some_iff.mp hvacancy
      have hne : made ≠ place := by
        rintro rfl
        rw [set_self] at hnone
        cases hnone
      rw [set_of_ne hne] at hnone
      have hsight : onward (some (.file attrs bytes)) = onward (tree place) := hstop.symm
      rw [locate_set hsight] at hlocate
      have hmkdir' : tree.mkdir attrs' ancestor = some (tree.set made (some (.dir attrs'))) :=
        mkdir_eq_some_iff.mpr ⟨made, vacancy_eq_some_iff.mpr ⟨hlocate, hroot, hnone⟩, rfl⟩
      have hstop' : onward (tree.set made (some (.dir attrs')) place) = .stop := by
        rw [set_of_ne hne.symm, hstop]
      obtain ⟨last, hmakes, hlast, hset⟩ := ih hstop' (Function.update_comm hne _ _ _)
      exact ⟨last, .step hancestor hmkdir' hmakes, hlast, hset⟩

/-! ## Trees without links -/

/-- No entry is a link. -/
def Linkless (tree : FileTree A) : Prop :=
  ∀ place target, tree place ≠ some (.link target)

/-- Without links, a path without `..` leads to itself or nowhere. -/
theorem Linkless.locate (h : tree.Linkless) {follow : Bool} (hdots : ['.', '.'] ∉ path)
    (hplace : tree.locate follow path = some place) : place = path := by
  have hlinks : ∀ place target, onward (tree place) ≠ .via target := by
    intro place target hvia
    cases hnode : tree place with
    | none => simp [hnode, onward] at hvia
    | some node =>
        cases node with
        | link target => exact h place target hnode
        | _ => simp [hnode, onward] at hvia
  exact walkFrom_linkless hlinks hdots hplace

/-- Making a directory leaves what is not on the way to it. -/
theorem Linkless.makesDirs (h : tree.Linkless) (hdots : ['.', '.'] ∉ path)
    (hmakes : MakesDirs path tree tree') :
    tree'.Linkless ∧ ∀ place, ¬place <+: path → tree' place = tree place := by
  induction hmakes with
  | refl => exact ⟨h, fun _ _ => rfl⟩
  | step hancestor hmkdir _ ih =>
      obtain ⟨made, hvacancy, rfl⟩ := mkdir_eq_some_iff.mp hmkdir
      obtain ⟨hmade, -, -⟩ := vacancy_eq_some_iff.mp hvacancy
      have hprefix := h.locate (fun hmem => hdots (hancestor.subset hmem)) hmade
      subst hprefix
      obtain ⟨hlinks, hsame⟩ := ih fun place target => by
        by_cases hplace : place = made
        · rw [hplace, set_self]
          simp
        · rw [set_of_ne hplace]
          exact h place target
      refine ⟨hlinks, fun place hplace => ?_⟩
      rw [hsame place hplace, set_of_ne]
      rintro rfl
      exact hplace hancestor

end FileTree

end Posix
