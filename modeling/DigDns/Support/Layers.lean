import DigDns.Support.Interaction

/-!
# Layers of programs

`Prog.interpret` answers the queries of a program by programs of a lower layer.
`Expands` relates the events of the upper layer to those below: each of them stands
for one run of its handler.  `Prog.firstSome` tries candidates in order; its runs are
those of the candidates that gave nothing, and then of the one that gave a value.
-/

namespace Interaction

variable {Q Q' : Type} {R : Q → Type} {R' : Q' → Type} {α β C : Type}

/-! ## Laws of interpretation -/

namespace Prog

theorem bind_ret (p : Prog R α) : p >>= ret = p := by
  induction p with
  | ret a => rfl
  | ask q k ih => exact congrArg (ask q) (funext ih)

theorem snd_run_bind (node : Behaviour R) (p : Prog R α) (f : α → Prog R β) :
    ((p >>= f).run node).2 = ((f (p.run node).2).runFrom node (p.run node).1).2 := by
  rw [run, runFrom_bind]
  rfl

theorem interpret_bind (handler : ∀ q, Prog R' (R q)) (p : Prog R α) (f : α → Prog R β) :
    (p >>= f).interpret handler = p.interpret handler >>= fun a => (f a).interpret handler := by
  induction p with
  | ret a => rfl
  | ask q k ih =>
      have hsplit : (ask q k >>= f).interpret handler =
          handler q >>= fun r => (k r >>= f).interpret handler := rfl
      rw [hsplit, funext ih, ← bind_bind]
      rfl

/-- Two layers are one. -/
theorem interpret_interpret {Q'' : Type} {R'' : Q'' → Type} (handler : ∀ q, Prog R' (R q))
    (below : ∀ q, Prog R'' (R' q)) (p : Prog R α) :
    (p.interpret handler).interpret below =
      p.interpret fun q => (handler q).interpret below := by
  induction p with
  | ret a => rfl
  | ask q k ih =>
      have hsplit : ((ask q k).interpret handler).interpret below =
          (handler q >>= fun r => (k r).interpret handler).interpret below := rfl
      rw [hsplit, interpret_bind, funext ih]
      rfl

end Prog

/-! ## Events that stand for runs -/

/-- The events of a program, and those of the handlers that answered them. -/
inductive Expands (handler : ∀ q, Prog R' (R q)) : List (Event R) → List (Event R') → Prop
  | nil : Expands handler [] []
  | cons {q : Q} {r : R q} {t : List (Event R)} {s u : List (Event R')}
      (hfirst : Runs (handler q) s r) (hrest : Expands handler t u) :
      Expands handler (⟨q, r⟩ :: t) (s ++ u)

section Expands

variable {handler : ∀ q, Prog R' (R q)} {t : List (Event R)} {u : List (Event R')}

/-- A run of an interpreted program is one of the program, with each of its events replaced
by a run of the handler. -/
theorem exists_runs_above {p : Prog R α} {a : α} (h : Runs (p.interpret handler) u a) :
    ∃ t, Runs p t a ∧ Expands handler t u := by
  induction p generalizing u with
  | ret b =>
      obtain ⟨rfl, rfl⟩ := runs_ret_iff.mp h
      exact ⟨[], .ret _, .nil⟩
  | ask q k ih =>
      obtain ⟨s, r, u', rfl, hfirst, hrest⟩ := runs_bind_iff.mp h
      obtain ⟨t, hp, hexpands⟩ := ih r hrest
      exact ⟨⟨q, r⟩ :: t, .ask hp, .cons hfirst hexpands⟩

/-- Against a behaviour, the events above stand for runs of their handlers against it. -/
theorem exists_runs_interpret (network : Behaviour R') (history : List (Event R'))
    (p : Prog R α) :
    ∃ t, Runs p t ((p.interpret handler).runFrom network history).2 ∧
      Expands handler t ((p.interpret handler).runFrom network history).1 ∧
      ∀ e ∈ t, ∃ before, e.2 = ((handler e.1).runFrom network before).2 := by
  induction p generalizing history with
  | ret a => exact ⟨[], .ret a, .nil, fun e he => absurd he List.not_mem_nil⟩
  | ask q k ih =>
      have hsplit : ((Prog.ask q k).interpret handler).runFrom network history = _ :=
        Prog.runFrom_bind network history (handler q) fun r => (k r).interpret handler
      obtain ⟨t, hp, hexpands, hanswers⟩ := ih ((handler q).runFrom network history).2
        (history ++ ((handler q).runFrom network history).1)
      rw [hsplit]
      refine ⟨⟨q, _⟩ :: t, .ask hp, .cons (Prog.runs_runFrom network history _) hexpands, ?_⟩
      exact List.forall_mem_cons.mpr ⟨⟨history, rfl⟩, hanswers⟩

/-- What holds of the events of every handler holds of all events below. -/
theorem Expands.forall_mem {P : Event R' → Prop} (h : Expands handler t u)
    (hhandler : ∀ q r s, (⟨q, r⟩ : Event R) ∈ t → Runs (handler q) s r → ∀ e ∈ s, P e) :
    ∀ e ∈ u, P e := by
  induction h with
  | nil => exact List.forall_mem_nil P
  | @cons q r t s u hfirst hrest ih =>
      have hrest := ih fun q' r' s' hmem => hhandler q' r' s' (List.mem_cons_of_mem _ hmem)
      exact List.forall_mem_append.mpr ⟨hhandler q r s List.mem_cons_self hfirst, hrest⟩

/-- There are at most as many events below as the handlers of those above may have. -/
theorem Expands.length_le {n : Nat} (h : Expands handler t u)
    (hhandler : ∀ q r s, (⟨q, r⟩ : Event R) ∈ t → Runs (handler q) s r → s.length ≤ n) :
    u.length ≤ t.length * n := by
  induction h with
  | nil => exact Nat.zero_le _
  | @cons q r t s u hfirst hrest ih =>
      have hrest := ih fun q' r' s' hmem => hhandler q' r' s' (List.mem_cons_of_mem _ hmem)
      have hfirst := hhandler q r s List.mem_cons_self hfirst
      rw [List.length_append, List.length_cons, Nat.succ_mul]
      omega

end Expands

/-! ## The first candidate that gives a value -/

namespace Prog

/-- Try the candidates in order, up to the first one that gives a value. -/
def firstSome (f : C → Prog R (Option β)) : List C → Prog R (Option (C × β))
  | [] => ret none
  | c :: cs => f c >>= fun found => found.elim (firstSome f cs) fun b => ret (some (c, b))

end Prog

/-- The events of candidates that gave nothing. -/
inductive Declines (f : C → Prog R (Option β)) : List C → List (Event R) → Prop
  | nil : Declines f [] []
  | cons {c : C} {cs : List C} {s t : List (Event R)} (hfirst : Runs (f c) s none)
      (hrest : Declines f cs t) : Declines f (c :: cs) (s ++ t)

section FirstSome

variable {f : C → Prog R (Option β)} {cs : List C} {t : List (Event R)}

/-- Nothing is found exactly if no candidate gives a value. -/
theorem runs_firstSome_none_iff : Runs (Prog.firstSome f cs) t none ↔ Declines f cs t := by
  induction cs generalizing t with
  | nil =>
      constructor
      · intro h
        obtain ⟨rfl, -⟩ := runs_ret_iff.mp h
        exact .nil
      · rintro ⟨⟩
        exact .ret _
  | cons c cs ih =>
      constructor
      · intro h
        obtain ⟨s, found, u, rfl, hfirst, hrest⟩ := runs_bind_iff.mp h
        cases found with
        | none => exact .cons hfirst (ih.mp hrest)
        | some b => cases (runs_ret_iff.mp hrest).2
      · rintro (_ | ⟨hfirst, hrest⟩)
        exact runs_bind_iff.mpr ⟨_, none, _, rfl, hfirst, ih.mpr hrest⟩

/-- What is found comes from the first candidate that gives a value; those behind it are
not tried. -/
theorem runs_firstSome_some_iff {c : C} {b : β} :
    Runs (Prog.firstSome f cs) t (some (c, b)) ↔
      ∃ front back s u, cs = front ++ c :: back ∧ t = s ++ u ∧ Declines f front s ∧
        Runs (f c) u (some b) := by
  induction cs generalizing t with
  | nil =>
      constructor
      · intro h
        cases (runs_ret_iff.mp h).2
      · rintro ⟨front, back, s, u, hcs, -⟩
        simp at hcs
  | cons c' cs ih =>
      constructor
      · intro h
        obtain ⟨s, found, u, rfl, hfirst, hrest⟩ := runs_bind_iff.mp h
        cases found with
        | none =>
            obtain ⟨front, back, s', u', rfl, rfl, hdeclines, hfound⟩ := ih.mp hrest
            refine ⟨c' :: front, back, s ++ s', u', rfl, ?_, .cons hfirst hdeclines, hfound⟩
            rw [List.append_assoc]
        | some b' =>
            obtain ⟨rfl, hsame⟩ := runs_ret_iff.mp hrest
            cases hsame
            exact ⟨[], cs, [], s, rfl, List.append_nil s, .nil, hfirst⟩
      · rintro ⟨front, back, s, u, hcs, rfl, hdeclines, hfound⟩
        cases hdeclines with
        | nil =>
            obtain ⟨rfl, rfl⟩ := List.cons.inj hcs
            exact runs_bind_iff.mpr ⟨u, some b, [], (List.append_nil u).symm, hfound, .ret _⟩
        | cons hfirst hrest =>
            obtain ⟨rfl, rfl⟩ := List.cons.inj hcs
            refine runs_bind_iff.mpr ⟨_, none, _, List.append_assoc _ _ _, hfirst, ?_⟩
            exact ih.mpr ⟨_, _, _, _, rfl, rfl, hrest, hfound⟩

end FirstSome

end Interaction
