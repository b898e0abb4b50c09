import Mathlib.Data.List.Chain

/-!
# Programs that talk to an environment

A program of type `Prog R α` computes a value of type `α` and on the way asks
its environment queries `q : Q`, each answered in `R q`.  Nothing is assumed
about the answers: `Runs` relates a program to every trace of queries and
answers under which it returns, and `Prog.run` plays a program against one
`Behaviour`, which may answer every query from the whole history.  `Exec` is
the second reading: the environment has a state, and a step relation says
which answers it can give and how they change it; `Triple` states what holds of
all its executions.
-/

namespace Interaction

variable {Q : Type} {R : Q → Type} {α β : Type}

/-- A value, or a query together with what to do with its answer. -/
inductive Prog {Q : Type} (R : Q → Type) (α : Type) : Type
  | ret (a : α) : Prog R α
  | ask (q : Q) (k : R q → Prog R α) : Prog R α

namespace Prog

/-- Sequencing. -/
protected def bind : Prog R α → (α → Prog R β) → Prog R β
  | ret a, f => f a
  | ask q k, f => ask q fun r => (k r).bind f

instance : Monad (Prog R) where
  pure := ret
  bind := Prog.bind

@[simp] theorem pure_eq_ret (a : α) : (pure a : Prog R α) = ret a := rfl

@[simp] theorem ret_bind (a : α) (f : α → Prog R β) :
    (ret a : Prog R α) >>= f = f a := rfl

@[simp] theorem ask_bind (q : Q) (k : R q → Prog R α) (f : α → Prog R β) :
    ask q k >>= f = ask q fun r => k r >>= f := rfl

theorem bind_bind {γ : Type} (p : Prog R α) (f : α → Prog R β) (g : β → Prog R γ) :
    p >>= f >>= g = p >>= fun a => f a >>= g := by
  induction p with
  | ret a => rfl
  | ask q k ih => exact congrArg (ask q) (funext fun r => ih r)

end Prog

/-- A query and the answer it got. -/
abbrev Event {Q : Type} (R : Q → Type) := (q : Q) × R q

/-- A list of one element can be cut only there. -/
theorem eq_of_singleton_eq {γ : Type} {a b : γ} {before after : List γ}
    (h : [a] = before ++ b :: after) : before = [] ∧ b = a ∧ after = [] := by
  cases before with
  | nil =>
      obtain ⟨rfl, rfl⟩ := List.cons.inj h
      exact ⟨rfl, rfl, rfl⟩
  | cons _ before => simp at h

/-- A list of two elements is cut at one of them. -/
theorem eq_of_pair_eq {γ : Type} {a b e : γ} {before after : List γ}
    (h : [a, b] = before ++ e :: after) : (e = a ∧ after = [b]) ∨ (e = b ∧ after = []) := by
  cases before with
  | nil =>
      obtain ⟨rfl, rfl⟩ := List.cons.inj h
      exact Or.inl ⟨rfl, rfl⟩
  | cons _ before => exact Or.inr (eq_of_singleton_eq (List.cons.inj h).2).2

/-! ## Every trace -/

/-- `Runs p t a`: answered along the trace `t`, the program returns `a`. -/
inductive Runs : Prog R α → List (Event R) → α → Prop
  | ret (a : α) : Runs (.ret a) [] a
  | ask {q : Q} {k : R q → Prog R α} {r : R q} {t : List (Event R)} {a : α}
      (h : Runs (k r) t a) : Runs (.ask q k) (⟨q, r⟩ :: t) a

@[simp] theorem runs_ret_iff {a b : α} {t : List (Event R)} :
    Runs (.ret a) t b ↔ t = [] ∧ b = a := by
  constructor
  · rintro ⟨⟩
    exact ⟨rfl, rfl⟩
  · rintro ⟨rfl, rfl⟩
    exact .ret _

@[simp] theorem runs_ask_iff {q : Q} {k : R q → Prog R α}
    {t : List (Event R)} {a : α} :
    Runs (.ask q k) t a ↔ ∃ r t', t = ⟨q, r⟩ :: t' ∧ Runs (k r) t' a := by
  constructor
  · rintro ⟨⟩
    exact ⟨_, _, rfl, ‹_›⟩
  · rintro ⟨r, t', rfl, h⟩
    exact .ask h

theorem runs_query_iff {q : Q} {r : R q} {t : List (Event R)} :
    Runs (.ask q .ret) t r ↔ t = [⟨q, r⟩] := by
  simp

/-- A run of a sequence is a run of its first part, then of the rest. -/
theorem runs_bind_iff {p : Prog R α} {f : α → Prog R β}
    {t : List (Event R)} {b : β} :
    Runs (p >>= f) t b ↔
      ∃ t₁ a t₂, t = t₁ ++ t₂ ∧ Runs p t₁ a ∧ Runs (f a) t₂ b := by
  induction p generalizing t with
  | ret a =>
      simp only [Prog.ret_bind, runs_ret_iff]
      constructor
      · intro h
        exact ⟨[], a, t, rfl, ⟨rfl, rfl⟩, h⟩
      · rintro ⟨_, _, _, rfl, ⟨rfl, rfl⟩, h⟩
        exact h
  | ask q k ih =>
      simp only [Prog.ask_bind, runs_ask_iff, ih]
      constructor
      · rintro ⟨r, t', rfl, t₁, a, t₂, rfl, hp, hf⟩
        exact ⟨⟨q, r⟩ :: t₁, a, t₂, rfl, ⟨r, t₁, rfl, hp⟩, hf⟩
      · rintro ⟨t₁, a, t₂, rfl, ⟨r, t', rfl, hp⟩, hf⟩
        exact ⟨r, t' ++ t₂, rfl, t', a, t₂, rfl, hp, hf⟩

/-! ## Playing against one behaviour -/

/-- An environment that may answer from the whole history of the run. -/
abbrev Behaviour {Q : Type} (R : Q → Type) := List (Event R) → (q : Q) → R q

namespace Prog

/-- Continue a program whose earlier events are `history`. -/
def runFrom (node : Behaviour R) : List (Event R) → Prog R α → List (Event R) × α
  | _, ret a => ([], a)
  | history, ask q k =>
      let event : Event R := ⟨q, node history q⟩
      let out := runFrom node (history ++ [event]) (k event.2)
      (event :: out.1, out.2)

/-- The events of a whole run, and the value returned. -/
def run (node : Behaviour R) (p : Prog R α) : List (Event R) × α :=
  p.runFrom node []

theorem runs_runFrom (node : Behaviour R) (history : List (Event R)) (p : Prog R α) :
    Runs p (p.runFrom node history).1 (p.runFrom node history).2 := by
  induction p generalizing history with
  | ret a => exact .ret a
  | ask q k ih => exact .ask (ih _ _)

/-- What holds of every trace holds against every behaviour. -/
theorem runs_run (node : Behaviour R) (p : Prog R α) :
    Runs p (p.run node).1 (p.run node).2 :=
  runs_runFrom node [] p

/-- Every answer in a run is one that the behaviour gave. -/
theorem exists_of_mem_runFrom {node : Behaviour R} {history : List (Event R)} {p : Prog R α}
    {e : Event R} (he : e ∈ (p.runFrom node history).1) : ∃ before, e.2 = node before e.1 := by
  induction p generalizing history with
  | ret a => cases he
  | ask q k ih =>
      rcases List.mem_cons.mp he with rfl | he
      · exact ⟨history, rfl⟩
      · exact ih _ he

/-- A sequence runs its first part, and then the rest from there. -/
theorem runFrom_bind (node : Behaviour R) (history : List (Event R)) (p : Prog R α)
    (f : α → Prog R β) : (p >>= f).runFrom node history =
      ((p.runFrom node history).1 ++
        ((f (p.runFrom node history).2).runFrom node (history ++ (p.runFrom node history).1)).1,
      ((f (p.runFrom node history).2).runFrom node (history ++ (p.runFrom node history).1)).2) := by
  induction p generalizing history with
  | ret a => simp [runFrom]
  | ask q k ih =>
      simp only [ask_bind, runFrom]
      rw [ih]
      simp

theorem runFrom_bind_ret (node : Behaviour R) (history : List (Event R)) (p : Prog R α)
    (f : α → β) : (p >>= fun a => ret (f a)).runFrom node history =
      ((p.runFrom node history).1, f (p.runFrom node history).2) := by
  induction p generalizing history with
  | ret a => rfl
  | ask q k ih =>
      simp only [ask_bind, runFrom]
      rw [ih]

/-- What is done with the value that a program returns does not change its run. -/
theorem run_bind_ret (node : Behaviour R) (p : Prog R α) (f : α → β) :
    (p >>= fun a => ret (f a)).run node = ((p.run node).1, f (p.run node).2) :=
  runFrom_bind_ret node [] p f

/-- The behaviour that answers along a trace. -/
noncomputable def replay [∀ q, Nonempty (R q)] (t : List (Event R)) : Behaviour R :=
  fun history q => by
    classical
    exact if h : ∃ r : R q, history ++ [⟨q, r⟩] <+: t then h.choose
      else Classical.choice inferInstance

theorem replay_apply [∀ q, Nonempty (R q)] (history : List (Event R)) {q : Q} (r : R q)
    (t : List (Event R)) : replay (history ++ ⟨q, r⟩ :: t) history q = r := by
  have hex : ∃ r' : R q, history ++ [⟨q, r'⟩] <+: history ++ ⟨q, r⟩ :: t :=
    ⟨r, t, by simp⟩
  rw [replay, dif_pos hex]
  obtain ⟨rest, hrest⟩ := hex.choose_spec
  rw [List.append_assoc] at hrest
  have hevent := (List.cons.inj (List.append_cancel_left hrest)).1
  exact eq_of_heq (Sigma.mk.inj hevent).2

theorem runFrom_replay [∀ q, Nonempty (R q)] {p : Prog R α} {t : List (Event R)} {a : α}
    (h : Runs p t a) (history : List (Event R)) :
    p.runFrom (replay (history ++ t)) history = (t, a) := by
  induction h generalizing history with
  | ret a => rfl
  | @ask q k r t a h ih =>
      have hrest := ih (history ++ [⟨q, r⟩])
      rw [List.append_assoc, List.singleton_append] at hrest
      rw [runFrom]
      simp only [replay_apply]
      rw [hrest]

/-- Every trace is the run against some behaviour. -/
theorem exists_run_of_runs [∀ q, Nonempty (R q)] {p : Prog R α} {t : List (Event R)} {a : α}
    (h : Runs p t a) : ∃ node : Behaviour R, p.run node = (t, a) :=
  ⟨replay t, runFrom_replay h []⟩

end Prog

/-! ## Environments with a state -/

section Exec

variable {S : Type}

/-- `Exec step s p a s'`: from state `s` the program can return `a` and leave
the environment in `s'`. -/
inductive Exec (step : S → (q : Q) → R q → S → Prop) :
    S → Prog R α → α → S → Prop
  | ret (s : S) (a : α) : Exec step s (.ret a) a s
  | ask {s s' s'' : S} {q : Q} {k : R q → Prog R α} {r : R q} {a : α}
      (hq : step s q r s') (h : Exec step s' (k r) a s'') :
      Exec step s (.ask q k) a s''

variable {step : S → (q : Q) → R q → S → Prop}

@[simp] theorem exec_ret_iff {s s' : S} {a b : α} :
    Exec step s (.ret a) b s' ↔ b = a ∧ s' = s := by
  constructor
  · rintro ⟨⟩
    exact ⟨rfl, rfl⟩
  · rintro ⟨rfl, rfl⟩
    exact .ret _ _

@[simp] theorem exec_ask_iff {s s'' : S} {q : Q} {k : R q → Prog R α} {a : α} :
    Exec step s (.ask q k) a s'' ↔
      ∃ r s', step s q r s' ∧ Exec step s' (k r) a s'' := by
  constructor
  · rintro ⟨⟩
    exact ⟨_, _, ‹_›, ‹_›⟩
  · rintro ⟨r, s', hq, h⟩
    exact .ask hq h

theorem exec_query_iff {s s' : S} {q : Q} {r : R q} :
    Exec step s (.ask q .ret) r s' ↔ step s q r s' := by
  simp

/-- A sequence executes its first part, then the rest. -/
theorem exec_bind_iff {s s'' : S} {p : Prog R α} {f : α → Prog R β} {b : β} :
    Exec step s (p >>= f) b s'' ↔
      ∃ a s', Exec step s p a s' ∧ Exec step s' (f a) b s'' := by
  induction p generalizing s with
  | ret a =>
      simp only [Prog.ret_bind, exec_ret_iff]
      constructor
      · intro h
        exact ⟨a, s, ⟨rfl, rfl⟩, h⟩
      · rintro ⟨_, _, ⟨rfl, rfl⟩, h⟩
        exact h
  | ask q k ih =>
      simp only [Prog.ask_bind, exec_ask_iff, ih]
      constructor
      · rintro ⟨r, s₁, hq, a, s', hp, hf⟩
        exact ⟨a, s', ⟨r, s₁, hq, hp⟩, hf⟩
      · rintro ⟨a, s', ⟨r, s₁, hq, hp⟩, hf⟩
        exact ⟨r, s₁, hq, a, s', hp, hf⟩

/-! ### Pre- and postconditions -/

/-- From a state with `Pre`, an execution that returns `a` ends with `Post a`. -/
def Triple (step : S → (q : Q) → R q → S → Prop) (Pre : S → Prop) (p : Prog R α)
    (Post : α → S → Prop) : Prop :=
  ∀ ⦃s : S⦄ ⦃a : α⦄ ⦃s' : S⦄, Exec step s p a s' → Pre s → Post a s'

/-- No execution of the program loses the property. -/
abbrev Keeps (step : S → (q : Q) → R q → S → Prop) (Inv : S → Prop) (p : Prog R α) : Prop :=
  Triple step Inv p fun _ => Inv

variable {Pre Inv : S → Prop} {Post Post' : α → S → Prop}

theorem triple_ret {a : α} (h : ∀ s, Pre s → Post a s) : Triple step Pre (.ret a) Post := by
  intro s b s' hexec hs
  obtain ⟨rfl, rfl⟩ := exec_ret_iff.mp hexec
  exact h _ hs

theorem triple_ask {q : Q} {k : R q → Prog R α} {Mid : R q → S → Prop}
    (hstep : ∀ s r s', step s q r s' → Pre s → Mid r s')
    (hrest : ∀ r, Triple step (Mid r) (k r) Post) : Triple step Pre (.ask q k) Post := by
  intro s a s'' hexec hs
  obtain ⟨r, s', hq, hk⟩ := exec_ask_iff.mp hexec
  exact hrest r hk (hstep s r s' hq hs)

theorem triple_bind {p : Prog R β} {f : β → Prog R α} {Mid : β → S → Prop}
    (hp : Triple step Pre p Mid) (hf : ∀ b, Triple step (Mid b) (f b) Post) :
    Triple step Pre (p >>= f) Post := by
  intro s a s'' hexec hs
  obtain ⟨b, s', hfirst, hrest⟩ := exec_bind_iff.mp hexec
  exact hf b hrest (hp hfirst hs)

theorem Triple.mono {Pre' : S → Prop} {p : Prog R α} (h : Triple step Pre p Post)
    (hpre : ∀ s, Pre' s → Pre s) (hpost : ∀ a s, Post a s → Post' a s) :
    Triple step Pre' p Post' :=
  fun _ _ _ hexec hs => hpost _ _ (h hexec (hpre _ hs))

theorem keeps_ret (a : α) : Keeps step Inv (.ret a) :=
  triple_ret fun _ hs => hs

theorem keeps_bind {p : Prog R β} {f : β → Prog R α} (hp : Keeps step Inv p)
    (hf : ∀ b, Keeps step Inv (f b)) : Keeps step Inv (p >>= f) :=
  triple_bind hp hf

/-- A loop keeps what each of its rounds keeps. -/
theorem keeps_foldlM {f : α → β → Prog R α} {l : List β}
    (h : ∀ b ∈ l, ∀ a, Keeps step Inv (f a b)) (a : α) : Keeps step Inv (l.foldlM f a) := by
  induction l generalizing a with
  | nil => exact keeps_ret a
  | cons b l ih =>
      rw [List.foldlM_cons]
      exact keeps_bind (h b List.mem_cons_self a)
        fun a' => ih (fun b' hb' => h b' (List.mem_cons_of_mem _ hb')) a'

/-! ### Executions through guarded states -/

/-- The steps from the states that satisfy a guard. -/
def Within (Guard : S → Prop) (step : S → (q : Q) → R q → S → Prop) :
    S → (q : Q) → R q → S → Prop :=
  fun s q r s' => Guard s ∧ step s q r s'

theorem Exec.of_within {Guard : S → Prop} {s s' : S} {p : Prog R α} {a : α}
    (h : Exec (Within Guard step) s p a s') : Exec step s p a s' := by
  induction h with
  | ret s a => exact .ret s a
  | ask hq _ ih => exact .ask hq.2 ih

/-- More steps allow more executions. -/
theorem Exec.mono {step' : S → (q : Q) → R q → S → Prop}
    (hstep : ∀ s q r s', step s q r s' → step' s q r s') {s s' : S} {p : Prog R α} {a : α}
    (h : Exec step s p a s') : Exec step' s p a s' := by
  induction h with
  | ret s a => exact .ret s a
  | ask hq _ ih => exact .ask (hstep _ _ _ _ hq) ih

/-- Where every query has an answer, every program executes. -/
theorem exists_exec (hstep : ∀ s q, ∃ r s', step s q r s') (s : S) (p : Prog R α) :
    ∃ a s', Exec step s p a s' := by
  induction p generalizing s with
  | ret a => exact ⟨a, s, .ret s a⟩
  | ask q k ih =>
      obtain ⟨r, s', hq⟩ := hstep s q
      obtain ⟨a, s'', hrest⟩ := ih r s'
      exact ⟨a, s'', .ask hq hrest⟩

/-! ### Programs that can fail -/

section Failure

variable {ε : Type}

namespace Prog

/-- Go on with the value of a program, or end with its error. -/
def andThen (p : Prog R (Except ε α)) (f : α → Prog R (Except ε β)) : Prog R (Except ε β) :=
  p >>= fun result =>
    match result with
    | .error e => ret (.error e)
    | .ok a => f a

/-- Run a program for every element, up to the first error. -/
def tryEach (f : β → Prog R (Except ε Unit)) : List β → Prog R (Except ε Unit)
  | [] => ret (.ok ())
  | b :: l => (f b).andThen fun _ => tryEach f l

end Prog

theorem exec_andThen_iff {p : Prog R (Except ε α)} {f : α → Prog R (Except ε β)} {s s'' : S}
    {result : Except ε β} :
    Exec step s (p.andThen f) result s'' ↔
      (∃ e, Exec step s p (.error e) s'' ∧ result = .error e) ∨
        ∃ a s', Exec step s p (.ok a) s' ∧ Exec step s' (f a) result s'' := by
  rw [Prog.andThen, exec_bind_iff]
  constructor
  · rintro ⟨answer, s', hp, hrest⟩
    cases answer with
    | error e =>
        obtain ⟨rfl, rfl⟩ := exec_ret_iff.mp hrest
        exact Or.inl ⟨e, hp, rfl⟩
    | ok a => exact Or.inr ⟨a, s', hp, hrest⟩
  · rintro (⟨e, hp, rfl⟩ | ⟨a, s', hp, hrest⟩)
    · exact ⟨_, _, hp, .ret _ _⟩
    · exact ⟨_, _, hp, hrest⟩

/-- After a part that always succeeds the rest is executed. -/
theorem exec_andThen_of_ok {p : Prog R (Except ε α)} {f : α → Prog R (Except ε β)}
    {s s' s'' : S} {a : α} {result : Except ε β}
    (hp : ∀ answer t, Exec step s p answer t → answer = .ok a ∧ t = s')
    (h : Exec step s (p.andThen f) result s'') : Exec step s' (f a) result s'' := by
  rcases exec_andThen_iff.mp h with ⟨e, hfirst, -⟩ | ⟨a', t, hfirst, hrest⟩
  · cases (hp _ _ hfirst).1
  · obtain ⟨hok, rfl⟩ := hp _ _ hfirst
    cases hok
    exact hrest

end Failure

/-! ### Programs that answer programs -/

section Interpret

variable {Q' : Type} {R' : Q' → Type}

namespace Prog

/-- Answer every query of a program by a program. -/
def interpret (handler : ∀ q, Prog R' (R q)) : Prog R α → Prog R' α
  | ret a => ret a
  | ask q k => handler q >>= fun r => interpret handler (k r)

/-- Every query that the program can come to has the property. -/
def Asks (P : Q → Prop) : Prog R α → Prop
  | ret _ => True
  | ask q k => P q ∧ ∀ r, Asks P (k r)

theorem asks_bind {P : Q → Prop} {p : Prog R α} {f : α → Prog R β} (hp : p.Asks P)
    (hf : ∀ a, (f a).Asks P) : (p >>= f).Asks P := by
  induction p with
  | ret a => exact hf a
  | ask q k ih => exact ⟨hp.1, fun r => ih r (hp.2 r)⟩

/-- A program asks what the handlers of its queries ask. -/
theorem asks_interpret {P : Q → Prop} {P' : Q' → Prop} {handler : ∀ q, Prog R' (R q)}
    (hhandler : ∀ q, P q → (handler q).Asks P') {p : Prog R α} (hp : p.Asks P) :
    (p.interpret handler).Asks P' := by
  induction p with
  | ret a => trivial
  | ask q k ih => exact asks_bind (hhandler q hp.1) fun r => ih r (hp.2 r)

theorem asks_query {P : Q → Prop} {q : Q} (h : P q) : (ask q ret : Prog R (R q)).Asks P :=
  ⟨h, fun _ => trivial⟩

theorem asks_of_forall {P : Q → Prop} (h : ∀ q, P q) (p : Prog R α) : p.Asks P := by
  induction p with
  | ret a => trivial
  | ask q k ih => exact ⟨h q, ih⟩

end Prog

/-- An interpreted program executes as the program does whose queries are
answered by executing their handlers. -/
theorem exec_interpret_iff {step : S → (q : Q') → R' q → S → Prop}
    {handler : ∀ q, Prog R' (R q)} {s s' : S} {p : Prog R α} {a : α} :
    Exec step s (p.interpret handler) a s' ↔
      Exec (fun s q r s' => Exec step s (handler q) r s') s p a s' := by
  induction p generalizing s with
  | ret b => simp [Prog.interpret]
  | ask q k ih => simp only [Prog.interpret, exec_bind_iff, exec_ask_iff, ih]

end Interpret

/-- A program keeps what the steps of its queries keep. -/
theorem keeps_of_asks {P : Q → Prop} {p : Prog R α}
    (hstep : ∀ s q r s', P q → step s q r s' → Inv s → Inv s') (hp : p.Asks P) :
    Keeps step Inv p := by
  intro s a s' hexec
  induction hexec with
  | ret s a => exact id
  | ask hq _ ih => exact fun hs => ih (hp.2 _) (hstep _ _ _ _ hp.1 hq hs)

/-- An execution seen through a map of the states, where the steps of the queries
that the program makes are. -/
theorem Exec.map {S' : Type} {step' : S' → (q : Q) → R q → S' → Prop} {P : Q → Prop}
    {f : S → S'} (hstep : ∀ s q r s', P q → step s q r s' → step' (f s) q r (f s'))
    {s s' : S} {p : Prog R α} {a : α} (hp : p.Asks P) (h : Exec step s p a s') :
    Exec step' (f s) p a (f s') := by
  induction h with
  | ret s a => exact .ret _ _
  | ask hq _ ih => exact .ask (hstep _ _ _ _ hp.1 hq) (ih (hp.2 _))

/-! ### Programs that return their events -/

/-- A program that returns the events of its run with its value. -/
def Prog.logged : Prog R α → Prog R (α × List (Event R))
  | ret a => ret (a, [])
  | ask q k => ask q fun r => (k r).logged >>= fun out => ret (out.1, ⟨q, r⟩ :: out.2)

/-- The events that are returned do not change the run. -/
theorem Prog.logged_bind (p : Prog R α) (f : α → Prog R β) :
    (p.logged >>= fun out => f out.1) = p >>= f := by
  induction p with
  | ret a => rfl
  | ask q k ih =>
      refine congrArg (ask q) (funext fun r => ?_)
      exact (bind_bind _ _ _).trans (ih r)

theorem runs_of_exec_logged {s s' : S} {p : Prog R α} {out : α × List (Event R)}
    (h : Exec step s p.logged out s') : Runs p out.2 out.1 := by
  induction p generalizing s s' out with
  | ret a =>
      obtain ⟨rfl, -⟩ := exec_ret_iff.mp h
      exact .ret a
  | ask q k ih =>
      obtain ⟨r, s₁, -, hrest⟩ := exec_ask_iff.mp h
      obtain ⟨inner, s₂, hinner, hret⟩ := exec_bind_iff.mp hrest
      obtain ⟨rfl, -⟩ := exec_ret_iff.mp hret
      exact .ask (ih r hinner)

theorem exec_logged_ret_iff {s s' : S} {a : α} {out : α × List (Event R)} :
    Exec step s (Prog.ret a).logged out s' ↔ out = (a, []) ∧ s' = s :=
  exec_ret_iff

theorem exec_logged_query_iff {s s' : S} {q : Q} {out : R q × List (Event R)} :
    Exec step s (Prog.ask q Prog.ret).logged out s' ↔
      ∃ r, step s q r s' ∧ out = (r, [⟨q, r⟩]) := by
  simp only [Prog.logged, Prog.ret_bind, exec_ask_iff, exec_ret_iff]
  constructor
  · rintro ⟨r, t, hq, rfl, rfl⟩
    exact ⟨r, hq, rfl⟩
  · rintro ⟨r, hq, rfl⟩
    exact ⟨r, s', hq, rfl, rfl⟩

/-- The events of a sequence are those of its first part, then of the rest. -/
theorem exec_logged_bind_iff {s s'' : S} {p : Prog R α} {f : α → Prog R β}
    {out : β × List (Event R)} :
    Exec step s (p >>= f).logged out s'' ↔
      ∃ first s' rest, Exec step s p.logged first s' ∧
        Exec step s' (f first.1).logged rest s'' ∧ out = (rest.1, first.2 ++ rest.2) := by
  induction p generalizing s s'' out with
  | ret a =>
      constructor
      · intro h
        exact ⟨(a, []), s, out, exec_logged_ret_iff.mpr ⟨rfl, rfl⟩, h, rfl⟩
      · rintro ⟨first, s', rest, hfirst, hrest, rfl⟩
        obtain ⟨rfl, rfl⟩ := exec_logged_ret_iff.mp hfirst
        exact hrest
  | ask q k ih =>
      simp only [Prog.ask_bind, Prog.logged, exec_ask_iff, exec_bind_iff, exec_ret_iff, ih]
      constructor
      · rintro ⟨r, s₁, hq, inner, t, ⟨first, s₂, rest, hfirst, hrest, rfl⟩, rfl, rfl⟩
        exact ⟨_, s₂, rest, ⟨r, s₁, hq, first, s₂, hfirst, rfl, rfl⟩, hrest, rfl⟩
      · rintro ⟨_, s₂, rest, ⟨r, s₁, hq, first, t, hfirst, rfl, rfl⟩, hrest, rfl⟩
        exact ⟨r, s₁, hq, _, s'', ⟨first, _, rest, hfirst, hrest, rfl⟩, rfl, rfl⟩

/-- What holds of the queries that a program can come to holds of those of its runs. -/
theorem Runs.of_asks {P : Q → Prop} {p : Prog R α} {t : List (Event R)} {a : α} (h : Runs p t a)
    (hp : p.Asks P) : ∀ event ∈ t, P event.1 := by
  induction h with
  | ret a => exact fun _ hmem => absurd hmem List.not_mem_nil
  | ask _ ih => exact List.forall_mem_cons.mpr ⟨hp.1, ih (hp.2 _)⟩

/-! ### Programs that leave a state alone -/

/-- The steps by queries with a property. -/
def Asking (P : Q → Prop) (step : S → (q : Q) → R q → S → Prop) :
    S → (q : Q) → R q → S → Prop :=
  fun s q r s' => P q ∧ step s q r s'

/-- Executed from the state, the program leaves it alone, and all its queries have the
property. -/
def Rests (P : Q → Prop) (step : S → (q : Q) → R q → S → Prop) (s : S) (p : Prog R α) : Prop :=
  ∀ a s', Exec step s p a s' → s' = s ∧ Exec (Asking P step) s p a s

section Rests

variable {P : Q → Prop} {s : S}

theorem rests_ret (a : α) : Rests P step s (.ret a) := by
  intro b s' h
  obtain ⟨rfl, rfl⟩ := exec_ret_iff.mp h
  exact ⟨rfl, .ret _ _⟩

theorem rests_query {q : Q} (hq : P q) (hstep : ∀ r s', step s q r s' → s' = s) :
    Rests P step s (.ask q .ret) := by
  intro r s' h
  have hanswer := exec_query_iff.mp h
  obtain rfl := hstep r s' hanswer
  exact ⟨rfl, exec_query_iff.mpr ⟨hq, hanswer⟩⟩

theorem rests_bind {p : Prog R α} {f : α → Prog R β} (hp : Rests P step s p)
    (hf : ∀ a, Exec step s p a s → Rests P step s (f a)) : Rests P step s (p >>= f) := by
  intro b s'' h
  obtain ⟨a, s', hfirst, hrest⟩ := exec_bind_iff.mp h
  obtain ⟨rfl, hasking⟩ := hp a s' hfirst
  obtain ⟨hsame, hasking'⟩ := hf a hfirst b s'' hrest
  exact ⟨hsame, exec_bind_iff.mpr ⟨a, s', hasking, hasking'⟩⟩

theorem rests_foldlM {f : α → β → Prog R α} {l : List β}
    (h : ∀ b ∈ l, ∀ a, Rests P step s (f a b)) (a : α) : Rests P step s (l.foldlM f a) := by
  induction l generalizing a with
  | nil => exact rests_ret a
  | cons b l ih =>
      rw [List.foldlM_cons]
      exact rests_bind (h b List.mem_cons_self a)
        fun a' _ => ih (fun b' hb' => h b' (List.mem_cons_of_mem _ hb')) a'

end Rests

/-! ### Executing against a function -/

namespace Prog

/-- Execute a program in an environment that is a function of its state. -/
def eval (env : S → (q : Q) → R q × S) : S → Prog R α → α × S
  | s, ret a => (a, s)
  | s, ask q k => eval env (env s q).2 (k (env s q).1)

/-- The queries of such an execution, each with the state it is asked in. -/
def asked (env : S → (q : Q) → R q × S) : S → Prog R α → List (S × Q)
  | _, ret _ => []
  | s, ask q k => (s, q) :: asked env (env s q).2 (k (env s q).1)

/-- The states of such an execution. -/
def path (env : S → (q : Q) → R q × S) : S → Prog R α → List S
  | s, ret _ => [s]
  | s, ask q k => s :: path env (env s q).2 (k (env s q).1)

theorem eval_bind (env : S → (q : Q) → R q × S) (s : S) (p : Prog R α) (f : α → Prog R β) :
    (p >>= f).eval env s = (f (p.eval env s).1).eval env (p.eval env s).2 := by
  induction p generalizing s with
  | ret a => rfl
  | ask q k ih => exact ih _ _

theorem exists_path_eq_cons (env : S → (q : Q) → R q × S) (s : S) (p : Prog R α) :
    ∃ rest, p.path env s = s :: rest := by
  cases p with
  | ret a => exact ⟨[], rfl⟩
  | ask q k => exact ⟨_, rfl⟩

theorem isChain_path_ask {env : S → (q : Q) → R q × S} {s : S} {q : Q} {k : R q → Prog R α}
    {Rel : S → S → Prop} :
    ((ask q k).path env s).IsChain Rel ↔
      Rel s (env s q).2 ∧ ((k (env s q).1).path env (env s q).2).IsChain Rel := by
  obtain ⟨rest, hrest⟩ := exists_path_eq_cons env (env s q).2 (k (env s q).1)
  rw [path, hrest, List.isChain_cons_cons]

/-- Its steps are those of its first part, then of the rest. -/
theorem isChain_path_bind {env : S → (q : Q) → R q × S} {s : S} {p : Prog R α}
    {f : α → Prog R β} {Rel : S → S → Prop} :
    ((p >>= f).path env s).IsChain Rel ↔ (p.path env s).IsChain Rel ∧
      ((f (p.eval env s).1).path env (p.eval env s).2).IsChain Rel := by
  induction p generalizing s with
  | ret a => simp [path, eval]
  | ask q k ih => simp only [ask_bind, isChain_path_ask, eval, ih, and_assoc]

theorem getLast?_path (env : S → (q : Q) → R q × S) (s : S) (p : Prog R α) :
    (p.path env s).getLast? = some (p.eval env s).2 := by
  induction p generalizing s with
  | ret a => rfl
  | ask q k ih =>
      obtain ⟨rest, hrest⟩ := exists_path_eq_cons env (env s q).2 (k (env s q).1)
      have hlast := ih (env s q).1 (env s q).2
      rw [path, eval, ← hlast, hrest, List.getLast?_cons_cons]

/-- What holds of the first state and after each step holds of all states. -/
theorem forall_path_iff {env : S → (q : Q) → R q × S} {s : S} {p : Prog R α} {P : S → Prop} :
    (∀ t ∈ p.path env s, P t) ↔ P s ∧ (p.path env s).IsChain fun _ t => P t := by
  induction p generalizing s with
  | ret a => simp [path]
  | ask q k ih => rw [isChain_path_ask, ← ih, path, List.forall_mem_cons]

/-- The states in which such an execution asks. -/
def visits (env : S → (q : Q) → R q × S) : S → Prog R α → List S
  | _, ret _ => []
  | s, ask q k => s :: visits env (env s q).2 (k (env s q).1)

end Prog

/-- It is one of the step relation, if each of its answers is. -/
theorem exec_eval_of_asked {env : S → (q : Q) → R q × S} {s : S} {p : Prog R α}
    (henv : ∀ asked ∈ p.asked env s,
      step asked.1 asked.2 (env asked.1 asked.2).1 (env asked.1 asked.2).2) :
    Exec step s p (p.eval env s).1 (p.eval env s).2 := by
  induction p generalizing s with
  | ret a => exact .ret s a
  | ask q k ih =>
      refine .ask (henv (s, q) List.mem_cons_self) (ih _ fun asked hasked => ?_)
      exact henv asked (List.mem_cons_of_mem _ hasked)

theorem exec_within_eval {Guard : S → Prop} {env : S → (q : Q) → R q × S}
    (henv : ∀ s q, step s q (env s q).1 (env s q).2) {s : S} {p : Prog R α}
    (hguard : ∀ s' ∈ p.visits env s, Guard s') :
    Exec (Within Guard step) s p (p.eval env s).1 (p.eval env s).2 := by
  induction p generalizing s with
  | ret a => exact .ret s a
  | ask q k ih =>
      refine .ask ⟨hguard s List.mem_cons_self, henv s q⟩ (ih _ fun s' hs' => ?_)
      exact hguard s' (List.mem_cons_of_mem _ hs')

theorem exec_eval {env : S → (q : Q) → R q × S}
    (henv : ∀ s q, step s q (env s q).1 (env s q).2) (s : S) (p : Prog R α) :
    Exec step s p (p.eval env s).1 (p.eval env s).2 := by
  have h : Exec (Within (fun _ => True) step) s p (p.eval env s).1 (p.eval env s).2 :=
    exec_within_eval henv fun _ _ => trivial
  exact h.of_within

end Exec

end Interaction
