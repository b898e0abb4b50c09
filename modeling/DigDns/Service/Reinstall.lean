import DigDns.Service.Backend

/-!
# The order of a reinstall

Whatever a service backend answers, a reinstall makes its calls in one order and
stops at the first of them that fails, except for the stop.  `ReinstallRun` lists
the traces; the order of the calls and what the report says are read off it.
-/

namespace DigDns

open Rust Interaction

/-- A call of the backend and its result. -/
abbrev ServiceEvent := Event ServiceAnswer

/-- The probe found the service. -/
def present : ServiceEvent := ⟨.isInstalled, .ok true⟩

/-- The probe found no service. -/
def absent : ServiceEvent := ⟨.isInstalled, .ok false⟩

/-! ## The traces of a reinstall -/

/-- The traces of the part that registers the service. -/
inductive PutUpRun (plan : InstallPlan) (report : ReinstallReport) :
    List ServiceEvent → Except Str ReinstallReport → Prop
  | notCreated {e : Str} : PutUpRun plan report [⟨.create plan, .error e⟩] (.error e)
  | notStarted {e : Str} :
      PutUpRun plan report [⟨.create plan, .ok ()⟩, ⟨.start, .error e⟩] (.error e)
  | started : PutUpRun plan report [⟨.create plan, .ok ()⟩, ⟨.start, .ok ()⟩]
      (.ok { report with created := true, started := true })

/-- The calls that take a service down, before the removal is waited for. -/
def tornDown (stopped : Except Str Unit) : List ServiceEvent :=
  [present, ⟨.stop, stopped⟩, ⟨.delete, .ok ()⟩]

/-- The report of a service that is taken down. -/
def tornDownReport (stopped : Except Str Unit) : ReinstallReport :=
  ⟨true, stopped.isOk, true, false, false⟩

/-- The traces of `reinstall`; `k` polls in a row find the service lingering. -/
inductive ReinstallRun (plan : InstallPlan) :
    List ServiceEvent → Except Str ReinstallReport → Prop
  | notProbed {e : Str} : ReinstallRun plan [⟨.isInstalled, .error e⟩] (.error e)
  | fresh {t : List ServiceEvent} {r : Except Str ReinstallReport}
      (hup : PutUpRun plan .fresh t r) : ReinstallRun plan (absent :: t) r
  | notDeleted {stopped : Except Str Unit} {e : Str} :
      ReinstallRun plan [present, ⟨.stop, stopped⟩, ⟨.delete, .error e⟩] (.error e)
  | notPolled {stopped : Except Str Unit} {k : Nat} {e : Str} (hk : k < removalPollAttempts) :
      ReinstallRun plan
        (tornDown stopped ++ List.replicate k present ++ [⟨.isInstalled, .error e⟩]) (.error e)
  | lingers {stopped : Except Str Unit} :
      ReinstallRun plan (tornDown stopped ++ List.replicate removalPollAttempts present)
        (.error removalTimedOut)
  | replaced {stopped : Except Str Unit} {k : Nat} {t : List ServiceEvent}
      {r : Except Str ReinstallReport} (hk : k < removalPollAttempts)
      (hup : PutUpRun plan (tornDownReport stopped) t r) :
      ReinstallRun plan (tornDown stopped ++ List.replicate k present ++ absent :: t) r

section Runs

variable {plan : InstallPlan} {report : ReinstallReport} {t : List ServiceEvent}
  {r : Except Str ReinstallReport}

theorem putUpRun_of_runs (h : Runs (putUp plan report) t r) : PutUpRun plan report t r := by
  obtain ⟨created, rest, rfl, hrest⟩ := runs_ask_iff.mp h
  cases created with
  | error e =>
      obtain ⟨rfl, rfl⟩ := runs_ret_iff.mp hrest
      exact .notCreated
  | ok _ =>
      obtain ⟨started, rest', rfl, hrest'⟩ := runs_ask_iff.mp hrest
      cases started with
      | error e =>
          obtain ⟨rfl, rfl⟩ := runs_ret_iff.mp hrest'
          exact .notStarted
      | ok _ =>
          obtain ⟨rfl, rfl⟩ := runs_ret_iff.mp hrest'
          exact .started

/-- The polls find the service until one of them does not, one fails, or none is left. -/
theorem pollRemoval_cases {attempts : Nat} {t : List ServiceEvent} {result : Except Str Unit}
    (h : Runs (pollRemoval attempts) t result) :
    (t = List.replicate attempts present ∧ result = .error removalTimedOut) ∨
      ∃ k < attempts,
        (t = List.replicate k present ++ [absent] ∧ result = .ok ()) ∨
        ∃ e, t = List.replicate k present ++ [⟨.isInstalled, .error e⟩] ∧ result = .error e := by
  induction attempts generalizing t with
  | zero => exact Or.inl (runs_ret_iff.mp h)
  | succ attempts ih =>
      obtain ⟨answer, rest, rfl, hrest⟩ := runs_ask_iff.mp h
      cases answer with
      | error e =>
          obtain ⟨rfl, rfl⟩ := runs_ret_iff.mp hrest
          exact Or.inr ⟨0, Nat.succ_pos _, Or.inr ⟨e, rfl, rfl⟩⟩
      | ok installed =>
          cases installed with
          | false =>
              obtain ⟨rfl, rfl⟩ := runs_ret_iff.mp hrest
              exact Or.inr ⟨0, Nat.succ_pos _, Or.inl ⟨rfl, rfl⟩⟩
          | true =>
              rcases ih hrest with ⟨rfl, rfl⟩ | ⟨k, hk, ⟨rfl, rfl⟩ | ⟨e, rfl, rfl⟩⟩
              · exact Or.inl ⟨rfl, rfl⟩
              · exact Or.inr ⟨k + 1, Nat.succ_lt_succ hk, Or.inl ⟨rfl, rfl⟩⟩
              · exact Or.inr ⟨k + 1, Nat.succ_lt_succ hk, Or.inr ⟨e, rfl, rfl⟩⟩

/-- Taking the service down ends at a failed delete or poll, or when the service is gone. -/
theorem takeDown_cases {result : Except Str ReinstallReport}
    (h : Runs (takeDown .fresh) t result) :
    ∃ stopped,
      (∃ e, t = [⟨.stop, stopped⟩, ⟨.delete, .error e⟩] ∧ result = .error e) ∨
      (t = ⟨.stop, stopped⟩ :: ⟨.delete, .ok ()⟩ :: List.replicate removalPollAttempts present ∧
        result = .error removalTimedOut) ∨
      ∃ k < removalPollAttempts,
        (t = ⟨.stop, stopped⟩ :: ⟨.delete, .ok ()⟩ :: (List.replicate k present ++ [absent]) ∧
          result = .ok (tornDownReport stopped)) ∨
        ∃ e, t = ⟨.stop, stopped⟩ :: ⟨.delete, .ok ()⟩ ::
            (List.replicate k present ++ [⟨.isInstalled, .error e⟩]) ∧ result = .error e := by
  obtain ⟨stopped, rest₁, rfl, hstopped⟩ := runs_ask_iff.mp h
  obtain ⟨deleted, rest₂, rfl, hdeleted⟩ := runs_ask_iff.mp hstopped
  refine ⟨stopped, ?_⟩
  cases deleted with
  | error e =>
      obtain ⟨rfl, rfl⟩ := runs_ret_iff.mp hdeleted
      exact Or.inl ⟨e, rfl, rfl⟩
  | ok _ =>
      have hwait : Runs (pollRemoval removalPollAttempts >>= _) rest₂ result := hdeleted
      obtain ⟨polls, removed, last, rfl, hpolls, hlast⟩ := runs_bind_iff.mp hwait
      rcases pollRemoval_cases hpolls with ⟨rfl, rfl⟩ | ⟨k, hk, ⟨rfl, rfl⟩ | ⟨e, rfl, rfl⟩⟩
      · obtain ⟨rfl, rfl⟩ := runs_ret_iff.mp hlast
        rw [List.append_nil]
        exact Or.inr (Or.inl ⟨rfl, rfl⟩)
      · obtain ⟨rfl, rfl⟩ := runs_ret_iff.mp hlast
        rw [List.append_nil]
        exact Or.inr (Or.inr ⟨k, hk, Or.inl ⟨rfl, rfl⟩⟩)
      · obtain ⟨rfl, rfl⟩ := runs_ret_iff.mp hlast
        rw [List.append_nil]
        exact Or.inr (Or.inr ⟨k, hk, Or.inr ⟨e, rfl, rfl⟩⟩)

/-- Every run of `reinstall` is one of the listed ones. -/
theorem reinstallRun_of_runs (h : Runs (reinstall plan) t r) : ReinstallRun plan t r := by
  obtain ⟨probed, rest, rfl, hrest⟩ := runs_ask_iff.mp h
  cases probed with
  | error e =>
      obtain ⟨rfl, rfl⟩ := runs_ret_iff.mp hrest
      exact .notProbed
  | ok installed =>
      cases installed with
      | false => exact .fresh (putUpRun_of_runs hrest)
      | true =>
          have hparts : Runs (takeDown .fresh >>= _) rest r := hrest
          obtain ⟨down, taken, up, rfl, hdown, hup⟩ := runs_bind_iff.mp hparts
          obtain ⟨stopped, ⟨e, rfl, rfl⟩ | ⟨rfl, rfl⟩ | ⟨k, hk, ⟨rfl, rfl⟩ | ⟨e, rfl, rfl⟩⟩⟩ :=
            takeDown_cases hdown
          · obtain ⟨rfl, rfl⟩ := runs_ret_iff.mp hup
            exact .notDeleted
          · obtain ⟨rfl, rfl⟩ := runs_ret_iff.mp hup
            rw [List.append_nil]
            exact .lingers
          · have hshape : (List.replicate k present ++ [absent]) ++ up =
                List.replicate k present ++ absent :: up := List.append_assoc _ _ _
            have hrun : ReinstallRun plan
                (tornDown stopped ++ List.replicate k present ++ absent :: up) r :=
              .replaced hk (putUpRun_of_runs hup)
            rw [List.append_assoc, ← hshape] at hrun
            exact hrun
          · obtain ⟨rfl, rfl⟩ := runs_ret_iff.mp hup
            rw [List.append_nil]
            exact .notPolled hk

end Runs

/-! ## The order of the calls -/

/-- The calls that end a reinstall when they fail. -/
def Fails : ServiceEvent → Bool
  | ⟨.isInstalled, .error _⟩ => true
  | ⟨.delete, .error _⟩ => true
  | ⟨.create _, .error _⟩ => true
  | ⟨.start, .error _⟩ => true
  | _ => false

/-- `CutOff script t`: the calls of a trace are those of a script, up to the first that fails. -/
inductive CutOff : List ServiceCall → List ServiceEvent → Prop
  | done : CutOff [] []
  | cut {q : ServiceCall} {answer : ServiceAnswer q} {script : List ServiceCall}
      (hfails : Fails ⟨q, answer⟩ = true) : CutOff (q :: script) [⟨q, answer⟩]
  | next {q : ServiceCall} {answer : ServiceAnswer q} {script : List ServiceCall}
      {t : List ServiceEvent} (hworks : Fails ⟨q, answer⟩ = false) (hrest : CutOff script t) :
      CutOff (q :: script) (⟨q, answer⟩ :: t)

/-- The calls of a reinstall in which nothing fails. -/
def reinstallScript (plan : InstallPlan) (existed : Bool) (polls : Nat) : List ServiceCall :=
  .isInstalled ::
    ((if existed then .stop :: .delete :: List.replicate polls .isInstalled else []) ++
      [.create plan, .start])

theorem CutOff.polls {script : List ServiceCall} {t : List ServiceEvent} (k : Nat)
    (h : CutOff script t) :
    CutOff (List.replicate k .isInstalled ++ script) (List.replicate k present ++ t) := by
  induction k with
  | zero => exact h
  | succ k ih => exact .next rfl ih

theorem PutUpRun.cutOff {plan : InstallPlan} {report : ReinstallReport} {t : List ServiceEvent}
    {r : Except Str ReinstallReport} (h : PutUpRun plan report t r) :
    CutOff [.create plan, .start] t := by
  cases h with
  | notCreated => exact .cut rfl
  | notStarted => exact .next rfl (.cut rfl)
  | started => exact .next rfl (.next rfl .done)

/-- The script of a service that was found, up to the end of the polls. -/
theorem CutOff.tornDown {plan : InstallPlan} {k polls : Nat} {t : List ServiceEvent}
    (stopped : Except Str Unit)
    (h : CutOff (List.replicate polls .isInstalled ++ [.create plan, .start]) t) :
    CutOff (reinstallScript plan true (k + polls))
      (tornDown stopped ++ List.replicate k present ++ t) := by
  have hpolls := h.polls k
  rw [← List.append_assoc, ← List.replicate_add] at hpolls
  have hstop : Fails ⟨.stop, stopped⟩ = false := by
    cases stopped <;> rfl
  rw [List.append_assoc]
  exact .next rfl (.next hstop (.next rfl hpolls))

section Order

variable {plan : InstallPlan} {t : List ServiceEvent} {r : Except Str ReinstallReport}

/-- The trace follows the script up to the first failure, or the service lingers through all
polls. -/
theorem ReinstallRun.order (h : ReinstallRun plan t r) :
    ∃ existed polls, (existed = true ↔ t.head? = some present) ∧
      1 ≤ polls ∧ polls ≤ removalPollAttempts ∧
      (CutOff (reinstallScript plan existed polls) t ∨
        (existed = true ∧ r = .error removalTimedOut ∧
          ∃ stopped, t = tornDown stopped ++ List.replicate removalPollAttempts present)) := by
  have hone : 1 ≤ removalPollAttempts := by decide
  cases h with
  | @notProbed e =>
      refine ⟨false, 1, ?_, le_rfl, hone, Or.inl (.cut rfl)⟩
      simp [present]
  | fresh hup =>
      refine ⟨false, 1, ?_, le_rfl, hone, Or.inl (.next rfl hup.cutOff)⟩
      simp [present, absent]
  | @notDeleted stopped e =>
      have hstop : Fails ⟨.stop, stopped⟩ = false := by
        cases stopped <;> rfl
      refine ⟨true, 1, by simp, le_rfl, hone, Or.inl ?_⟩
      exact .next rfl (.next hstop (.cut rfl))
  | notPolled hk =>
      refine ⟨true, _ + 1, by simp [tornDown], Nat.succ_pos _, hk, Or.inl ?_⟩
      exact CutOff.tornDown _ (.cut rfl)
  | lingers =>
      exact ⟨true, removalPollAttempts, by simp [tornDown], hone, le_rfl,
        Or.inr ⟨rfl, rfl, _, rfl⟩⟩
  | replaced hk hup =>
      refine ⟨true, _ + 1, by simp [tornDown], Nat.succ_pos _, hk, Or.inl ?_⟩
      exact CutOff.tornDown _ (.next rfl hup.cutOff)

/-! ## The create -/

/-- The call registers the service. -/
def IsCreate : ServiceEvent → Bool
  | ⟨.create _, _⟩ => true
  | _ => false

theorem PutUpRun.create {report : ReinstallReport} (h : PutUpRun plan report t r) :
    ∃ event back, t = event :: back ∧ ∀ later ∈ back, IsCreate later = false := by
  cases h with
  | notCreated => exact ⟨_, _, rfl, by simp⟩
  | notStarted => exact ⟨_, _, rfl, by simp [IsCreate]⟩
  | started => exact ⟨_, _, rfl, by simp [IsCreate]⟩

theorem not_isCreate_of_mem_polls {stopped : Except Str Unit} {k : Nat} {event : ServiceEvent}
    (h : event ∈ tornDown stopped ++ List.replicate k present) : IsCreate event = false := by
  rcases List.mem_append.mp h with hdown | hpoll
  · simp only [tornDown, List.mem_cons, List.not_mem_nil, or_false] at hdown
    rcases hdown with rfl | rfl | rfl <;> rfl
  · rw [List.eq_of_mem_replicate hpoll]
    rfl

/-- A trace has no create, or one right behind a probe that found no service. -/
theorem ReinstallRun.create (h : ReinstallRun plan t r) :
    (∀ event ∈ t, IsCreate event = false) ∨
      ∃ front event back, t = front ++ absent :: event :: back ∧
        (∀ earlier ∈ front, IsCreate earlier = false) ∧
        ∀ later ∈ back, IsCreate later = false := by
  cases h with
  | notProbed => exact Or.inl (by simp [IsCreate])
  | fresh hup =>
      obtain ⟨event, back, rfl, hback⟩ := hup.create
      exact Or.inr ⟨[], event, back, rfl, by simp, hback⟩
  | notDeleted => exact Or.inl (by simp [IsCreate, present])
  | notPolled hk =>
      left
      intro event hevent
      rcases List.mem_append.mp hevent with hpolls | hlast
      · exact not_isCreate_of_mem_polls hpolls
      · rw [List.mem_singleton.mp hlast]
        rfl
  | lingers => exact Or.inl fun event hevent => not_isCreate_of_mem_polls hevent
  | replaced hk hup =>
      obtain ⟨event, back, rfl, hback⟩ := hup.create
      exact Or.inr ⟨_, event, back, rfl, fun _ => not_isCreate_of_mem_polls, hback⟩

end Order

/-- An element with a property has one place in a list where no other has it. -/
theorem eq_of_append_cons_eq {α : Type} {p : α → Bool} {front front' back back' : List α} {a b : α}
    (ha : p a = true) (hfront : ∀ x ∈ front', p x = false) (hback : ∀ x ∈ back', p x = false)
    (h : front ++ a :: back = front' ++ b :: back') : front = front' := by
  induction front' generalizing front with
  | nil =>
      cases front with
      | nil => rfl
      | cons c front =>
          have hmem : a ∈ back' := by
            rw [← (List.cons.inj h).2]
            exact List.mem_append_right _ List.mem_cons_self
          rw [hback a hmem] at ha
          cases ha
  | cons c front' ih =>
      cases front with
      | nil =>
          rw [(List.cons.inj h).1, hfront c List.mem_cons_self] at ha
          cases ha
      | cons d front =>
          obtain ⟨rfl, hrest⟩ := List.cons.inj h
          rw [ih (fun x hx => hfront x (List.mem_cons_of_mem _ hx)) hrest]

/-! ## The discipline -/

/-- A trace in the order of the script, with one create at most and that right behind a probe
that found no service, and a report that says what the trace shows. -/
structure Disciplined (plan : InstallPlan) (t : List ServiceEvent)
    (r : Except Str ReinstallReport) : Prop where
  order : ∃ existed polls, (existed = true ↔ t.head? = some present) ∧
    1 ≤ polls ∧ polls ≤ removalPollAttempts ∧
    (CutOff (reinstallScript plan existed polls) t ∨
      (existed = true ∧ r = .error removalTimedOut ∧
        ∃ stopped, t = tornDown stopped ++ List.replicate removalPollAttempts present))
  once : (t.filter IsCreate).length ≤ 1
  afterProbe : ∀ front event back, t = front ++ event :: back → IsCreate event = true →
    front.getLast? = some absent
  report : ∀ report, r = .ok report →
    (report.existed = true ↔ t.head? = some present) ∧
    (report.deleted = true ↔ t.head? = some present) ∧
    (report.stopped = true ↔ (⟨.stop, .ok ()⟩ : ServiceEvent) ∈ t) ∧
    report.created = true ∧ report.started = true

section Discipline

variable {plan : InstallPlan} {t : List ServiceEvent} {r : Except Str ReinstallReport}

theorem PutUpRun.of_ok {report report' : ReinstallReport}
    (h : PutUpRun plan report t (.ok report')) :
    t = [⟨.create plan, .ok ()⟩, ⟨.start, .ok ()⟩] ∧
      report' = { report with created := true, started := true } := by
  cases h
  exact ⟨rfl, rfl⟩

theorem ReinstallRun.once (h : ReinstallRun plan t r) : (t.filter IsCreate).length ≤ 1 := by
  have hnone : ∀ {l : List ServiceEvent}, (∀ event ∈ l, IsCreate event = false) →
      l.filter IsCreate = [] := by
    intro l hl
    apply List.filter_eq_nil_iff.mpr
    intro event hevent
    rw [hl event hevent]
    exact Bool.false_ne_true
  rcases h.create with hnever | ⟨front, event, back, rfl, hfront, hback⟩
  · rw [hnone hnever]
    exact Nat.zero_le _
  · rw [List.filter_append, hnone hfront, List.nil_append]
    have hprobe : IsCreate absent = false := rfl
    rw [List.filter_cons, hprobe, if_neg Bool.false_ne_true, List.filter_cons, hnone hback]
    split <;> simp

theorem ReinstallRun.afterProbe (h : ReinstallRun plan t r) {front back : List ServiceEvent}
    {event : ServiceEvent} (ht : t = front ++ event :: back) (hevent : IsCreate event = true) :
    front.getLast? = some absent := by
  rcases h.create with hnever | ⟨front', event', back', ht', hfront, hback⟩
  · have hmem : event ∈ t := by
      rw [ht]
      exact List.mem_append_right _ List.mem_cons_self
    rw [hnever event hmem] at hevent
    cases hevent
  · have hplace : front ++ event :: back = (front' ++ [absent]) ++ event' :: back' := by
      rw [← ht, ht', List.append_assoc]
      rfl
    have hfront' : ∀ x ∈ front' ++ [absent], IsCreate x = false := by
      intro x hx
      rcases List.mem_append.mp hx with hx | hx
      · exact hfront x hx
      · rw [List.mem_singleton.mp hx]
        rfl
    rw [eq_of_append_cons_eq hevent hfront' hback hplace]
    exact List.getLast?_concat

theorem ReinstallRun.report {report : ReinstallReport} (h : ReinstallRun plan t (.ok report)) :
    (report.existed = true ↔ t.head? = some present) ∧
      (report.deleted = true ↔ t.head? = some present) ∧
      (report.stopped = true ↔ (⟨.stop, .ok ()⟩ : ServiceEvent) ∈ t) ∧
      report.created = true ∧ report.started = true := by
  cases h with
  | fresh hup =>
      obtain ⟨rfl, rfl⟩ := hup.of_ok
      refine ⟨?_, ?_, ?_, rfl, rfl⟩
      · simp [ReinstallReport.fresh, absent, present]
      · simp [ReinstallReport.fresh, absent, present]
      · simp [ReinstallReport.fresh, absent]
  | @replaced stopped k _ _ hk hup =>
      obtain ⟨rfl, rfl⟩ := hup.of_ok
      refine ⟨?_, ?_, ?_, rfl, rfl⟩
      · simp [tornDownReport, tornDown]
      · simp [tornDownReport, tornDown]
      · cases stopped with
        | error e => simp [tornDownReport, tornDown, present, absent, Except.isOk, Except.toBool]
        | ok _ => simp [tornDownReport, tornDown, Except.isOk, Except.toBool]

end Discipline

/-- The clean-reinstall discipline, against every backend. -/
theorem reinstall_disciplined (plan : InstallPlan) (service : Behaviour ServiceAnswer) :
    Disciplined plan ((reinstall plan).run service).1 ((reinstall plan).run service).2 := by
  have hrun := reinstallRun_of_runs (Prog.runs_run service (reinstall plan))
  refine ⟨hrun.order, hrun.once, fun front event back ht hevent => hrun.afterProbe ht hevent, ?_⟩
  intro report hreport
  rw [hreport] at hrun
  exact hrun.report

end DigDns
