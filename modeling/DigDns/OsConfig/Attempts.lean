import DigDns.OsConfig

/-!
# Attempts

The loop of `execute` does two things with a step: it attempts it, and it puts
what came of it into the report.  Here the two are apart, so that what was
attempted can be held against what is reported.
-/

namespace DigDns.OsConfig

open Rust Interaction

/-! ## Steps and their outcomes -/

/-- What one round of `execute` calls for a step, with the result it looks at. -/
def attempt (os : Os) (ourIp : Ipv4Addr) : Step → OsProg (Except Str Bool)
  | .write path content => writeIfChanged os path content
  | .removeOurs path => removeIfOurs path ourIp
  | .exec program args => do return (← run program args).map fun _ => true
  | .ps command _ _ => do return (← runPs command).map fun _ => true
  | .psExec command => do return (← runPs command).map fun _ => true
  | .note _ => return .ok true

/-- What it puts into the report. -/
def Report.tell (r : Report) : Step → Except Str Bool → Report
  | .write path _, .ok _ => r.record .applied path
  | .write path _, .error e => r.note (path ++ " not written: ".toList ++ e)
  | .removeOurs path, .ok true => r.record .removed path
  | .removeOurs _, .ok false => r
  | .removeOurs path, .error e => r.note (path ++ " not removed: ".toList ++ e)
  | .exec _ _, _ => r
  | .ps _ label bucket, .ok _ => r.record bucket label
  | .ps _ label _, .error e => r.note (label ++ ": ".toList ++ e)
  | .psExec _, _ => r
  | .note msg, _ => r.note msg

/-- A step that was attempted, and the outcome. -/
abbrev Attempt := Step × Except Str Bool

/-- Attempt the steps of a plan, whatever comes of each. -/
def attemptAll (os : Os) (ourIp : Ipv4Addr) : List Step → OsProg (List Attempt)
  | [] => return []
  | s :: steps => do
      let outcome ← attempt os ourIp s
      let attempts ← attemptAll os ourIp steps
      return (s, outcome) :: attempts

/-- The report of some attempts. -/
def Report.tellAll (r : Report) (attempts : List Attempt) : Report :=
  attempts.foldl (fun r a => r.tell a.1 a.2) r

theorem executeStep_eq (os : Os) (ourIp : Ipv4Addr) (r : Report) (s : Step) :
    executeStep os ourIp r s = attempt os ourIp s >>= fun outcome => .ret (r.tell s outcome) := by
  cases s with
  | write path content =>
      refine congrArg (writeIfChanged os path content >>= ·) (funext fun outcome => ?_)
      cases outcome <;> rfl
  | removeOurs path =>
      refine congrArg (removeIfOurs path ourIp >>= ·) (funext fun outcome => ?_)
      rcases outcome with e | removed
      · rfl
      · cases removed <;> rfl
  | exec program args =>
      refine Eq.trans ?_ (Prog.bind_bind (run program args) _ _).symm
      rfl
  | ps command label bucket =>
      refine Eq.trans ?_ (Prog.bind_bind (runPs command) _ _).symm
      refine congrArg (runPs command >>= ·) (funext fun outcome => ?_)
      cases outcome <;> rfl
  | psExec command =>
      refine Eq.trans ?_ (Prog.bind_bind (runPs command) _ _).symm
      rfl
  | note msg => rfl

theorem foldlM_executeStep_eq (os : Os) (ourIp : Ipv4Addr) (steps : List Step) (r : Report) :
    steps.foldlM (executeStep os ourIp) r =
      attemptAll os ourIp steps >>= fun attempts => .ret (r.tellAll attempts) := by
  induction steps generalizing r with
  | nil => rfl
  | cons s steps ih =>
      rw [List.foldlM_cons, executeStep_eq, attemptAll, Prog.bind_bind, Prog.bind_bind]
      refine congrArg (attempt os ourIp s >>= ·) (funext fun outcome => ?_)
      rw [Prog.bind_bind]
      exact ih _

/-- `execute` attempts every step and reports what came of them. -/
theorem execute_eq (os : Os) (action : Str) (ourIp : Ipv4Addr) (resolver : Option Str)
    (steps : List Step) : execute os action ourIp resolver steps =
      attemptAll os ourIp steps >>= fun attempts =>
        .ret ({ Report.started os action with resolver }.tellAll attempts) :=
  foldlM_executeStep_eq os ourIp steps _

/-! ## Calls that fail -/

/-- The answer tells that a call which was to change something did not.  The commands of
reloads and the flush do not count. -/
def fails : (q : Call) → Answer q → Bool
  | .createDirAll _, answer => !answer.isOk
  | .createNew _, answer => !answer.isOk
  | .writeAll _ _, answer => !answer.isOk
  | .syncAll _, answer => !answer.isOk
  | .fsWrite _ _, answer => !answer.isOk
  | .rename _ _, answer => !answer.isOk
  | .removeFile _, answer => !answer.isOk
  | .powershell command, answer => command ≠ clearDnsClientCache && !answer.toOption.getD false
  | _, _ => false

/-- No call of the trace fails. -/
def NoneFails (t : List (Event Answer)) : Prop :=
  ∀ event ∈ t, fails event.1 event.2 = false

instance (t : List (Event Answer)) : Decidable (NoneFails t) :=
  inferInstanceAs (Decidable (∀ event ∈ t, _))

@[simp] theorem noneFails_nil : NoneFails [] := List.forall_mem_nil _

@[simp] theorem noneFails_cons_iff {event : Event Answer} {t : List (Event Answer)} :
    NoneFails (event :: t) ↔ fails event.1 event.2 = false ∧ NoneFails t :=
  List.forall_mem_cons

@[simp] theorem noneFails_append_iff {t t' : List (Event Answer)} :
    NoneFails (t ++ t') ↔ NoneFails t ∧ NoneFails t' :=
  List.forall_mem_append

/-- One of the calls of the trace, with its answer, has the property. -/
def Has (p : (q : Call) → Answer q → Bool) (t : List (Event Answer)) : Prop :=
  ∃ event ∈ t, p event.1 event.2 = true

instance (p : (q : Call) → Answer q → Bool) (t : List (Event Answer)) : Decidable (Has p t) :=
  inferInstanceAs (Decidable (∃ event ∈ t, _))

section Has

variable {p : (q : Call) → Answer q → Bool} {t t' : List (Event Answer)}

@[simp] theorem not_has_nil : ¬Has p [] := by
  rintro ⟨event, hmem, -⟩
  cases hmem

@[simp] theorem has_cons_iff {event : Event Answer} :
    Has p (event :: t) ↔ p event.1 event.2 = true ∨ Has p t :=
  List.exists_mem_cons_iff _ _ _

@[simp] theorem has_append_iff : Has p (t ++ t') ↔ Has p t ∨ Has p t' := by
  simp only [Has, List.mem_append, or_and_right, exists_or]

end Has

/-- The answer tells that a file is removed. -/
def removes : (q : Call) → Answer q → Bool
  | .removeFile _, answer => answer.isOk
  | _, _ => false

/-- The answer is a content that is the tool's own. -/
def readsOurs (ourIp : Ipv4Addr) : (q : Call) → Answer q → Bool
  | .readToString _, answer => answer.toOption.any fun content => contentIsOurs content ourIp
  | _, _ => false

section Outcomes

@[simp] theorem isOk_ok {ε α : Type} (a : α) : (.ok a : Except ε α).isOk = true := rfl

@[simp] theorem isOk_error {ε α : Type} (e : ε) : (.error e : Except ε α).isOk = false := rfl

variable {os : Os} {ourIp : Ipv4Addr} {path content : Str} {t : List (Event Answer)}

@[simp] theorem isOk_map {ε α β : Type} (f : α → β) (result : Except ε α) :
    (result.map f).isOk = result.isOk := by
  cases result <;> rfl

@[simp] theorem isOk_mapError {ε ε' α : Type} (f : ε → ε') (result : Except ε α) :
    (result.mapError f).isOk = result.isOk := by
  cases result <;> rfl

theorem runs_writeNew {tmp : Str} {outcome : Except Str Unit}
    (h : Runs (writeNew tmp content) t outcome) : outcome.isOk = true ↔ NoneFails t := by
  obtain ⟨t₁, opened, t₂, rfl, hopened, hrest⟩ := runs_bind_iff.mp h
  obtain rfl := runs_query_iff.mp hopened
  cases opened with
  | error e =>
      obtain ⟨rfl, rfl⟩ := runs_ret_iff.mp hrest
      simp [fails]
  | ok file =>
      obtain ⟨t₃, written, t₄, rfl, hwritten, hsync⟩ := runs_bind_iff.mp hrest
      obtain rfl := runs_query_iff.mp hwritten
      cases written with
      | error e =>
          obtain ⟨rfl, rfl⟩ := runs_ret_iff.mp hsync
          simp [fails]
      | ok _ =>
          obtain rfl := runs_query_iff.mp hsync
          cases outcome <;> simp [fails]

theorem runs_atomicWrite {outcome : Except Str Unit} (hparent : (parent path).isSome = true)
    (hname : (fileName path).isSome = true) (h : Runs (atomicWrite os path content) t outcome) :
    outcome.isOk = true ↔ NoneFails t := by
  rw [atomicWrite] at h
  split at h
  · obtain ⟨t₁, written, t₂, rfl, hwritten, hrest⟩ := runs_bind_iff.mp h
    obtain rfl := runs_query_iff.mp hwritten
    obtain ⟨rfl, rfl⟩ := runs_ret_iff.mp hrest
    simp [fails]
  · obtain ⟨dir, hdir⟩ := Option.isSome_iff_exists.mp hparent
    obtain ⟨name, hfile⟩ := Option.isSome_iff_exists.mp hname
    simp only [hdir, hfile] at h
    obtain ⟨t₁, pid, t₂, rfl, hpid, hafterPid⟩ := runs_bind_iff.mp h
    obtain rfl := runs_query_iff.mp hpid
    obtain ⟨t₃, written, t₄, rfl, hwritten, hafterNew⟩ := runs_bind_iff.mp hafterPid
    have hnew := runs_writeNew hwritten
    cases written with
    | error e =>
        obtain ⟨rfl, rfl⟩ := runs_ret_iff.mp hafterNew
        simpa [fails] using hnew
    | ok _ =>
        obtain ⟨t₅, renamed, t₆, rfl, hrenamed, hafterRename⟩ := runs_bind_iff.mp hafterNew
        obtain rfl := runs_query_iff.mp hrenamed
        cases renamed with
        | error e =>
            obtain ⟨t₇, removed, t₈, rfl, -, hret⟩ := runs_bind_iff.mp hafterRename
            obtain ⟨rfl, rfl⟩ := runs_ret_iff.mp hret
            simp [fails]
        | ok _ =>
            obtain ⟨rfl, rfl⟩ := runs_ret_iff.mp hafterRename
            simpa [fails] using hnew

theorem runs_writeIfChanged {outcome : Except Str Bool} (hparent : (parent path).isSome = true)
    (hname : (fileName path).isSome = true)
    (h : Runs (writeIfChanged os path content) t outcome) :
    outcome.isOk = true ↔ NoneFails t := by
  obtain ⟨t₁, existing, t₂, rfl, hread, hafterRead⟩ := runs_bind_iff.mp h
  obtain rfl := runs_query_iff.mp hread
  split at hafterRead
  · obtain ⟨rfl, rfl⟩ := runs_ret_iff.mp hafterRead
    simp [fails]
  · obtain ⟨dir, hdir⟩ := Option.isSome_iff_exists.mp hparent
    obtain ⟨t₃, made, t₄, rfl, hmade, hafterMake⟩ := runs_bind_iff.mp hafterRead
    rw [makeParent, hdir] at hmade
    obtain rfl := runs_query_iff.mp hmade
    cases made with
    | error e =>
        obtain ⟨rfl, rfl⟩ := runs_ret_iff.mp hafterMake
        simp [fails]
    | ok _ =>
        obtain ⟨t₅, written, t₆, rfl, hwritten, hret⟩ := runs_bind_iff.mp hafterMake
        obtain ⟨rfl, rfl⟩ := runs_ret_iff.mp hret
        simpa [fails] using runs_atomicWrite hparent hname hwritten

/-- A removal succeeds, if no call fails, when the content that is read is the tool's own. -/
theorem runs_removeIfOurs {outcome : Except Str Bool}
    (h : Runs (removeIfOurs path ourIp) t outcome) :
    (outcome.isOk = true ↔ NoneFails t) ∧ (outcome = .ok true ↔ Has removes t) ∧
      (NoneFails t → (Has removes t ↔ Has (readsOurs ourIp) t)) := by
  obtain ⟨t₁, ours, t₂, rfl, hours, hafterRead⟩ := runs_bind_iff.mp h
  obtain ⟨t₃, content, t₄, rfl, hread, hret⟩ := runs_bind_iff.mp hours
  obtain rfl := runs_query_iff.mp hread
  obtain ⟨rfl, rfl⟩ := runs_ret_iff.mp hret
  split at hafterRead
  · rename_i hfound
    obtain ⟨t₅, removed, t₆, rfl, hremoved, hlast⟩ := runs_bind_iff.mp hafterRead
    obtain rfl := runs_query_iff.mp hremoved
    cases removed with
    | error e =>
        obtain ⟨rfl, rfl⟩ := runs_ret_iff.mp hlast
        simp [fails, removes]
    | ok _ =>
        obtain ⟨rfl, rfl⟩ := runs_ret_iff.mp hlast
        simp [fails, removes, readsOurs, hfound]
  · rename_i hforeign
    obtain ⟨rfl, rfl⟩ := runs_ret_iff.mp hafterRead
    simp [fails, removes, readsOurs, hforeign]

theorem runs_run {cmd : Str} {args : List Str} {outcome : Except Str Unit}
    (h : Runs (run cmd args) t outcome) : ∃ answer, t = [⟨.spawn cmd args, answer⟩] := by
  obtain ⟨t₁, answer, t₂, rfl, hcall, hrest⟩ := runs_bind_iff.mp h
  obtain rfl := runs_query_iff.mp hcall
  refine ⟨answer, ?_⟩
  cases answer with
  | error e => rw [(runs_ret_iff.mp hrest).1, List.append_nil]
  | ok exit =>
      dsimp only at hrest
      split at hrest
      · rw [(runs_ret_iff.mp hrest).1, List.append_nil]
      · rw [(runs_ret_iff.mp hrest).1, List.append_nil]

theorem runs_runPs {command : Str} {outcome : Except Str Unit} (h : Runs (runPs command) t outcome) :
    ∃ answer, t = [⟨.powershell command, answer⟩] ∧
      outcome.isOk = answer.toOption.getD false := by
  obtain ⟨t₁, answer, t₂, rfl, hcall, hrest⟩ := runs_bind_iff.mp h
  obtain rfl := runs_query_iff.mp hcall
  refine ⟨answer, ?_⟩
  cases answer with
  | error e =>
      obtain ⟨rfl, rfl⟩ := runs_ret_iff.mp hrest
      exact ⟨rfl, rfl⟩
  | ok success =>
      cases success with
      | false =>
          obtain ⟨rfl, rfl⟩ := runs_ret_iff.mp hrest
          exact ⟨rfl, rfl⟩
      | true =>
          obtain ⟨rfl, rfl⟩ := runs_ret_iff.mp hrest
          exact ⟨rfl, rfl⟩

/-- The attempt of a command step is one call. -/
theorem runs_attempt_exec {program : Str} {args : List Str} {outcome : Except Str Bool}
    (h : Runs (attempt os ourIp (.exec program args)) t outcome) :
    ∃ answer, t = [⟨.spawn program args, answer⟩] := by
  obtain ⟨t₁, result, t₂, rfl, hrun, hret⟩ := runs_bind_iff.mp h
  obtain ⟨answer, rfl⟩ := runs_run hrun
  obtain ⟨rfl, -⟩ := runs_ret_iff.mp hret
  exact ⟨answer, rfl⟩

theorem runs_attempt_ps {command : Str} {outcome : Except Str Bool}
    (h : Runs (runPs command >>= fun result => .ret (result.map fun _ => true)) t outcome) :
    ∃ answer, t = [⟨.powershell command, answer⟩] ∧ outcome.isOk = answer.toOption.getD false := by
  obtain ⟨t₁, result, t₂, rfl, hrun, hret⟩ := runs_bind_iff.mp h
  obtain ⟨answer, rfl, hanswer⟩ := runs_runPs hrun
  obtain ⟨rfl, rfl⟩ := runs_ret_iff.mp hret
  exact ⟨answer, rfl, (isOk_map _ _).trans hanswer⟩

/-- The steps whose failure the report notes. -/
def Step.isRecorded : Step → Bool
  | .write _ _ | .removeOurs _ | .ps _ _ _ => true
  | .exec _ _ | .psExec _ | .note _ => false

/-- A step as plans have them: files are written in directories, and the command that
is not recorded is the flush. -/
def Step.IsPlain : Step → Prop
  | .write path _ => (parent path).isSome = true ∧ (fileName path).isSome = true
  | .ps command _ _ => command ≠ clearDnsClientCache
  | .psExec command => command = clearDnsClientCache
  | _ => True

/-- Where a recorded step fails, one of its calls does. -/
theorem runs_attempt {s : Step} {outcome : Except Str Bool} (hs : s.IsPlain)
    (h : Runs (attempt os ourIp s) t outcome) :
    (s.isRecorded = true → outcome.isOk = true) ↔ NoneFails t := by
  cases s with
  | write path content =>
      rw [← runs_writeIfChanged hs.1 hs.2 h]
      exact ⟨fun hok => hok rfl, fun hok _ => hok⟩
  | removeOurs path =>
      rw [← (runs_removeIfOurs h).1]
      exact ⟨fun hok => hok rfl, fun hok _ => hok⟩
  | exec program args =>
      obtain ⟨answer, rfl⟩ := runs_attempt_exec h
      simp [Step.isRecorded, fails]
  | ps command label bucket =>
      obtain ⟨answer, rfl, hanswer⟩ := runs_attempt_ps h
      have hcommand : command ≠ clearDnsClientCache := hs
      simp [Step.isRecorded, fails, hanswer, hcommand]
  | psExec command =>
      obtain ⟨answer, rfl, -⟩ := runs_attempt_ps h
      have hcommand : command = clearDnsClientCache := hs
      simp [Step.isRecorded, fails, hcommand]
  | note msg =>
      obtain ⟨rfl, rfl⟩ := runs_ret_iff.mp h
      simp [Step.isRecorded]

/-- Where recorded steps of a plan fail, calls do. -/
theorem runs_attemptAll {steps : List Step} {attempts : List Attempt}
    (hsteps : ∀ s ∈ steps, s.IsPlain) (h : Runs (attemptAll os ourIp steps) t attempts) :
    (∀ a ∈ attempts, a.1.isRecorded = true → a.2.isOk = true) ↔ NoneFails t := by
  induction steps generalizing t attempts with
  | nil =>
      obtain ⟨rfl, rfl⟩ := runs_ret_iff.mp h
      simp
  | cons s steps ih =>
      obtain ⟨t₁, outcome, t₂, rfl, hfirst, hrest⟩ := runs_bind_iff.mp h
      obtain ⟨t₃, others, t₄, rfl, hothers, hret⟩ := runs_bind_iff.mp hrest
      obtain ⟨rfl, rfl⟩ := runs_ret_iff.mp hret
      rw [List.forall_mem_cons, noneFails_append_iff, List.append_nil,
        runs_attempt (hsteps s List.mem_cons_self) hfirst,
        ih (fun s' hs' => hsteps s' (List.mem_cons_of_mem _ hs')) hothers]

end Outcomes

end DigDns.OsConfig
