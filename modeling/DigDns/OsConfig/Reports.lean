import DigDns.OsConfig.Attempts
import DigDns.OsConfig.Uninstall

/-!
# Whether a report tells the truth

`configure` and `unconfigure` set `ok` after the plan, whatever came of its
steps, and `unconfigure` finds that there was nothing to remove when it has
removed nothing.  Both are held here against the attempts of the plan and the
files that were there.
-/

namespace DigDns.OsConfig

open Rust Interaction Posix

/-! ## Runs with their attempts -/

/-- What happened when a plan was carried out: the attempts at its steps, the calls
they made, and the calls made for the browser policies afterwards. -/
structure Log where
  attempts : List Attempt
  calls : List (Event Answer)
  policyCalls : List (Event Answer)

/-- `execute`, with the attempts and their calls. -/
def executeLogged (os : Os) (action : Str) (ourIp : Ipv4Addr) (resolver : Option Str)
    (steps : List Step) : OsProg (Report × List Attempt × List (Event Answer)) := do
  let out ← (attemptAll os ourIp steps).logged
  return ({ Report.started os action with resolver }.tellAll out.1, out.1, out.2)

/-- `configure`, with the log of its plan unless it is refused. -/
def configureLogged (os : Os) (config : Config) (browserPolicy : Bool) :
    OsProg (Report × Option Log) := do
  if !(← isElevated os) then
    return (.notElevated os "configure-os".toList (elevationMessage os), none)
  else if !os.isSupported then return (.unsupported os "configure-os".toList, none)
  else
    let owner ← (if os = .linux then detectResolvOwnerLive else pure .unknown)
    let resolver := if os = .linux then some owner.label else none
    let out ← executeLogged os "configure-os".toList config.loopbackIp resolver
      (configureResolverSteps os owner config.loopbackIp config.tld)
    let wired := !out.1.applied.isEmpty
    let policy ← (if browserPolicy then applyBrowserPolicy os config.loopbackIp out.1
      else pure out.1).logged
    let activated ← (if wired then verifyOsRouting config else pure false)
    return ({ applyActivationResult policy.1 os wired activated with ok := true },
      some ⟨out.2.1, out.2.2, policy.2⟩)

/-- `unconfigure`, with the log of its plan unless it is refused. -/
def unconfigureLogged (os : Os) (config : Config) : OsProg (Report × Option Log) := do
  if !(← isElevated os) then
    return (.notElevated os "unconfigure-os".toList (elevationMessage os), none)
  else if !os.isSupported then return (.unsupported os "unconfigure-os".toList, none)
  else
    let out ← executeLogged os "unconfigure-os".toList config.loopbackIp none
      (unconfigureResolverSteps os config.loopbackIp config.tld)
    let policy ← (removeBrowserPolicy os config.loopbackIp out.1).logged
    return (noteIfNothingRemoved { policy.1 with ok := true },
      some ⟨out.2.1, out.2.2, policy.2⟩)

theorem executeLogged_bind {α : Type} (os : Os) (action : Str) (ourIp : Ipv4Addr)
    (resolver : Option Str) (steps : List Step) (f : Report → OsProg α) :
    (executeLogged os action ourIp resolver steps >>= fun out => f out.1) =
      execute os action ourIp resolver steps >>= f := by
  rw [execute_eq, executeLogged, Prog.bind_bind, Prog.bind_bind]
  exact Prog.logged_bind _ fun attempts =>
    f ({ Report.started os action with resolver }.tellAll attempts)

/-- The log changes nothing about a run of `configure`, -/
theorem configure_eq (os : Os) (config : Config) (browserPolicy : Bool) :
    configure os config browserPolicy =
      configureLogged os config browserPolicy >>= fun out => .ret out.1 := by
  rw [configure, configureLogged, Prog.bind_bind]
  refine congrArg (isElevated os >>= ·) (funext fun elevated => ?_)
  split
  · rfl
  split
  · rfl
  refine (congrArg (_ >>= ·) (funext fun owner => ?_)).trans (Prog.bind_bind _ _ _).symm
  rw [← executeLogged_bind, Prog.bind_bind]
  refine congrArg (executeLogged os _ _ _ _ >>= ·) (funext fun out => ?_)
  rw [Prog.bind_bind]
  refine Eq.trans ?_ (congrArg (_ >>= ·) (funext fun policy => (Prog.bind_bind _ _ _).symm))
  exact (Prog.logged_bind _ fun r => _).symm

/-- or of `unconfigure`. -/
theorem unconfigure_eq (os : Os) (config : Config) :
    unconfigure os config = unconfigureLogged os config >>= fun out => .ret out.1 := by
  rw [unconfigure, unconfigureLogged, Prog.bind_bind]
  refine congrArg (isElevated os >>= ·) (funext fun elevated => ?_)
  split
  · rfl
  split
  · rfl
  rw [← executeLogged_bind, Prog.bind_bind]
  refine congrArg (executeLogged os _ _ _ _ >>= ·) (funext fun out => ?_)
  rw [Prog.bind_bind]
  exact (Prog.logged_bind _ _).symm

/-! ## What is removed and noted -/

/-- The note of `note_if_nothing_removed`. -/
def nothingToRemove : Str := "nothing to remove (no dig-dns OS resolver config found)".toList

/-- What is done to the report while the calls are made: the note is not added, and
away from Windows something is listed as removed if a file is. -/
def Accounts (os : Os) (r r' : Report) (t : List (Event Answer)) : Prop :=
  (nothingToRemove ∈ r'.notes → nothingToRemove ∈ r.notes) ∧
    (os ≠ .windows → (r'.removed = [] ↔ r.removed = [] ∧ ¬Has removes t))

section Accounting

variable {os : Os} {ourIp : Ipv4Addr} {r r₁ r' : Report} {t t' : List (Event Answer)}

theorem Accounts.refl (h : ¬Has removes t) : Accounts os r r t :=
  ⟨id, fun _ => ⟨fun hnil => ⟨hnil, h⟩, And.left⟩⟩

theorem Accounts.trans (h : Accounts os r r₁ t) (h' : Accounts os r₁ r' t') :
    Accounts os r r' (t ++ t') := by
  refine ⟨fun hnote => h.1 (h'.1 hnote), fun hos => ?_⟩
  rw [h'.2 hos, h.2 hos, has_append_iff, not_or, and_assoc]

theorem Accounts.note {msg : Str} (hmsg : msg ≠ nothingToRemove) (h : ¬Has removes t) :
    Accounts os r (r.note msg) t := by
  refine ⟨fun hnote => ?_, fun _ => ⟨fun hnil => ⟨hnil, h⟩, And.left⟩⟩
  rcases List.mem_append.mp hnote with hmem | hmem
  · exact hmem
  · exact absurd (List.mem_singleton.mp hmem).symm hmsg

theorem Accounts.removed (label : Str) (h : Has removes t) :
    Accounts os r (r.record .removed label) t :=
  ⟨id, fun _ => ⟨fun hnil => absurd hnil (List.append_ne_nil_of_right_ne_nil _ (by simp)),
    fun hnone => absurd h hnone.2⟩⟩

/-- A step that only takes away, with paths and labels that are no prefix of the note. -/
def Step.IsRemoval (os : Os) : Step → Prop
  | .removeOurs path => path.head? = some '/'
  | .ps _ label _ => os = .windows ∧ label.head? = some '.'
  | .exec _ _ | .psExec _ => True
  | .write _ _ | .note _ => False

theorem isRemoval_of_mem {ip : Ipv4Addr} {tld : Str} {s : Step}
    (h : s ∈ unconfigureResolverSteps os ip tld) : s.IsRemoval os := by
  cases os with
  | other name => cases h
  | _ =>
      simp only [unconfigureResolverSteps, exec, List.mem_cons, List.not_mem_nil, or_false] at h
      rcases h with rfl | rfl | rfl | rfl | rfl | rfl <;> trivial

theorem ne_nothingToRemove {msg : Str} {c : Char} (h : msg.head? = some c) (hc : c ≠ 'n') :
    msg ≠ nothingToRemove := by
  rintro rfl
  exact hc (Option.some.inj h).symm

theorem head?_append_of_head? {label rest : Str} {c : Char} (h : label.head? = some c) :
    (label ++ rest).head? = some c := by
  rw [List.head?_append, h, Option.some_or]

theorem accounts_attempt {s : Step} {outcome : Except Str Bool} (hs : s.IsRemoval os)
    (h : Runs (attempt os ourIp s) t outcome) : Accounts os r (r.tell s outcome) t := by
  cases s with
  | write path content => exact hs.elim
  | removeOurs path =>
      have hremoves := (runs_removeIfOurs h).2.1
      rcases outcome with e | removed
      · refine .note ?_ (mt hremoves.mpr (by simp))
        exact ne_nothingToRemove (head?_append_of_head? (head?_append_of_head? hs)) (by decide)
      · cases removed with
        | false => exact .refl (mt hremoves.mpr (by simp))
        | true => exact .removed path (hremoves.mp rfl)
  | exec program args =>
      obtain ⟨answer, rfl⟩ := runs_attempt_exec h
      exact .refl (by simp [removes])
  | ps command label bucket =>
      refine ⟨fun hnote => ?_, fun hwindows => absurd hs.1 hwindows⟩
      rcases outcome with e | done
      · rcases List.mem_append.mp hnote with hmem | hmem
        · exact hmem
        · exact absurd (List.mem_singleton.mp hmem).symm
            (ne_nothingToRemove (head?_append_of_head? (head?_append_of_head? hs.2)) (by decide))
      · cases bucket <;> exact hnote
  | psExec command =>
      obtain ⟨answer, rfl, -⟩ := runs_attempt_ps h
      exact .refl (by simp [removes])
  | note msg => exact hs.elim

theorem accounts_attemptAll {steps : List Step} {attempts : List Attempt}
    (hsteps : ∀ s ∈ steps, s.IsRemoval os) (h : Runs (attemptAll os ourIp steps) t attempts) :
    Accounts os r (r.tellAll attempts) t := by
  induction steps generalizing r t attempts with
  | nil =>
      obtain ⟨rfl, rfl⟩ := runs_ret_iff.mp h
      exact .refl not_has_nil
  | cons s steps ih =>
      obtain ⟨t₁, outcome, t₂, rfl, hfirst, hrest⟩ := runs_bind_iff.mp h
      obtain ⟨t₃, others, t₄, rfl, hothers, hret⟩ := runs_bind_iff.mp hrest
      obtain ⟨rfl, rfl⟩ := runs_ret_iff.mp hret
      rw [List.append_nil]
      exact (accounts_attempt (hsteps s List.mem_cons_self) hfirst).trans
        (ih (fun s' hs' => hsteps s' (List.mem_cons_of_mem _ hs')) hothers)

/-- Where none of its calls fails, a plan removes a file exactly if it reads a content that
is the tool's own. -/
theorem removes_iff_readsOurs {steps : List Step} {attempts : List Attempt}
    (hsteps : ∀ s ∈ steps, s.IsRemoval os) (h : Runs (attemptAll os ourIp steps) t attempts)
    (hnone : NoneFails t) : Has removes t ↔ Has (readsOurs ourIp) t := by
  induction steps generalizing t attempts with
  | nil =>
      obtain ⟨rfl, -⟩ := runs_ret_iff.mp h
      exact iff_of_false not_has_nil not_has_nil
  | cons s steps ih =>
      obtain ⟨t₁, outcome, t₂, rfl, hfirst, hrest⟩ := runs_bind_iff.mp h
      obtain ⟨t₃, others, t₄, rfl, hothers, hret⟩ := runs_bind_iff.mp hrest
      obtain ⟨rfl, -⟩ := runs_ret_iff.mp hret
      rw [List.append_nil] at hnone ⊢
      obtain ⟨hnone₁, hnone₃⟩ := noneFails_append_iff.mp hnone
      have hstep : Has removes t₁ ↔ Has (readsOurs ourIp) t₁ := by
        cases s with
        | write path content => exact (hsteps _ List.mem_cons_self).elim
        | removeOurs path => exact (runs_removeIfOurs hfirst).2.2 hnone₁
        | exec program args =>
            obtain ⟨answer, rfl⟩ := runs_attempt_exec hfirst
            simp [removes, readsOurs]
        | ps command label bucket =>
            obtain ⟨answer, rfl, -⟩ := runs_attempt_ps hfirst
            simp [removes, readsOurs]
        | psExec command =>
            obtain ⟨answer, rfl, -⟩ := runs_attempt_ps hfirst
            simp [removes, readsOurs]
        | note msg => exact (hsteps _ List.mem_cons_self).elim
      rw [has_append_iff, has_append_iff, hstep,
        ih (fun s' hs' => hsteps s' (List.mem_cons_of_mem _ hs')) hothers hnone₃]

theorem accounts_foldlM {α : Type} {f : Report → α → OsProg Report} {l : List α}
    (hf : ∀ {r a t r'}, Runs (f r a) t r' → Accounts os r r' t)
    (h : Runs (l.foldlM f r) t r') : Accounts os r r' t := by
  induction l generalizing r t with
  | nil =>
      obtain ⟨rfl, rfl⟩ := runs_ret_iff.mp h
      exact .refl not_has_nil
  | cons a l ih =>
      rw [List.foldlM_cons] at h
      obtain ⟨t₁, r₁, t₂, rfl, hfirst, hrest⟩ := runs_bind_iff.mp h
      exact (hf hfirst).trans (ih hrest)

theorem accounts_removeLinuxPolicy {path : Str} (h : Runs (removeLinuxPolicy r path) t r') :
    Accounts os r r' t := by
  obtain ⟨t₁, present, t₂, rfl, hpresent, hafterCheck⟩ := runs_bind_iff.mp h
  obtain rfl := runs_query_iff.mp hpresent
  split at hafterCheck
  · obtain ⟨t₃, removed, t₄, rfl, hremoved, hret⟩ := runs_bind_iff.mp hafterCheck
    obtain rfl := runs_query_iff.mp hremoved
    cases removed with
    | error e =>
        obtain ⟨rfl, rfl⟩ := runs_ret_iff.mp hret
        exact .refl (by simp [removes])
    | ok _ =>
        obtain ⟨rfl, rfl⟩ := runs_ret_iff.mp hret
        exact .removed path (by simp [removes])
  · obtain ⟨rfl, rfl⟩ := runs_ret_iff.mp hafterCheck
    exact .refl (by simp [removes])

theorem accounts_removeBrowserPolicy (h : Runs (removeBrowserPolicy os ourIp r) t r') :
    Accounts os r r' t := by
  cases os with
  | linux => exact accounts_foldlM accounts_removeLinuxPolicy h
  | macos =>
      obtain ⟨t₁, outcome, t₂, rfl, hremove, hrest⟩ := runs_bind_iff.mp h
      have hremoves := (runs_removeIfOurs hremove).2.1
      rcases outcome with e | removed
      · obtain ⟨rfl, rfl⟩ := runs_ret_iff.mp hrest
        rw [List.append_nil]
        exact .refl (mt hremoves.mpr (by simp))
      · cases removed with
        | false =>
            obtain ⟨rfl, rfl⟩ := runs_ret_iff.mp hrest
            rw [List.append_nil]
            exact .refl (mt hremoves.mpr (by simp))
        | true =>
            obtain ⟨rfl, rfl⟩ := runs_ret_iff.mp hrest
            rw [List.append_nil]
            exact .removed _ (hremoves.mp rfl)
  | windows =>
      refine accounts_foldlM (fun {r a t r'} hround => ?_) h
      obtain ⟨t₁, outcome, t₂, rfl, -, hrest⟩ := runs_bind_iff.mp hround
      have hnotes : r'.notes = r.notes := by
        rcases outcome with e | removed
        · rw [(runs_ret_iff.mp hrest).2]
        · cases removed with
          | false => rw [(runs_ret_iff.mp hrest).2]
          | true =>
              rw [(runs_ret_iff.mp hrest).2]
              rfl
      exact ⟨fun hnote => hnotes ▸ hnote, fun hwindows => absurd rfl hwindows⟩
  | other name =>
      obtain ⟨rfl, rfl⟩ := runs_ret_iff.mp h
      exact .refl not_has_nil

end Accounting

/-! ## What the subcommands report -/

/-- The commands of the rules are no flush. -/
theorem ne_clearDnsClientCache {command : Str} {c : Char} (h : command.head? = some c)
    (hc : c ≠ 'C') : command ≠ clearDnsClientCache := by
  rintro rfl
  exact hc (Option.some.inj h).symm

theorem isPlain_of_mem_configure {os : Os} {owner : ResolvOwner} {ip : Ipv4Addr} {tld : Str}
    (htld : isSafeTld tld = true) {s : Step} (h : s ∈ configureResolverSteps os owner ip tld) :
    s.IsPlain := by
  cases s with
  | write path content => exact (artifact_of_write_mem htld h).2.1
  | ps command label bucket =>
      rw [(windows_of_ps_mem (psCommands_configure ..) h).2]
      exact ne_clearDnsClientCache rfl (by decide)
  | psExec command => exact (windows_of_psExec_mem (psExecCommands_configure ..) h).2
  | _ => trivial

theorem isPlain_of_mem_unconfigure {os : Os} {ip : Ipv4Addr} {tld : Str} {s : Step}
    (h : s ∈ unconfigureResolverSteps os ip tld) : s.IsPlain := by
  cases s with
  | write path content => exact absurd h (write_not_mem_unconfigure _ _ _ _ _)
  | ps command label bucket =>
      rw [(windows_of_ps_mem (psCommands_unconfigure ..) h).2]
      exact ne_clearDnsClientCache rfl (by decide)
  | psExec command => exact (windows_of_psExec_mem (psExecCommands_unconfigure ..) h).2
  | _ => trivial

section Subcommands

variable {step : Machine → (q : Call) → Answer q → Machine → Prop} {os : Os} {config : Config}
  {m m' : Machine} {r : Report} {log : Option Log}

theorem exec_executeLogged {action : Str} {ourIp : Ipv4Addr} {resolver : Option Str}
    {steps : List Step} {out : Report × List Attempt × List (Event Answer)}
    (h : Exec step m (executeLogged os action ourIp resolver steps) out m') :
    out.1 = { Report.started os action with resolver }.tellAll out.2.1 ∧
      Runs (attemptAll os ourIp steps) out.2.2 out.2.1 := by
  obtain ⟨inner, m₁, hinner, hret⟩ := exec_bind_iff.mp h
  obtain ⟨rfl, -⟩ := exec_ret_iff.mp hret
  exact ⟨rfl, runs_of_exec_logged hinner⟩

/-- A run of `configure` is refused, or attempts a plan and is `ok`. -/
theorem exec_configureLogged {browserPolicy : Bool}
    (h : Exec step m (configureLogged os config browserPolicy) (r, log) m') :
    (log = none ∧ r.ok = false) ∨ ∃ owner l, log = some l ∧ r.ok = true ∧
      Runs (attemptAll os config.loopbackIp
        (configureResolverSteps os owner config.loopbackIp config.tld)) l.calls l.attempts := by
  obtain ⟨elevated, m₁, -, hrest⟩ := exec_bind_iff.mp h
  split at hrest
  · cases (exec_ret_iff.mp hrest).1
    exact Or.inl ⟨rfl, rfl⟩
  split at hrest
  · cases (exec_ret_iff.mp hrest).1
    exact Or.inl ⟨rfl, rfl⟩
  obtain ⟨owner, m₂, -, hplan⟩ := exec_bind_iff.mp hrest
  obtain ⟨out, m₃, hexecute, hafter⟩ := exec_bind_iff.mp hplan
  obtain ⟨policy, m₄, -, hverify⟩ := exec_bind_iff.mp hafter
  obtain ⟨activated, m₅, -, hret⟩ := exec_bind_iff.mp hverify
  cases (exec_ret_iff.mp hret).1
  exact Or.inr ⟨owner, _, rfl, rfl, (exec_executeLogged hexecute).2⟩

/-- A run of `unconfigure` is refused, or it is `ok` and, away from Windows, adds the note
if no file is removed. -/
theorem exec_unconfigureLogged (h : Exec step m (unconfigureLogged os config) (r, log) m') :
    (log = none ∧ r.ok = false ∧ nothingToRemove ∉ r.notes) ∨ ∃ l, log = some l ∧ r.ok = true ∧
      Runs (attemptAll os config.loopbackIp
        (unconfigureResolverSteps os config.loopbackIp config.tld)) l.calls l.attempts ∧
      (os ≠ .windows → (nothingToRemove ∈ r.notes ↔ ¬Has removes (l.calls ++ l.policyCalls))) := by
  obtain ⟨elevated, m₁, -, hrest⟩ := exec_bind_iff.mp h
  split at hrest
  · cases (exec_ret_iff.mp hrest).1
    refine Or.inl ⟨rfl, rfl, fun hnote => absurd (List.mem_singleton.mp hnote).symm ?_⟩
    refine ne_nothingToRemove (c := 'c') ?_ (by decide)
    rw [elevationMessage]
    split <;> rfl
  split at hrest
  · cases (exec_ret_iff.mp hrest).1
    exact Or.inl ⟨rfl, rfl, fun hnote =>
      absurd (List.mem_singleton.mp hnote).symm (ne_nothingToRemove rfl (by decide))⟩
  obtain ⟨out, m₂, hexecute, hafter⟩ := exec_bind_iff.mp hrest
  obtain ⟨policy, m₃, hpolicy, hret⟩ := exec_bind_iff.mp hafter
  cases (exec_ret_iff.mp hret).1
  obtain ⟨hreport, hruns⟩ := exec_executeLogged hexecute
  have hrounds := runs_of_exec_logged hpolicy
  rw [hreport] at hrounds
  obtain ⟨hnotes, hremoved⟩ := (accounts_attemptAll (fun s => isRemoval_of_mem) hruns).trans
    (accounts_removeBrowserPolicy hrounds)
  have hnew : nothingToRemove ∉ policy.1.notes := fun hnote => List.not_mem_nil (hnotes hnote)
  refine Or.inr ⟨_, rfl, ?_, hruns, fun hos => ?_⟩
  · rw [noteIfNothingRemoved]
    split <;> rfl
  · have hnone : policy.1.removed = [] ↔ ¬Has removes (out.2.2 ++ policy.2) :=
      (hremoved hos).trans (and_iff_right rfl)
    rw [← hnone, noteIfNothingRemoved]
    split
    · rename_i hempty
      exact iff_of_true (List.mem_append_right _ List.mem_cons_self) (List.isEmpty_iff.mp hempty)
    · rename_i hsome
      exact iff_of_false hnew fun hempty => hsome (List.isEmpty_iff.mpr hempty)

end Subcommands

/-! ## Whether it is true -/

/-- The report is `ok` only if no step failed whose failure it has to tell. -/
def OkIsTrue (r : Report) (log : Option Log) : Prop :=
  r.ok = true → ∀ l ∈ log, ∀ a ∈ l.attempts, a.1.isRecorded = true → a.2.isOk = true

instance (r : Report) (log : Option Log) : Decidable (OkIsTrue r log) :=
  inferInstanceAs (Decidable (_ → ∀ l ∈ log, ∀ a ∈ l.attempts, _))

theorem forall_mem_some_iff {l : Log} {P : Log → Prop} : (∀ l' ∈ some l, P l') ↔ P l := by
  simp

theorem okIsTrue_some_iff {r : Report} {l : Log} (hok : r.ok = true) :
    OkIsTrue r (some l) ↔ ∀ a ∈ l.attempts, a.1.isRecorded = true → a.2.isOk = true := by
  rw [OkIsTrue, forall_mem_some_iff]
  exact ⟨fun h => h hok, fun h _ => h⟩

/-- An artifact of ours stands at a path that `unconfigure` looks at. -/
def HoldsOurs (os : Os) (config : Config) (m : Machine) : Prop :=
  ∃ path, .removeOurs path ∈ unconfigureResolverSteps os config.loopbackIp config.tld ∧
    ReadsOurs path config.loopbackIp m

/-- The note that there was nothing to remove is added only if no artifact of ours was
on the machine. -/
def NoteIsTrue (os : Os) (config : Config) (m : Machine) (r : Report) : Prop :=
  nothingToRemove ∈ r.notes → ¬HoldsOurs os config m

/-- The report of a run from the machine is true exactly if the run is refused, or no call
of its plan fails and, where an artifact of ours is there, `unconfigure` gets to read one
or removes a policy file. -/
theorem reports_areTrue_iff (ps : PowerShell) (os : Os) (config : Config)
    (hvalid : config.validate = .ok ()) (m m' : Machine) (out : Report × Option Log) :
    (∀ browserPolicy, Exec (Answers ps) m (configureLogged os config browserPolicy) out m' →
      (OkIsTrue out.1 out.2 ↔ ∀ l ∈ out.2, NoneFails l.calls)) ∧
    (Exec (Answers ps) m (unconfigureLogged os config) out m' →
      (OkIsTrue out.1 out.2 ∧ NoteIsTrue os config m out.1 ↔ ∀ l ∈ out.2, NoneFails l.calls ∧
        (HoldsOurs os config m →
          Has (readsOurs config.loopbackIp) l.calls ∨ Has removes l.policyCalls))) := by
  obtain ⟨r, log⟩ := out
  dsimp only
  have hsafe := ((Config.validate_eq_ok_iff config).mp hvalid).tld
  refine ⟨fun browserPolicy h => ?_, fun h => ?_⟩
  · rcases exec_configureLogged h with ⟨rfl, hok⟩ | ⟨owner, l, rfl, hok, hruns⟩
    · simp [OkIsTrue]
    · rw [okIsTrue_some_iff hok, forall_mem_some_iff]
      exact runs_attemptAll (fun s => isPlain_of_mem_configure hsafe) hruns
  · rcases exec_unconfigureLogged h with ⟨rfl, hok, hnote⟩ | ⟨l, rfl, hok, hruns, hnote⟩
    · simp [OkIsTrue, NoteIsTrue, hnote]
    · rw [okIsTrue_some_iff hok, forall_mem_some_iff,
        runs_attemptAll (fun s => isPlain_of_mem_unconfigure) hruns]
      refine and_congr_right fun hnone => ?_
      by_cases hwindows : os = .windows
      · -- The plan for Windows looks at no file.
        have hours : ¬HoldsOurs os config m := by
          rintro ⟨path, hmem, -⟩
          have hremoved := removedPath_of_mem hmem
          rw [removedPaths_unconfigure, hwindows] at hremoved
          cases hremoved
        exact iff_of_true (fun _ => hours) fun hholds => absurd hholds hours
      · rw [NoteIsTrue, hnote hwindows, not_imp_not, has_append_iff,
          removes_iff_readsOurs (fun s => isRemoval_of_mem) hruns hnone]

/-! ## Reports of some runs -/

/-- A machine that refuses to make directories and to remove files. -/
def refuse (m : Machine) : (q : Call) → Answer q × Machine
  | .createDirAll _ => (.error "read-only file system".toList, m)
  | .removeFile _ => (.error "operation not permitted".toList, m)
  | q => serve m q

theorem answers_refuse (m : Machine) (q : Call) :
    Answers PowerShell.reference m q (refuse m q).1 (refuse m q).2 := by
  cases q with
  | createDirAll path => exact ⟨m.files, .refl _, rfl, fun h => by cases h⟩
  | removeFile path => exact rfl
  | _ => exact answers_serve m _

/-- A machine with the resolver file of the default configuration. -/
def wired : Machine where
  files place :=
    if place = ["etc".toList] ∨ place = ["etc".toList, "resolver".toList] then some (.dir rootAttrs)
    else if place = ["etc".toList, "resolver".toList, defaultTld] then
      some (.file rootAttrs (utf8 (resolverFileContent Config.default.loopbackIp)))
    else none
  rules := []

theorem holdsOurs_wired : HoldsOurs .macos Config.default wired := by
  have hread : wired.files.read (names (macosResolverPath defaultTld)) =
      some (utf8 (resolverFileContent Config.default.loopbackIp)) := by
    decide +kernel
  refine ⟨macosResolverPath defaultTld, ?_, _, hread,
    (hasMarker_resolverFileContent _).contentIsOurs _⟩
  exact List.mem_cons_of_mem _ (List.mem_cons_of_mem _ (List.mem_cons_of_mem _ List.mem_cons_self))

/-- Where nothing fails, the reports of the two subcommands are true. -/
theorem reports_areTrue_served :
    OkIsTrue ((configureLogged .macos Config.default false).eval serve Machine.bare).1.1
      ((configureLogged .macos Config.default false).eval serve Machine.bare).1.2 ∧
    OkIsTrue ((unconfigureLogged .macos Config.default).eval serve wired).1.1
      ((unconfigureLogged .macos Config.default).eval serve wired).1.2 ∧
    NoteIsTrue .macos Config.default wired
      ((unconfigureLogged .macos Config.default).eval serve wired).1.1 := by
  have hreads : ∀ l ∈ ((unconfigureLogged .macos Config.default).eval serve wired).1.2,
      NoneFails l.calls ∧ Has (readsOurs Config.default.loopbackIp) l.calls := by
    decide +kernel
  constructor
  · exact ((reports_areTrue_iff _ .macos Config.default default_validate Machine.bare _ _).1 false
      (exec_eval answers_serve _ _)).mpr (by decide +kernel)
  · refine ((reports_areTrue_iff _ .macos Config.default default_validate wired _ _).2
      (exec_eval answers_serve _ _)).mpr fun l hl => ?_
    exact ⟨(hreads l hl).1, fun _ => Or.inl (hreads l hl).2⟩

/-- On a machine that refuses, `configure` writes nothing and is `ok`, and `unconfigure`
finds nothing to remove where its own files are. -/
theorem reports_not_true :
    (∃ out m', Exec (Answers PowerShell.reference) Machine.bare
      (configureLogged .macos Config.default false) out m' ∧ ¬OkIsTrue out.1 out.2) ∧
    ∃ out m', Exec (Answers PowerShell.reference) wired
      (unconfigureLogged .macos Config.default) out m' ∧ ¬OkIsTrue out.1 out.2 ∧
        ¬NoteIsTrue .macos Config.default wired out.1 := by
  refine ⟨⟨_, _, exec_eval answers_refuse _ _, by decide +kernel⟩,
    ⟨_, _, exec_eval answers_refuse _ _, by decide +kernel, fun htrue => ?_⟩⟩
  exact htrue (by decide +kernel) holdsOurs_wired

end DigDns.OsConfig
