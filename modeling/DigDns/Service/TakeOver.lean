import DigDns.Service.Backend
import DigDns.OsConfig.Writes

/-!
# Who runs after a reinstall

`reinstall` stops the service only where it finds it registered, and the Linux
backend looks for a registration in `/etc/systemd/system` alone.  A process
that is not stopped is still there at the start, which then does nothing: the
process that runs afterwards is the old one.
-/

namespace DigDns

open Rust Interaction Posix OsConfig SystemServiceBackend UnitFile

variable {ps : PowerShell} {host host' : LinuxHost}

/-! ## The operations of the backend -/

theorem exec_systemctl {args : List Str} {result : Except Str Unit}
    (h : Exec (HostAnswers ps) host (systemctl args) result host') :
    ∃ answer, host'.machine = host.machine ∧
      SystemctlAnswers host.machine.files host.systemd args answer host'.systemd ∧
      (result = .ok () → Succeeded answer) := by
  obtain ⟨answer, host₁, hcall, hrest⟩ := exec_bind_iff.mp h
  obtain ⟨hmachine, hsystemd⟩ := exec_query_iff.mp hcall
  rw [if_pos rfl] at hsystemd
  cases answer with
  | error e =>
      obtain ⟨rfl, rfl⟩ := exec_ret_iff.mp hrest
      exact ⟨_, hmachine, hsystemd, fun h => by cases h⟩
  | ok exit =>
      cases hsuccess : exit.success with
      | true =>
          simp only [hsuccess, if_true] at hrest
          obtain ⟨rfl, rfl⟩ := exec_ret_iff.mp hrest
          exact ⟨_, hmachine, hsystemd, fun _ => hsuccess⟩
      | false =>
          simp only [hsuccess, Bool.false_eq_true, if_false] at hrest
          obtain ⟨rfl, rfl⟩ := exec_ret_iff.mp hrest
          exact ⟨_, hmachine, hsystemd, fun h => by cases h⟩

theorem exec_isInstalled {result : Except Str Bool}
    (h : Exec (HostAnswers ps) host isInstalled result host') :
    host' = host ∧ result = .ok (host.machine.files.isFile (names linuxUnitFilePath)) := by
  obtain ⟨present, host₁, hcall, hrest⟩ := exec_bind_iff.mp h
  obtain ⟨rfl, rfl⟩ := exec_query_iff.mp hcall
  obtain ⟨rfl, rfl⟩ := exec_ret_iff.mp hrest
  exact ⟨rfl, rfl⟩

/-- What a stop leaves running. -/
def Systemd.afterStop (s : Systemd) : Option Process := s.active.filter fun p => !p.stoppable

theorem exec_stop {result : Except Str Unit} (h : Exec (HostAnswers ps) host stop result host') :
    host'.machine = host.machine ∧ host'.systemd.active = host.systemd.afterStop := by
  obtain ⟨answer, hmachine, hsystemd, -⟩ := exec_systemctl h
  refine ⟨hmachine, ?_⟩
  rw [SystemctlAnswers, if_pos rfl] at hsystemd
  rw [Systemd.afterStop]
  cases hactive : host.systemd.active with
  | none =>
      simp only [hactive] at hsystemd
      rw [hsystemd, hactive]
      rfl
  | some process =>
      simp only [hactive] at hsystemd
      cases hstoppable : process.stoppable with
      | true =>
          rw [if_pos hstoppable] at hsystemd
          simp [hsystemd.2, Option.filter, hstoppable]
      | false =>
          rw [if_neg (by simp [hstoppable])] at hsystemd
          simp [hsystemd.2, hactive, Option.filter, hstoppable]

theorem exec_start (h : Exec (HostAnswers ps) host start (.ok ()) host') :
    host'.systemd.active.map Process.definition =
      (host.systemd.active.map Process.definition).or host.systemd.loaded := by
  obtain ⟨answer, -, hsystemd, hsucceeded⟩ := exec_systemctl h
  have hverb : ¬["start".toList, linuxUnitFileName] = ["stop".toList, linuxUnitFileName] := by
    intro h
    exact absurd (List.cons.inj h).1 (by decide)
  rw [SystemctlAnswers, if_neg hverb, if_pos rfl] at hsystemd
  cases hactive : host.systemd.active with
  | some process =>
      simp only [hactive] at hsystemd
      rw [hsystemd, hactive]
      rfl
  | none =>
      simp only [hactive, if_pos (hsucceeded rfl)] at hsystemd
      obtain ⟨definition, stoppable, hloaded, hstarted⟩ := hsystemd
      rw [hstarted, hloaded]
      rfl

/-- Commands other than stop and start leave the process alone. -/
theorem active_of_systemctl {files : FileTree Attrs} {s s' : Systemd} {args : List Str}
    {answer : Except Str Exit} (h : SystemctlAnswers files s args answer s')
    (hstop : args ≠ ["stop".toList, linuxUnitFileName])
    (hstart : args ≠ ["start".toList, linuxUnitFileName]) : s'.active = s.active := by
  rw [SystemctlAnswers, if_neg hstop, if_neg hstart] at h
  split at h
  · rw [h]
    split <;> rfl
  · exact h.1

theorem exec_daemonReload {result : Except Str Unit}
    (h : Exec (HostAnswers ps) host (systemctl ["daemon-reload".toList]) result host') :
    host'.machine = host.machine ∧ host'.systemd.active = host.systemd.active ∧
      (result = .ok () → host'.systemd.loaded = unitDefinition host.machine.files) := by
  obtain ⟨answer, hmachine, hsystemd, hsucceeded⟩ := exec_systemctl h
  have hstop : ["daemon-reload".toList] ≠ ["stop".toList, linuxUnitFileName] := by simp
  have hstart : ["daemon-reload".toList] ≠ ["start".toList, linuxUnitFileName] := by simp
  refine ⟨hmachine, active_of_systemctl hsystemd hstop hstart, fun hresult => ?_⟩
  rw [SystemctlAnswers, if_neg hstop, if_neg hstart, if_pos rfl,
    if_pos (hsucceeded hresult)] at hsystemd
  rw [hsystemd]

/-- Enabling and disabling leave the process alone, and read no other definition. -/
theorem exec_enablement {verb : Str} {result : Except Str Unit} (hstop : verb ≠ "stop".toList)
    (hstart : verb ≠ "start".toList)
    (h : Exec (HostAnswers ps) host (systemctl [verb, linuxUnitFileName]) result host') :
    host'.machine = host.machine ∧ host'.systemd.active = host.systemd.active ∧
      (host'.systemd.loaded = host.systemd.loaded ∨
        host'.systemd.loaded = unitDefinition host.machine.files) := by
  obtain ⟨answer, hmachine, hsystemd, -⟩ := exec_systemctl h
  have hnotStop : [verb, linuxUnitFileName] ≠ ["stop".toList, linuxUnitFileName] :=
    fun h => hstop (List.cons.inj h).1
  have hnotStart : [verb, linuxUnitFileName] ≠ ["start".toList, linuxUnitFileName] :=
    fun h => hstart (List.cons.inj h).1
  have hreload : ¬[verb, linuxUnitFileName] = ["daemon-reload".toList] := by simp
  rw [SystemctlAnswers, if_neg hnotStop, if_neg hnotStart, if_neg hreload] at hsystemd
  exact ⟨hmachine, hsystemd.1, hsystemd.2⟩

theorem exec_delete {result : Except Str Unit} (h : Exec (HostAnswers ps) host delete result host')
    (hdirs : host.machine.files.HasDirs (names linuxUnitFilePath)) :
    host'.machine.files.HasDirs (names linuxUnitFilePath) ∧
      host'.systemd.active = host.systemd.active := by
  obtain ⟨disabled, host₁, hdisable, hrest⟩ := exec_bind_iff.mp h
  obtain ⟨hmachine₁, hactive₁, -⟩ := exec_enablement (by decide) (by decide) hdisable
  rw [← hmachine₁] at hdirs
  obtain ⟨removed, host₂, hremove, hrest⟩ := exec_bind_iff.mp hrest
  have hremoved : host₂.machine.files.HasDirs (names linuxUnitFilePath) ∧
      host₂.systemd.active = host₁.systemd.active := by
    obtain ⟨present, host₃, hpresent, hremove⟩ := exec_bind_iff.mp hremove
    obtain ⟨⟨hmachine₃, -⟩, hsystemd₃⟩ := exec_query_iff.mp hpresent
    rw [← hmachine₃] at hdirs
    rw [← hsystemd₃]
    cases present with
    | false =>
        obtain ⟨-, rfl⟩ := exec_ret_iff.mp hremove
        exact ⟨hdirs, rfl⟩
    | true =>
        obtain ⟨hfiles, hsystemd⟩ := exec_query_iff.mp hremove
        refine ⟨?_, congrArg _ hsystemd⟩
        cases removed with
        | error e =>
            rw [hfiles]
            exact hdirs
        | ok _ =>
            obtain ⟨files, hfiles, hmachine⟩ := hfiles
            rw [hmachine]
            exact hdirs.removeFile hfiles
  cases removed with
  | error e =>
      obtain ⟨-, rfl⟩ := exec_ret_iff.mp hrest
      exact ⟨hremoved.1, hremoved.2.trans hactive₁⟩
  | ok _ =>
      obtain ⟨reloaded, host₃, hreload, hrest⟩ := exec_bind_iff.mp hrest
      obtain ⟨-, rfl⟩ := exec_ret_iff.mp hrest
      obtain ⟨hmachine, hactive, -⟩ := exec_daemonReload hreload
      rw [hmachine, hactive]
      exact ⟨hremoved.1, hremoved.2.trans hactive₁⟩

/-- The calls of `atomic_write` reach the host through its machine. -/
theorem exec_osProg {α : Type} {p : OsProg α} {a : α}
    (hp : p.Asks fun q => ∀ program args, q ≠ .spawn program args)
    (h : Exec (HostAnswers ps) host (osProg p) a host') :
    Exec (Answers ps) host.machine p a host'.machine ∧ host'.systemd = host.systemd := by
  have hsteps := exec_interpret_iff.mp h
  have hcall : ∀ host₁ (q : Call) r host₂, (∀ program args, q ≠ .spawn program args) →
      Exec (HostAnswers ps) host₁ (linuxCall (.os q)) r host₂ →
        Answers ps host₁.machine q r host₂.machine ∧ host₂.systemd = host₁.systemd := by
    intro host₁ q r host₂ hq hexec
    have hanswer := exec_query_iff.mp hexec
    cases q with
    | spawn program args => exact absurd rfl (hq program args)
    | _ => exact hanswer
  constructor
  · exact Exec.map (f := LinuxHost.machine)
      (fun _ _ _ _ hq hexec => (hcall _ _ _ _ hq hexec).1) hp hsteps
  · have hkeeps : Keeps (fun s q r s' => Exec (HostAnswers ps) s (linuxCall (.os q)) r s')
        (fun host₁ : LinuxHost => host₁.systemd = host.systemd) p :=
      keeps_of_asks (fun _ _ _ _ hq hexec hsame => (hcall _ _ _ _ hq hexec).2.trans hsame) hp
    exact hkeeps hsteps rfl

theorem asks_atomicWrite (os : Os) (path content : Str) :
    (atomicWrite os path content).Asks fun q => ∀ program args, q ≠ .spawn program args := by
  rw [atomicWrite]
  split
  · exact ⟨by simp, fun _ => trivial⟩
  split
  · trivial
  split
  · trivial
  refine Prog.asks_bind ⟨by simp, fun _ => trivial⟩ fun pid =>
    Prog.asks_bind ?_ fun written => ?_
  · refine ⟨by simp, fun opened => ?_⟩
    cases opened with
    | error e => trivial
    | ok file =>
        refine ⟨by simp, fun written => ?_⟩
        cases written with
        | error e => trivial
        | ok _ => exact ⟨by simp, fun _ => trivial⟩
  · cases written with
    | error e => trivial
    | ok _ =>
        refine ⟨by simp, fun renamed => ?_⟩
        cases renamed with
        | ok _ => trivial
        | error e => exact ⟨by simp, fun _ => trivial⟩

/-- After a successful `create` the definition of the unit is the new one. -/
theorem exec_create {plan : InstallPlan}
    (h : Exec (HostAnswers ps) host (create plan) (.ok ()) host')
    (hdirs : host.machine.files.HasDirs (names linuxUnitFilePath)) :
    host'.systemd.loaded = some (utf8 (linuxUnitContents plan)) ∧
      host'.systemd.active = host.systemd.active := by
  obtain ⟨written, host₁, hwrite, hrest⟩ := exec_bind_iff.mp h
  obtain ⟨hwrite, hsystemd⟩ := exec_osProg (asks_atomicWrite _ _ _) hwrite
  cases written with
  | error e => cases (exec_ret_iff.mp hrest).1
  | ok _ =>
      obtain ⟨place, attrs, hplace, -, hmachine⟩ :=
        exec_atomicWrite_ok (fun hstep _ => hstep) (by decide) hwrite
      have hdots : ['.', '.'] ∉ names linuxUnitFilePath := by decide
      have hdefinition : unitDefinition host₁.machine.files =
          some (utf8 (linuxUnitContents plan)) := by
        rw [FileTree.locate_of_hasDirs hdots hdirs, Option.some.injEq] at hplace
        subst hplace
        rw [unitDefinition, hmachine, FileTree.read_of_locate
          (FileTree.locate_of_hasDirs hdots (hdirs.set _)) (FileTree.set_self ..)]
        rfl
      obtain ⟨reloaded, host₂, hreload, hrest⟩ := exec_bind_iff.mp hrest
      obtain ⟨hmachine₂, hactive, hloaded⟩ := exec_daemonReload hreload
      cases reloaded with
      | error e => cases (exec_ret_iff.mp hrest).1
      | ok _ =>
          have hloaded := (hloaded rfl).trans hdefinition
          rw [hsystemd] at hactive
          cases hautostart : plan.autostart with
          | true =>
              simp only [hautostart, if_true] at hrest
              obtain ⟨-, hactive', hloaded'⟩ := exec_enablement (by decide) (by decide) hrest
              rw [hmachine₂, hdefinition, hloaded, or_self] at hloaded'
              exact ⟨hloaded', hactive'.trans hactive⟩
          | false =>
              simp only [hautostart, Bool.false_eq_true, if_false] at hrest
              obtain ⟨-, rfl⟩ := exec_ret_iff.mp hrest
              exact ⟨hloaded, hactive⟩

/-! ## The reinstall -/

/-- The process that a reinstall leaves running. -/
def LinuxHost.survivor (host : LinuxHost) : Option Process :=
  if host.machine.files.isFile (names linuxUnitFilePath) then host.systemd.afterStop
  else host.systemd.active

/-- An operation of the backend as one step. -/
def BackendAnswers (ps : PowerShell) (host : LinuxHost) (q : ServiceCall) (answer : ServiceAnswer q)
    (host' : LinuxHost) : Prop :=
  Exec (HostAnswers ps) host (SystemServiceBackend.answer q) answer host'

theorem exec_pollRemoval {attempts : Nat} {result : Except Str Unit}
    (h : Exec (BackendAnswers ps) host (pollRemoval attempts) result host') : host' = host := by
  induction attempts generalizing host with
  | zero => exact (exec_ret_iff.mp h).2
  | succ attempts ih =>
      obtain ⟨installed, host₁, hquery, hrest⟩ := exec_bind_iff.mp h
      obtain ⟨rfl, -⟩ := exec_isInstalled (exec_query_iff.mp hquery)
      cases installed with
      | error e => exact (exec_ret_iff.mp hrest).2
      | ok present =>
          cases present with
          | true => exact ih hrest
          | false => exact (exec_ret_iff.mp hrest).2

theorem exec_takeDown {report : ReinstallReport} {result : Except Str ReinstallReport}
    (h : Exec (BackendAnswers ps) host (takeDown report) result host')
    (hdirs : host.machine.files.HasDirs (names linuxUnitFilePath)) :
    host'.machine.files.HasDirs (names linuxUnitFilePath) ∧
      host'.systemd.active = host.systemd.afterStop := by
  obtain ⟨stopped, host₁, hstop, hrest⟩ := exec_bind_iff.mp h
  obtain ⟨hmachine₁, hactive₁⟩ := exec_stop (exec_query_iff.mp hstop)
  rw [← hmachine₁] at hdirs
  obtain ⟨deleted, host₂, hdelete, hrest⟩ := exec_bind_iff.mp hrest
  obtain ⟨hdirs₂, hactive₂⟩ := exec_delete (exec_query_iff.mp hdelete) hdirs
  have hgoal : host'.machine.files.HasDirs (names linuxUnitFilePath) ∧
      host'.systemd.active = host₂.systemd.active := by
    cases deleted with
    | error e =>
        obtain ⟨-, rfl⟩ := exec_ret_iff.mp hrest
        exact ⟨hdirs₂, rfl⟩
    | ok _ =>
        obtain ⟨removed, host₃, hpoll, hrest⟩ := exec_bind_iff.mp hrest
        obtain rfl := exec_pollRemoval hpoll
        cases removed with
        | error e =>
            obtain ⟨-, rfl⟩ := exec_ret_iff.mp hrest
            exact ⟨hdirs₂, rfl⟩
        | ok _ =>
            obtain ⟨-, rfl⟩ := exec_ret_iff.mp hrest
            exact ⟨hdirs₂, rfl⟩
  exact ⟨hgoal.1, hgoal.2.trans (hactive₂.trans hactive₁)⟩

theorem exec_putUp {plan : InstallPlan} {report report' : ReinstallReport}
    (h : Exec (BackendAnswers ps) host (putUp plan report) (.ok report') host')
    (hdirs : host.machine.files.HasDirs (names linuxUnitFilePath)) :
    host'.systemd.active.map Process.definition =
      (host.systemd.active.map Process.definition).or (some (utf8 (linuxUnitContents plan))) := by
  obtain ⟨created, host₁, hcreate, hrest⟩ := exec_bind_iff.mp h
  cases created with
  | error e => cases (exec_ret_iff.mp hrest).1
  | ok _ =>
      obtain ⟨hloaded, hactive⟩ := exec_create (exec_query_iff.mp hcreate) hdirs
      obtain ⟨started, host₂, hstart, hrest⟩ := exec_bind_iff.mp hrest
      cases started with
      | error e => cases (exec_ret_iff.mp hrest).1
      | ok _ =>
          obtain ⟨-, rfl⟩ := exec_ret_iff.mp hrest
          rw [exec_start (exec_query_iff.mp hstart), hactive, hloaded]

/-- The process that runs after a successful reinstall was started from the new
unit, unless there is a survivor. -/
theorem exec_linuxReinstall {plan : InstallPlan} {report : ReinstallReport}
    (h : Exec (HostAnswers ps) host (linuxReinstall plan) (.ok report) host')
    (hdirs : host.machine.files.HasDirs (names linuxUnitFilePath)) :
    host'.systemd.active.map Process.definition =
      (host.survivor.map Process.definition).or (some (utf8 (linuxUnitContents plan))) := by
  have hsteps : Exec (BackendAnswers ps) host (reinstall plan) (.ok report) host' :=
    exec_interpret_iff.mp h
  obtain ⟨installed, host₁, hquery, hrest⟩ := exec_bind_iff.mp hsteps
  obtain ⟨rfl, rfl⟩ := exec_isInstalled (exec_query_iff.mp hquery)
  rw [LinuxHost.survivor]
  cases hfile : host₁.machine.files.isFile (names linuxUnitFilePath) with
  | false =>
      simp only [hfile] at hrest
      exact exec_putUp hrest hdirs
  | true =>
      simp only [hfile] at hrest
      obtain ⟨down, host₂, hdown, hrest⟩ := exec_bind_iff.mp hrest
      obtain ⟨hdirs₂, hactive⟩ := exec_takeDown hdown hdirs
      cases down with
      | error e => cases (exec_ret_iff.mp hrest).1
      | ok report₂ =>
          rw [exec_putUp hrest hdirs₂, hactive]
          rfl

/-! ## What the new unit starts -/

theorem commands_inGroup_eq_nil {specifier : Char → Option Str} {group : Str}
    {settings : List (Str × Str)} (h : ∀ s ∈ settings, s.1 ≠ "ExecStart".toList) :
    commands specifier (inGroup group settings) = [] := by
  rw [commands, inGroup, List.filterMap_map]
  exact List.filterMap_eq_nil_iff.mpr fun s hs => if_neg fun hboth => h s hs hboth.2

/-- The template has one command. -/
theorem commands_template (specifier : Char → Option Str) (plan : InstallPlan) :
    commands specifier (templateSettings plan) =
      ((words none none (strip (execSetting plan).2)).map
        (List.map (expand specifier))).toList := by
  have hsplit : templateSettings plan =
      inGroup "Unit".toList unitGroup ++ (inGroup "Service".toList typeSettings ++
      ⟨"Service".toList, "ExecStart".toList, strip (execSetting plan).2⟩ ::
      (inGroup "Service".toList (restartSettings ++ (privilegeSettings ++ homeSettings)) ++
      (inGroup "Service".toList (plan.environment.map environmentSetting) ++
      inGroup "Install".toList [("WantedBy".toList, "multi-user.target".toList)]))) := by
    simp only [templateSettings, inGroup, List.map_append, List.map_cons, List.append_assoc,
      List.cons_append, List.map_nil]
  have happend : ∀ as bs : List Setting,
      commands specifier (as ++ bs) = commands specifier as ++ commands specifier bs :=
    fun _ _ => List.filterMap_append
  have hcons : ∀ (value : Str) (ss : List Setting),
      commands specifier (⟨"Service".toList, "ExecStart".toList, value⟩ :: ss) =
        ((words none none value).map (List.map (expand specifier))).toList ++
          commands specifier ss := by
    intro value ss
    rw [commands, List.filterMap_cons, if_pos ⟨rfl, rfl⟩]
    cases words none none value with
    | none => rfl
    | some ws => rfl
  have hkeys : ∀ settings : List (Str × Str),
      (∀ key ∈ settings.map Prod.fst, key ≠ "ExecStart".toList) →
        ∀ s ∈ settings, s.1 ≠ "ExecStart".toList :=
    fun settings h s hs => h s.1 (List.mem_map_of_mem hs)
  have hunit : ∀ s ∈ unitGroup, s.1 ≠ "ExecStart".toList := by
    refine hkeys _ ?_
    change ∀ key ∈ ["Description".toList, "Documentation".toList, "After".toList,
      "Wants".toList], key ≠ "ExecStart".toList
    decide
  have htype : ∀ s ∈ typeSettings, s.1 ≠ "ExecStart".toList := by decide
  have hrest : ∀ s ∈ restartSettings ++ (privilegeSettings ++ homeSettings),
      s.1 ≠ "ExecStart".toList := by
    refine hkeys _ ?_
    change ∀ key ∈ ["Restart".toList, "RestartSec".toList, "AmbientCapabilities".toList,
      "CapabilityBoundingSet".toList, "StateDirectory".toList, "NoNewPrivileges".toList,
      "ProtectSystem".toList, "ProtectHome".toList, "PrivateTmp".toList],
      key ≠ "ExecStart".toList
    decide
  have henvironment : ∀ s ∈ plan.environment.map environmentSetting,
      s.1 ≠ "ExecStart".toList := by
    have hkey : "Environment".toList ≠ "ExecStart".toList := by decide
    exact List.forall_mem_map.mpr fun _ _ => hkey
  have hwanted : ∀ s ∈ [("WantedBy".toList, "multi-user.target".toList)],
      s.1 ≠ "ExecStart".toList := by
    have hkey : "WantedBy".toList ≠ "ExecStart".toList := by decide
    exact List.forall_mem_singleton.mpr hkey
  rw [hsplit, happend, happend, hcons, happend, happend, commands_inGroup_eq_nil hunit,
    commands_inGroup_eq_nil htype, commands_inGroup_eq_nil hrest,
    commands_inGroup_eq_nil henvironment, commands_inGroup_eq_nil hwanted]
  simp

theorem isWord_linuxProgramDest : IsWord linuxProgramDest :=
  linuxProgramDest_eq ▸ of_literal IsWord ⟨by decide, by decide⟩

/-- The command of an installed service. -/
theorem commands_buildPlan (cfg : Config) (letters : Char → Bool) (host : Char → Str) :
    commands (fun c => if letters c then some (host c) else none)
      (templateSettings (buildPlan false cfg linuxProgramDest)) = [[linuxProgramDest, "serve".toList]] := by
  have hserve : IsWord "serve".toList := of_literal IsWord ⟨by decide, by decide⟩
  have hexec : (execSetting (buildPlan false cfg linuxProgramDest)).2 =
      linuxProgramDest ++ ' ' :: "serve".toList := rfl
  have hfirst : ∃ c ∈ linuxProgramDest.head?, isBlank c = false :=
    linuxProgramDest_eq ▸ of_literal (fun s => ∃ c ∈ s.head?, isBlank c = false) (by decide)
  have hwords : words none none (linuxProgramDest ++ ' ' :: "serve".toList) =
      some [linuxProgramDest, "serve".toList] := by
    rw [words_append_space _ isWord_linuxProgramDest.1 isWord_linuxProgramDest.special,
      words_eq_singleton hserve.1 hserve.special]
    rfl
  have hexpand : ∀ w : Str, IsWord w →
      expand (fun c => if letters c then some (host c) else none) w = w :=
    fun w hw => expand_of_noSpecifier (fun c hc => by simp [hc]) (hw.plain letters).percent
  rw [commands_template, hexec,
    strip_eq_self (startsVisibly_append _ hfirst) (endsVisibly_append _ _ hserve.endsVisibly),
    hwords, Option.map_some, List.map_cons, List.map_singleton, hexpand _ isWord_linuxProgramDest,
    hexpand _ hserve]
  rfl

/-- A process started from the definition runs the program of the plan with its
arguments, in its environment. -/
def StartsThePlan (letters : Char → Bool) (plan : InstallPlan) (definition : List UInt8) : Prop :=
  ∃ text, utf8 text = definition ∧ ∀ host : Char → Str,
    commands (fun c => if letters c then some (host c) else none) (UnitFile.read text) =
      [plan.program :: plan.args] ∧
    environment (fun c => if letters c then some (host c) else none) (UnitFile.read text) =
      plan.environment

theorem startsThePlan_linuxUnitContents_iff {cfg : Config} (hvalid : cfg.Valid)
    (letters : Char → Bool) :
    StartsThePlan letters (buildPlan false cfg linuxProgramDest)
      (utf8 (linuxUnitContents (buildPlan false cfg linuxProgramDest))) ↔
        ∀ url ∈ cfg.nodeUrl, Plain letters (trim url) := by
  have hnewline : '\n' ∉ linuxProgramDest :=
    newline_not_mem_of_not_special isWord_linuxProgramDest.special
  rw [← @environment_buildPlan_iff cfg linuxProgramDest hvalid letters, StartsThePlan]
  constructor
  · rintro ⟨text, htext, hstarts⟩ host
    obtain rfl := utf8_injective htext
    rw [← read_buildPlan hvalid hnewline]
    exact (hstarts host).2
  · intro henvironment
    refine ⟨_, rfl, fun host => ?_⟩
    rw [read_buildPlan hvalid hnewline]
    exact ⟨commands_buildPlan cfg letters host, henvironment host⟩

/-- The process of the unit was started from the plan. -/
def TakenOver (letters : Char → Bool) (plan : InstallPlan) (host : LinuxHost) : Prop :=
  ∃ definition ∈ host.systemd.active.map Process.definition, StartsThePlan letters plan definition

/-- After a successful reinstall the service runs the new plan exactly when there
is no survivor and the node's address is read as it stands, or the survivor
runs that plan already. -/
theorem linuxReinstall_takenOver_iff {cfg : Config} (hvalid : cfg.validate = .ok ())
    (letters : Char → Bool) (hdirs : host.machine.files.HasDirs (names linuxUnitFilePath))
    {report : ReinstallReport}
    (hrun : Exec (HostAnswers ps) host (linuxReinstall (buildPlan false cfg linuxProgramDest))
      (.ok report) host') :
    TakenOver letters (buildPlan false cfg linuxProgramDest) host' ↔
      match host.survivor with
      | none => ∀ url ∈ cfg.nodeUrl, Plain letters (trim url)
      | some process =>
          StartsThePlan letters (buildPlan false cfg linuxProgramDest) process.definition := by
  have hcfg := (Config.validate_eq_ok_iff cfg).mp hvalid
  rw [TakenOver, exec_linuxReinstall hrun hdirs]
  cases host.survivor with
  | none => simp [startsThePlan_linuxUnitContents_iff hcfg]
  | some process => simp

/-! ## Small hosts -/

/-- A unit of an older version. -/
def olderUnit : List UInt8 :=
  utf8 "[Service]\nExecStart=/usr/bin/dig-dns serve\n".toList

/-- A host where the unit file at a path runs. -/
def runningFrom (path : Str) : LinuxHost where
  machine := {
    files := (((FileTree.makeDirs (fun _ => none) rootAttrs (names linuxUnitFilePath).dropLast
      ).makeDirs rootAttrs (names path).dropLast).set (names path)
        (some (.file rootAttrs olderUnit)))
    rules := [] }
  systemd := ⟨some olderUnit, some ⟨olderUnit, true⟩⟩

/-- The unit that an earlier install wrote is taken over. -/
theorem linuxReinstall_takenOver_again :
    TakenOver systemdSpecifiers (buildPlan false Config.default linuxProgramDest)
      ((linuxReinstall (buildPlan false Config.default linuxProgramDest)).eval serveHost
        (runningFrom linuxUnitFilePath)).2 := by
  have hok : ((linuxReinstall (buildPlan false Config.default linuxProgramDest)).eval serveHost
      (runningFrom linuxUnitFilePath)).1 = .ok ⟨true, true, true, true, true⟩ := by
    decide +kernel
  have hrun := exec_eval hostAnswers_serve (runningFrom linuxUnitFilePath)
    (linuxReinstall (buildPlan false Config.default linuxProgramDest))
  rw [hok] at hrun
  have hsurvivor : (runningFrom linuxUnitFilePath).survivor = none := by decide +kernel
  have htaken := (linuxReinstall_takenOver_iff rfl systemdSpecifiers (by decide +kernel) hrun).mpr
  rw [hsurvivor] at htaken
  exact htaken nofun

/-- The unit of a package goes on running. -/
theorem linuxReinstall_packaged :
    ¬∀ (cfg : Config), cfg.validate = .ok () → ∀ (letters : Char → Bool) (host host' : LinuxHost)
      (report : ReinstallReport), host.machine.files.HasDirs (names linuxUnitFilePath) →
      Exec (HostAnswers PowerShell.reference) host
        (linuxReinstall (buildPlan false cfg linuxProgramDest)) (.ok report) host' →
      TakenOver letters (buildPlan false cfg linuxProgramDest) host' := by
  intro hclaim
  have hok : ((linuxReinstall (buildPlan false Config.default linuxProgramDest)).eval serveHost
      (runningFrom systemdUnitPath)).1 = .ok ⟨false, false, false, true, true⟩ := by
    decide +kernel
  have hrun := exec_eval hostAnswers_serve (runningFrom systemdUnitPath)
    (linuxReinstall (buildPlan false Config.default linuxProgramDest))
  rw [hok] at hrun
  have hdirs : (runningFrom systemdUnitPath).machine.files.HasDirs (names linuxUnitFilePath) := by
    decide +kernel
  have hsurvivor : (runningFrom systemdUnitPath).survivor = some ⟨olderUnit, true⟩ := by
    decide +kernel
  obtain ⟨definition, hdefinition, text, htext, hstarts⟩ :=
    hclaim Config.default rfl (fun _ => false) _ _ _ hdirs hrun
  rw [exec_linuxReinstall hrun hdirs, hsurvivor] at hdefinition
  obtain rfl : olderUnit = definition := Option.some.inj hdefinition
  obtain rfl := utf8_injective htext
  have hcommands := (hstarts fun _ => []).1
  revert hcommands
  decide +kernel

end DigDns
