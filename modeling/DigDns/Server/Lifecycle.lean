import DigDns.Server
import DigDns.Support.Fairness

/-!
# The tasks of the server

`serve_with_shutdown` of `server.rs` once its sockets are bound.  A bridge task waits for
the shutdown and raises one shared flag; the gateway loop, the responder and the ensure
task of `dig.local` each wait for that flag beside their own work.  The tasks run in any
order.  Nothing stops before the shutdown, and after it everything does.
-/

namespace DigDns.Lifecycle

open Rust Interaction Transition Fairness

/-! ## States -/

/-- How far the main task has come. -/
inductive MainTask
  /-- The flag exists and the bridge task is spawned. -/
  | started
  /-- The responder is spawned, if it is bound. -/
  | dnsSpawned
  /-- The ensure task is spawned too: the gateway accepts. -/
  | serving
  /-- `serve_on` has returned; the guard of the runtime file and the main task's ends of
  the flag are dropped. -/
  | returned
deriving DecidableEq

/-- The responder. -/
inductive DnsTask
  | unspawned
  | serving
  | ended
deriving DecidableEq

/-- The ensure task of `dig.local`. -/
inductive EnsureTask
  | unspawned
  /-- It probes and binds. -/
  | attempting
  /-- It waits for the next attempt. -/
  | waiting
  /-- It serves the proxy. -/
  | proxying
  | ended
deriving DecidableEq

/-- A server whose sockets are bound. -/
structure Life where
  /-- The shutdown has been asked for. -/
  signalled : Bool
  /-- The bridge task has sent, and ended. -/
  sent : Bool
  /-- The value of the watch channel. -/
  flag : Bool
  main : MainTask
  dns : DnsTask
  ensure : EnsureTask
  /-- What the attempts of the ensure task gave, the last one first. -/
  outcomes : List EnsureOutcome
  /-- How many attempts began after the flag was raised. -/
  late : Nat
  /-- The runtime file that was recorded is in place. -/
  file : Bool
deriving DecidableEq

/-- The server right after its flag is made. -/
def Life.start (recorded : Bool) : Life where
  signalled := false
  sent := false
  flag := false
  main := .started
  dns := .unspawned
  ensure := .unspawned
  outcomes := []
  late := 0
  file := recorded

/-- `wait_for_shutdown` returns: the flag is up, or all of its senders are dropped. -/
def Life.released (s : Life) : Bool := s.flag || s.sent && s.main = .returned

/-- Someone still holds a receiver of the flag: the main task keeps one for itself. -/
def Life.hasReceiver (s : Life) : Bool :=
  s.main ≠ .returned || s.dns = .serving || s.ensure = .attempting || s.ensure = .waiting ||
    s.ensure = .proxying

/-- A socket accepts connections. -/
def Life.accepts (s : Life) : Bool :=
  s.main = .serving || s.dns = .serving || s.ensure = .proxying

/-- An attempt begins. -/
def Life.attempt (s : Life) : Life :=
  { s with ensure := .attempting, late := s.late + if s.flag then 1 else 0 }

/-- Where the ensure task goes from an attempt.  After a failure it first looks at the
flag: the wait has only just begun. -/
def Life.after (s : Life) : EnsureOutcome → EnsureTask
  | .alreadyMapped => .ended
  | .established _ => .proxying
  | .unavailable _ => if s.released then .ended else .waiting

/-! ## Steps -/

/-- What the tasks and the surroundings do. -/
inductive Act
  /-- The shutdown is asked for. -/
  | signal
  /-- The bridge task raises the flag. -/
  | forward
  | spawnDns
  | spawnEnsure
  /-- A connection or a datagram is taken by some loop. -/
  | accept
  | stopGateway
  | stopDns
  /-- An attempt comes to its end. -/
  | attempted (outcome : EnsureOutcome)
  /-- The wait of the ensure task is over. -/
  | wake
  | stopWaiting
  | stopProxy
  /-- The runtime is dropped once the main task has returned. -/
  | abort
  /-- Time passes. -/
  | idle

variable {localClient : Except NodeError Unit} {config : Config} {dnsActive : Bool}

/-- The steps, where `localClient` is what building the client of the ensure task gives. -/
inductive Step (localClient : Except NodeError Unit) (config : Config) (dnsActive : Bool) :
    Act → Life → Life → Prop
  | signal {s : Life} (hfirst : s.signalled = false) :
      Step localClient config dnsActive .signal s { s with signalled := true }
  /-- `send` changes nothing where no receiver is left. -/
  | forward {s : Life} (hsignal : s.signalled = true) (hwaits : s.sent = false) :
      Step localClient config dnsActive .forward s
        { s with sent := true, flag := s.flag || s.hasReceiver }
  | spawnDns {s : Life} (hmain : s.main = .started) :
      Step localClient config dnsActive .spawnDns s
        { s with main := .dnsSpawned, dns := if dnsActive then .serving else .unspawned }
  | spawnEnsure {s : Life} (hmain : s.main = .dnsSpawned) :
      Step localClient config dnsActive .spawnEnsure s { s.attempt with main := .serving }
  | accept {s : Life} (haccepts : s.accepts = true) :
      Step localClient config dnsActive .accept s s
  | stopGateway {s : Life} (hmain : s.main = .serving) (hreleased : s.released = true) :
      Step localClient config dnsActive .stopGateway s
        { s with main := .returned, file := false }
  | stopDns {s : Life} (hdns : s.dns = .serving) (hreleased : s.released = true) :
      Step localClient config dnsActive .stopDns s { s with dns := .ended }
  | attempted {s : Life} {outcome : EnsureOutcome} {t : List (Event HostAnswer)}
      (hensure : s.ensure = .attempting)
      (hruns : Runs (ensureDigLocalMapping localClient config) t outcome) :
      Step localClient config dnsActive (.attempted outcome) s
        { s with ensure := s.after outcome, outcomes := outcome :: s.outcomes }
  | wake {s : Life} (hensure : s.ensure = .waiting) :
      Step localClient config dnsActive .wake s s.attempt
  | stopWaiting {s : Life} (hensure : s.ensure = .waiting) (hreleased : s.released = true) :
      Step localClient config dnsActive .stopWaiting s { s with ensure := .ended }
  | stopProxy {s : Life} (hensure : s.ensure = .proxying) (hreleased : s.released = true) :
      Step localClient config dnsActive .stopProxy s { s with ensure := .ended }
  | abort {s : Life} (hmain : s.main = .returned) :
      Step localClient config dnsActive .abort s
        { s with dns := if s.dns = .serving then .ended else s.dns, ensure := .ended }
  | idle {s : Life} : Step localClient config dnsActive .idle s s

/-! ## What holds in every state -/

/-- An attempt that failed. -/
def Failed (outcome : EnsureOutcome) : Prop := ∃ reason, outcome = .unavailable reason

/-- The tasks end for a reason, and the ensure task stops trying once it has succeeded. -/
structure Sound (recorded : Bool) (s : Life) : Prop where
  /-- No signal is lost, and none is made up. -/
  sent : s.sent = s.flag
  flagged : s.flag = true → s.signalled = true
  gateway : s.main = .returned → s.flag = true
  responder : s.dns = .ended → s.flag = true
  /-- The ensure task ends early only where `dig.local` is already mapped. -/
  ensure : s.ensure = .ended → s.flag = true ∨ s.outcomes.head? = some .alreadyMapped
  /-- The file is there as long as the gateway is. -/
  file : s.file = (recorded && s.main ≠ .returned)
  unspawned : s.ensure = .unspawned ↔ s.main = .started ∨ s.main = .dnsSpawned
  dnsUnspawned : s.main = .started → s.dns = .unspawned
  /-- Only the last attempt can have succeeded. -/
  outcomes : (∀ outcome ∈ s.outcomes.tail, Failed outcome) ∧
    (s.ensure = .attempting ∨ s.ensure = .waiting ∨ s.ensure = .unspawned →
      ∀ outcome ∈ s.outcomes, Failed outcome)
  /-- At most one attempt begins after the flag is raised. -/
  late : s.late ≤ 1 ∧ (s.flag = false → s.late = 0) ∧
    (s.ensure = .waiting ∨ s.ensure = .unspawned → s.late = 0)

theorem sound_start (recorded : Bool) : Sound recorded (Life.start recorded) := by
  constructor <;> simp [Life.start]

theorem Sound.flag_of_released {recorded : Bool} {s : Life} (hs : Sound recorded s)
    (hreleased : s.released = true) : s.flag = true := by
  rw [Life.released, Bool.or_eq_true, Bool.and_eq_true, decide_eq_true_eq] at hreleased
  rcases hreleased with hflag | ⟨-, hreturned⟩
  · exact hflag
  · exact hs.gateway hreturned

theorem released_of_flag {s : Life} (hflag : s.flag = true) : s.released = true := by
  rw [Life.released, hflag, Bool.true_or]

theorem Life.after_ne_unspawned (s : Life) (outcome : EnsureOutcome) :
    s.after outcome ≠ .unspawned := by
  cases outcome with
  | alreadyMapped => exact fun h => by cases h
  | established boundPort => exact fun h => by cases h
  | unavailable reason =>
      rw [Life.after]
      split <;> simp

/-- The ensure task ends after an attempt that found a mapping, or on the flag. -/
theorem Life.of_after_eq_ended {s : Life} {outcome : EnsureOutcome}
    (h : s.after outcome = .ended) : s.released = true ∨ outcome = .alreadyMapped := by
  cases outcome with
  | alreadyMapped => exact Or.inr rfl
  | established boundPort => cases h
  | unavailable reason =>
      rw [Life.after] at h
      split at h
      · exact Or.inl ‹_›
      · cases h

/-- It goes on only after a failure, and waits only while the flag is down. -/
theorem Life.of_after_goes_on {s : Life} {outcome : EnsureOutcome}
    (h : s.after outcome = .attempting ∨ s.after outcome = .waiting ∨
      s.after outcome = .unspawned) : s.released = false ∧ Failed outcome := by
  cases outcome with
  | alreadyMapped => rcases h with h | h | h <;> cases h
  | established boundPort => rcases h with h | h | h <;> cases h
  | unavailable reason =>
      refine ⟨?_, reason, rfl⟩
      by_contra hreleased
      simp only [Life.after, if_pos (Bool.of_not_eq_false hreleased)] at h
      rcases h with h | h | h <;> cases h

section Steps

variable {recorded : Bool} {s : Life}

theorem Sound.forward (hs : Sound recorded s) (hsignal : s.signalled = true)
    (hwaits : s.sent = false) :
    Sound recorded { s with sent := true, flag := s.flag || s.hasReceiver } := by
  have hflag : s.flag = false := hs.sent.symm.trans hwaits
  have hmain : s.main ≠ .returned := by
    intro hreturned
    rw [hs.gateway hreturned] at hflag
    cases hflag
  -- The main task has not returned, so someone receives the flag.
  have hraised : (s.flag || s.hasReceiver) = true := by simp [Life.hasReceiver, hmain]
  exact { hs with
    sent := hraised.symm
    flagged := fun _ => hsignal
    gateway := fun _ => hraised
    responder := fun _ => hraised
    ensure := fun _ => Or.inl hraised
    late := ⟨hs.late.1, fun h => absurd (hraised.symm.trans h) (by decide),
      hs.late.2.2⟩ }

theorem Sound.spawnDns (hs : Sound recorded s) (hmain : s.main = .started) (dnsActive : Bool) :
    Sound recorded
      { s with main := .dnsSpawned, dns := if dnsActive then .serving else .unspawned } := by
  have hunspawned : s.ensure = .unspawned := hs.unspawned.mpr (Or.inl hmain)
  have hfile : s.file = recorded := by simpa [hmain] using hs.file
  exact { hs with
    gateway := fun h => by cases h
    responder := fun h => by cases dnsActive <;> cases h
    file := by simpa using hfile
    unspawned := iff_of_true hunspawned (Or.inr rfl)
    dnsUnspawned := fun h => by cases h }

/-- An attempt begins only where none was late. -/
theorem Sound.late_attempt (hs : Sound recorded s)
    (hensure : s.ensure = .waiting ∨ s.ensure = .unspawned) :
    s.attempt.late ≤ 1 ∧ (s.flag = false → s.attempt.late = 0) := by
  have hlate : s.attempt.late = if s.flag then 1 else 0 := by
    rw [Life.attempt, hs.late.2.2 hensure, Nat.zero_add]
  rw [hlate]
  cases s.flag with
  | false => exact ⟨Nat.zero_le 1, fun _ => rfl⟩
  | true => exact ⟨le_rfl, fun h => by cases h⟩

theorem Sound.spawnEnsure (hs : Sound recorded s) (hmain : s.main = .dnsSpawned) :
    Sound recorded { s.attempt with main := .serving } := by
  have hunspawned : s.ensure = .unspawned := hs.unspawned.mpr (Or.inr hmain)
  obtain ⟨hlate, hflagged⟩ := hs.late_attempt (Or.inr hunspawned)
  have hfile : s.file = recorded := by simpa [hmain] using hs.file
  exact {
    sent := hs.sent
    flagged := hs.flagged
    gateway := fun h => by cases h
    responder := hs.responder
    ensure := fun h => by cases h
    file := by simpa [Life.attempt] using hfile
    unspawned := ⟨fun h => (by cases h), fun h => by rcases h with h | h <;> cases h⟩
    dnsUnspawned := fun h => by cases h
    outcomes := ⟨hs.outcomes.1, fun _ => hs.outcomes.2 (Or.inr (Or.inr hunspawned))⟩
    late := ⟨hlate, hflagged, fun h => by rcases h with h | h <;> cases h⟩ }

theorem Sound.wake (hs : Sound recorded s) (hensure : s.ensure = .waiting) :
    Sound recorded s.attempt := by
  obtain ⟨hlate, hflagged⟩ := hs.late_attempt (Or.inl hensure)
  have hspawned : ¬ (s.main = .started ∨ s.main = .dnsSpawned) := by
    intro hmain
    rw [hs.unspawned.mpr hmain] at hensure
    cases hensure
  exact {
    sent := hs.sent
    flagged := hs.flagged
    gateway := hs.gateway
    responder := hs.responder
    ensure := fun h => by cases h
    file := hs.file
    unspawned := ⟨fun h => (by cases h), fun hmain => absurd hmain hspawned⟩
    dnsUnspawned := hs.dnsUnspawned
    outcomes := ⟨hs.outcomes.1, fun _ => hs.outcomes.2 (Or.inr (Or.inl hensure))⟩
    late := ⟨hlate, hflagged, fun h => by rcases h with h | h <;> cases h⟩ }

theorem Sound.stopGateway (hs : Sound recorded s) (hmain : s.main = .serving)
    (hreleased : s.released = true) :
    Sound recorded { s with main := .returned, file := false } := by
  have hspawned : s.ensure ≠ .unspawned := by
    intro hensure
    rcases hs.unspawned.mp hensure with h | h <;> rw [h] at hmain <;> cases hmain
  exact { hs with
    gateway := fun _ => hs.flag_of_released hreleased
    file := by simp
    unspawned := ⟨fun h => absurd h hspawned, fun h => by rcases h with h | h <;> cases h⟩
    dnsUnspawned := fun h => by cases h }

theorem Sound.endDns (hs : Sound recorded s) (hdns : s.dns = .serving) (hflag : s.flag = true) :
    Sound recorded { s with dns := .ended } := by
  refine { hs with
    responder := fun _ => hflag
    dnsUnspawned := fun hmain => ?_ }
  rw [hs.dnsUnspawned hmain] at hdns
  cases hdns

theorem Sound.attempted (hs : Sound recorded s) (hensure : s.ensure = .attempting)
    (outcome : EnsureOutcome) :
    Sound recorded { s with ensure := s.after outcome, outcomes := outcome :: s.outcomes } := by
  have hfailed := hs.outcomes.2 (Or.inl hensure)
  have hspawned : ¬ (s.main = .started ∨ s.main = .dnsSpawned) := by
    intro hmain
    rw [hs.unspawned.mpr hmain] at hensure
    cases hensure
  refine { hs with
    ensure := fun hended => ?_
    unspawned := iff_of_false (s.after_ne_unspawned outcome) hspawned
    outcomes := ⟨hfailed, fun h => ?_⟩
    late := ⟨hs.late.1, hs.late.2.1, fun h => ?_⟩ }
  · rcases Life.of_after_eq_ended hended with hreleased | rfl
    · exact Or.inl (hs.flag_of_released hreleased)
    · exact Or.inr rfl
  · exact List.forall_mem_cons.mpr ⟨(Life.of_after_goes_on h).2, hfailed⟩
  · -- A task that waits after an attempt has just seen the flag down.
    refine hs.late.2.1 ?_
    by_contra hflag
    have hdown := (Life.of_after_goes_on (Or.inr h)).1
    rw [released_of_flag (Bool.of_not_eq_false hflag)] at hdown
    cases hdown

theorem Sound.endEnsure (hs : Sound recorded s) (hensure : s.ensure ≠ .unspawned)
    (hflag : s.flag = true) : Sound recorded { s with ensure := .ended } :=
  { hs with
    ensure := fun _ => Or.inl hflag
    unspawned := ⟨fun h => (by cases h), fun hmain => absurd (hs.unspawned.mpr hmain) hensure⟩
    outcomes := ⟨hs.outcomes.1, fun h => by rcases h with h | h | h <;> cases h⟩
    late := ⟨hs.late.1, hs.late.2.1, fun h => by rcases h with h | h <;> cases h⟩ }

theorem Sound.abort (hs : Sound recorded s) (hmain : s.main = .returned) :
    Sound recorded
      { s with dns := if s.dns = .serving then .ended else s.dns, ensure := .ended } := by
  have hflag := hs.gateway hmain
  have hensure : s.ensure ≠ .unspawned := by
    intro hunspawned
    rcases hs.unspawned.mp hunspawned with h | h <;> rw [h] at hmain <;> cases hmain
  by_cases hdns : s.dns = .serving
  · rw [if_pos hdns]
    exact (hs.endDns hdns hflag).endEnsure hensure hflag
  · rw [if_neg hdns]
    exact hs.endEnsure hensure hflag

/-- Every task keeps what the others rely on. -/
theorem Sound.step {a : Act} {s' : Life} (h : Step localClient config dnsActive a s s')
    (hs : Sound recorded s) : Sound recorded s' := by
  cases h with
  | signal hfirst => exact { hs with flagged := fun _ => rfl }
  | forward hsignal hwaits => exact hs.forward hsignal hwaits
  | spawnDns hmain => exact hs.spawnDns hmain dnsActive
  | spawnEnsure hmain => exact hs.spawnEnsure hmain
  | accept => exact hs
  | stopGateway hmain hreleased => exact hs.stopGateway hmain hreleased
  | stopDns hdns hreleased => exact hs.endDns hdns (hs.flag_of_released hreleased)
  | attempted hensure => exact hs.attempted hensure _
  | wake hensure => exact hs.wake hensure
  | stopWaiting hensure hreleased =>
      exact hs.endEnsure (by rw [hensure]; simp) (hs.flag_of_released hreleased)
  | stopProxy hensure hreleased =>
      exact hs.endEnsure (by rw [hensure]; simp) (hs.flag_of_released hreleased)
  | abort hmain => exact hs.abort hmain
  | idle => exact hs

end Steps

/-- A server runs its tasks in any order. -/
def AnyStep (localClient : Except NodeError Unit) (config : Config) (dnsActive : Bool)
    (s s' : Life) : Prop :=
  ∃ a, Step localClient config dnsActive a s s'

theorem sound_of_reaches {recorded : Bool} {s : Life}
    (h : Reaches (AnyStep localClient config dnsActive) (Life.start recorded) s) :
    Sound recorded s := by
  refine h.invariant (sound_start recorded) ?_
  rintro s₁ s₂ ⟨a, hstep⟩ hs
  exact hs.step hstep

/-- What the tasks promise in every state that they can reach. -/
structure Graceful (recorded : Bool) (s : Life) : Prop where
  /-- Before the shutdown is asked for nothing ends, but for an ensure task that finds
  `dig.local` mapped. -/
  early : s.signalled = false → s.main ≠ .returned ∧ s.dns ≠ .ended ∧
    (s.ensure = .ended → s.outcomes.head? = some .alreadyMapped)
  /-- A signal that was passed on is seen by every task, also by one that is spawned later. -/
  passed : s.sent = true → s.released = true
  /-- The runtime file outlives the gateway by nothing. -/
  file : s.file = (recorded && s.main ≠ .returned)
  /-- After a success there is no further attempt. -/
  once : ∀ outcome ∈ s.outcomes.tail, Failed outcome
  late : s.late ≤ 1

theorem tasks_graceful {recorded : Bool} {s : Life}
    (h : Reaches (AnyStep localClient config dnsActive) (Life.start recorded) s) :
    Graceful recorded s := by
  have hs := sound_of_reaches h
  refine ⟨fun hsignal => ?_, fun hsent => ?_, hs.file, hs.outcomes.1, hs.late.1⟩
  · have hflag : s.flag ≠ true := by
      intro hflag
      rw [hs.flagged hflag] at hsignal
      cases hsignal
    refine ⟨mt hs.gateway hflag, mt hs.responder hflag, fun hended => ?_⟩
    exact (hs.ensure hended).resolve_left hflag
  · apply released_of_flag
    rw [← hs.sent, hsent]

/-! ## What must happen -/

/-- The tasks that a shutdown waits for. -/
inductive Task
  | bridge
  | main
  | dns
  | ensure

/-- Their own steps.  The end of a wait is none: the clock may be slow. -/
def Task.acts : Task → Set Act
  | .bridge => {.forward}
  | .main => {.spawnDns, .spawnEnsure, .stopGateway}
  | .dns => {.stopDns}
  | .ensure => {a | a = .stopWaiting ∨ a = .stopProxy ∨ ∃ outcome, a = .attempted outcome}

/-- What is still ahead of each task after the flag is raised. -/
def MainTask.ahead : MainTask → Nat
  | .started => 8
  | .dnsSpawned => 5
  | .serving => 1
  | .returned => 0

def DnsTask.ahead : DnsTask → Nat
  | .serving => 1
  | _ => 0

def EnsureTask.ahead : EnsureTask → Nat
  | .waiting => 3
  | .attempting => 2
  | .proxying => 1
  | _ => 0

/-- What is still ahead of the server. -/
def Life.ahead (s : Life) : Nat := s.main.ahead + s.dns.ahead + s.ensure.ahead

/-- The task that comes next. -/
def Life.next (s : Life) : Task :=
  if s.main ≠ .returned then .main else if s.dns = .serving then .dns else .ensure

/-- An attempt can come to an end. -/
theorem exists_runs_ensure (localClient : Except NodeError Unit) (config : Config) :
    ∃ t outcome, Runs (ensureDigLocalMapping localClient config) t outcome := by
  cases localClient with
  | error e => exact ⟨_, _, .ret _⟩
  | ok _ =>
      have hmapped : Runs (ensureDigLocalMapping (.ok ()) config)
          [⟨.http (.get (addressBase config.digLocalIp config.digLocalPort ++ "/health".toList)),
            true⟩] .alreadyMapped :=
        .ask (.ret EnsureOutcome.alreadyMapped)
      exact ⟨_, _, hmapped⟩

section Liveness

variable {recorded : Bool}

/-- Once the flag is raised a step of a task brings its end nearer, and any other step
leaves the tasks where they are. -/
theorem ahead_step {a : Act} {s s' : Life} (h : Step localClient config dnsActive a s s')
    (hs : Sound recorded s) (hflag : s.flag = true) :
    s'.ahead < s.ahead ∨ s'.main = s.main ∧ s'.dns = s.dns ∧ s'.ensure = s.ensure := by
  have hreleased := released_of_flag hflag
  cases h with
  | signal hfirst => exact Or.inr ⟨rfl, rfl, rfl⟩
  | forward hsignal hwaits => exact Or.inr ⟨rfl, rfl, rfl⟩
  | spawnDns hmain =>
      left
      have hdns := hs.dnsUnspawned hmain
      cases dnsActive <;> simp [Life.ahead, hmain, hdns, MainTask.ahead, DnsTask.ahead]
  | spawnEnsure hmain =>
      left
      have hensure := hs.unspawned.mpr (Or.inr hmain)
      simp only [Life.ahead, Life.attempt, hmain, hensure, MainTask.ahead, EnsureTask.ahead]
      omega
  | accept => exact Or.inr ⟨rfl, rfl, rfl⟩
  | stopGateway hmain hrel =>
      left
      simp [Life.ahead, hmain, MainTask.ahead]
  | stopDns hdns hrel =>
      left
      simp [Life.ahead, hdns, DnsTask.ahead]
  | @attempted _ outcome t hensure hruns =>
      left
      cases outcome <;> simp [Life.ahead, Life.after, hensure, hreleased, EnsureTask.ahead]
  | wake hensure =>
      left
      simp [Life.ahead, Life.attempt, hensure, EnsureTask.ahead]
  | stopWaiting hensure hrel =>
      left
      simp [Life.ahead, hensure, EnsureTask.ahead]
  | stopProxy hensure hrel =>
      left
      simp [Life.ahead, hensure, EnsureTask.ahead]
  | abort hmain =>
      by_cases hdns : s.dns = .serving
      · left
        simp only [Life.ahead, hdns, if_true, DnsTask.ahead, EnsureTask.ahead]
        omega
      · have hunspawned : s.ensure ≠ .unspawned := by
          rw [Ne, hs.unspawned, hmain]
          simp
        rw [if_neg hdns]
        cases hensure : s.ensure with
        | unspawned => exact absurd hensure hunspawned
        | attempting =>
            left
            simp [Life.ahead, hensure, EnsureTask.ahead]
        | waiting =>
            left
            simp [Life.ahead, hensure, EnsureTask.ahead]
        | proxying =>
            left
            simp [Life.ahead, hensure, EnsureTask.ahead]
        | ended => exact Or.inr ⟨rfl, rfl, rfl⟩
  | idle => exact Or.inr ⟨rfl, rfl, rfl⟩

/-- A step of a task moves that task. -/
theorem moves {a : Act} {s s' : Life} (h : Step localClient config dnsActive a s s') {task : Task}
    (hbridge : task ≠ .bridge) (hact : a ∈ task.acts) :
    ¬(s'.main = s.main ∧ s'.dns = s.dns ∧ s'.ensure = s.ensure) := by
  rintro ⟨hmain', hdns', hensure'⟩
  cases task with
  | bridge => exact hbridge rfl
  | main =>
      rcases hact with rfl | rfl | rfl
      · cases h with
        | spawnDns hmain =>
            rw [hmain] at hmain'
            cases hmain'
      · cases h with
        | spawnEnsure hmain =>
            rw [hmain] at hmain'
            cases hmain'
      · cases h with
        | stopGateway hmain hrel =>
            rw [hmain] at hmain'
            cases hmain'
  | dns =>
      obtain rfl := hact
      cases h with
      | stopDns hdns hrel =>
          rw [hdns] at hdns'
          cases hdns'
  | ensure =>
      rcases hact with rfl | rfl | ⟨outcome, rfl⟩
      · cases h with
        | stopWaiting hensure hrel =>
            rw [hensure] at hensure'
            cases hensure'
      · cases h with
        | stopProxy hensure hrel =>
            rw [hensure] at hensure'
            cases hensure'
      · cases h with
        | attempted hensure hruns =>
            rw [hensure] at hensure'
            cases outcome with
            | alreadyMapped => cases hensure'
            | established boundPort => cases hensure'
            | unavailable reason =>
                simp only [Life.after] at hensure'
                split_ifs at hensure'

theorem ranks_ahead : Ranks (Step localClient config dnsActive)
    (fun s => Sound recorded s ∧ s.flag = true) Life.ahead Life.next Task.acts where
  keeps a s s' h hs := by
    refine ⟨hs.1.step h, ?_⟩
    obtain ⟨-, hflag⟩ := hs
    cases h <;> simp_all [Life.attempt]
  progress a s s' h hs := by
    rcases ahead_step h hs.1 hs.2 with hlt | ⟨hmain, hdns, hensure⟩
    · exact Or.inl hlt
    · refine Or.inr ⟨?_, ?_⟩
      · rw [Life.ahead, Life.ahead, hmain, hdns, hensure]
      · rw [Life.next, Life.next, hmain, hdns]
  enabled s hs hahead := by
    obtain ⟨hsound, hflag⟩ := hs
    have hreleased := released_of_flag hflag
    cases hmain : s.main with
    | started => exact ⟨.spawnDns, by simp [Life.next, hmain, Task.acts], _, .spawnDns hmain⟩
    | dnsSpawned =>
        exact ⟨.spawnEnsure, by simp [Life.next, hmain, Task.acts], _, .spawnEnsure hmain⟩
    | serving =>
        exact ⟨.stopGateway, by simp [Life.next, hmain, Task.acts], _,
          .stopGateway hmain hreleased⟩
    | returned =>
        by_cases hdns : s.dns = .serving
        · exact ⟨.stopDns, by simp [Life.next, hmain, hdns, Task.acts], _, .stopDns hdns hreleased⟩
        · have hnext : s.next = .ensure := by simp [Life.next, hmain, hdns]
          rw [hnext]
          have hleft : s.ensure.ahead ≠ 0 := by
            simpa [Life.ahead, hmain, hdns, MainTask.ahead, DnsTask.ahead] using hahead
          cases hensure : s.ensure with
          | unspawned =>
              rw [hensure] at hleft
              exact absurd rfl hleft
          | attempting =>
              obtain ⟨t, outcome, hruns⟩ := exists_runs_ensure localClient config
              exact ⟨.attempted outcome, by simp [Task.acts], _, .attempted hensure hruns⟩
          | waiting =>
              exact ⟨.stopWaiting, by simp [Task.acts], _, .stopWaiting hensure hreleased⟩
          | proxying => exact ⟨.stopProxy, by simp [Task.acts], _, .stopProxy hensure hreleased⟩
          | ended =>
              rw [hensure] at hleft
              exact absurd rfl hleft
  helps a s s' h hs hahead hact := by
    rcases ahead_step h hs.1 hs.2 with hlt | ⟨hmain, hdns, hensure⟩
    · exact hlt
    · have hbridge : s.next ≠ .bridge := by
        rw [Life.next]
        split_ifs <;> simp
      exact absurd ⟨hmain, hdns, hensure⟩ (moves h hbridge hact)

/-- The flag is raised once the shutdown is asked for. -/
theorem ranks_bridge : Ranks (Step localClient config dnsActive)
    (fun s => Sound recorded s ∧ s.signalled = true) (fun s => if s.flag then 0 else 1)
    (fun _ => Task.bridge) Task.acts where
  keeps a s s' h hs := by
    refine ⟨hs.1.step h, ?_⟩
    obtain ⟨-, hsignal⟩ := hs
    cases h <;> simp_all [Life.attempt]
  progress a s s' h hs := by
    have hflag : s.flag = true → s'.flag = true := by
      intro hflag
      cases h <;> simp_all [Life.attempt]
    cases hold : s.flag with
    | true => exact Or.inr ⟨by simp [hflag hold], rfl⟩
    | false =>
        cases hnew : s'.flag with
        | true => exact Or.inl (by simp)
        | false => exact Or.inr ⟨rfl, rfl⟩
  enabled s hs hahead := by
    have hflag : s.flag = false := by simpa using hahead
    refine ⟨.forward, rfl, _, .forward hs.2 ?_⟩
    rw [hs.1.sent, hflag]
  helps a s s' h hs hahead hact := by
    obtain rfl := hact
    have hflag : s.flag = false := by simpa using hahead
    have hsound := hs.1.step h
    cases h with
    | forward hsignal hwaits =>
        have hreceived : s.hasReceiver = true := by simpa [hflag] using hsound.sent.symm
        simp [hreceived, hflag]

/-- A server that has stopped: no loop accepts, and the runtime file is gone. -/
structure Finished (s : Life) : Prop where
  gateway : s.main = .returned
  responder : s.dns ≠ .serving
  ensure : s.ensure = .ended
  file : s.file = false

/-- Once the signal was passed on too, no task has a step left. -/
theorem Finished.not_enabled {s : Life} (hs : Finished s) (hsent : s.sent = true) (task : Task) :
    ¬Enabled (Step localClient config dnsActive) task.acts s := by
  rintro ⟨a, ha, s', h⟩
  obtain ⟨hmain', hdns', hensure', -⟩ := hs
  cases task with
  | bridge =>
      obtain rfl := ha
      cases h with
      | forward hsignal hwaits =>
          rw [hsent] at hwaits
          cases hwaits
  | main =>
      rcases ha with rfl | rfl | rfl
      · cases h with
        | spawnDns hmain =>
            rw [hmain'] at hmain
            cases hmain
      · cases h with
        | spawnEnsure hmain =>
            rw [hmain'] at hmain
            cases hmain
      · cases h with
        | stopGateway hmain hrel =>
            rw [hmain'] at hmain
            cases hmain
  | dns =>
      obtain rfl := ha
      cases h with
      | stopDns hdns hrel => exact absurd hdns hdns'
  | ensure =>
      rcases ha with rfl | rfl | ⟨outcome, rfl⟩
      · cases h with
        | stopWaiting hensure hrel =>
            rw [hensure'] at hensure
            cases hensure
      · cases h with
        | stopProxy hensure hrel =>
            rw [hensure'] at hensure
            cases hensure
      · cases h with
        | attempted hensure hruns =>
            rw [hensure'] at hensure
            cases hensure

theorem finished_of_ahead {s : Life} (hs : Sound recorded s) (hahead : s.ahead = 0) :
    Finished s := by
  simp only [Life.ahead, Nat.add_eq_zero_iff] at hahead
  obtain ⟨⟨hmain, hdns⟩, hensure⟩ := hahead
  have hreturned : s.main = .returned := by
    cases hs' : s.main <;> simp [hs', MainTask.ahead] at hmain ⊢
  refine ⟨hreturned, ?_, ?_, ?_⟩
  · intro hserving
    rw [hserving] at hdns
    cases hdns
  · have hunspawned := hs.unspawned
    cases hs' : s.ensure <;> simp [hs', hreturned, EnsureTask.ahead] at hensure hunspawned ⊢
  · rw [hs.file, hreturned]
    exact Bool.and_false recorded

/-- From a state in which the shutdown is asked for, all tasks come to their end. -/
theorem finishes (path : Path (Step localClient config dnsActive))
    (hfair : ∀ task : Task, path.Fair task.acts) {n : Nat} (hs : Sound recorded (path.state n))
    (hsignal : (path.state n).signalled = true) :
    ∃ m, n ≤ m ∧ ∀ k, m ≤ k → Finished (path.state k) := by
  have hsound : ∀ k, n ≤ k → Sound recorded (path.state k) :=
    fun k hk => path.invariant (fun a s s' h hs => hs.step h) hk hs
  obtain ⟨m, hnm, hflag⟩ := ranks_bridge.eventually_zero path hfair ⟨hs, hsignal⟩
  have hraised : (path.state m).flag = true := by simpa using hflag m (Nat.le_refl m)
  obtain ⟨k, hmk, hzero⟩ := ranks_ahead.eventually_zero path hfair ⟨hsound m hnm, hraised⟩
  refine ⟨k, Nat.le_trans hnm hmk, fun j hkj => ?_⟩
  exact finished_of_ahead (hsound j (by omega)) (hzero j hkj)

/-- However the tasks are interleaved, a shutdown that is asked for ends all of them. -/
theorem shutdown_completes (path : Path (Step localClient config dnsActive))
    (hstart : path.state 0 = Life.start recorded) (hfair : ∀ task : Task, path.Fair task.acts)
    {n : Nat} (hsignal : (path.state n).signalled = true) :
    ∃ m, n ≤ m ∧ ∀ k, m ≤ k → Finished (path.state k) := by
  have hs : Sound recorded (path.state n) := by
    refine path.invariant (fun a s s' h hs => hs.step h) (Nat.zero_le n) ?_
    rw [hstart]
    exact sound_start recorded
  exact finishes path hfair hs hsignal

end Liveness

/-! ## A stop while the tasks are spawned -/

/-- The flag is raised before the first task subscribes. -/
def stopState : Nat → Life
  | 0 => Life.start true
  | 1 => ⟨true, false, false, .started, .unspawned, .unspawned, [], 0, true⟩
  | 2 => ⟨true, true, true, .started, .unspawned, .unspawned, [], 0, true⟩
  | 3 => ⟨true, true, true, .dnsSpawned, .serving, .unspawned, [], 0, true⟩
  | 4 => ⟨true, true, true, .serving, .serving, .attempting, [], 1, true⟩
  | 5 => ⟨true, true, true, .returned, .serving, .attempting, [], 1, false⟩
  | 6 => ⟨true, true, true, .returned, .ended, .attempting, [], 1, false⟩
  | _ => ⟨true, true, true, .returned, .ended, .ended, [.alreadyMapped], 1, false⟩

def stopAct : Nat → Act
  | 0 => .signal
  | 1 => .forward
  | 2 => .spawnDns
  | 3 => .spawnEnsure
  | 4 => .stopGateway
  | 5 => .stopDns
  | 6 => .attempted .alreadyMapped
  | _ => .idle

theorem step_stop (n : Nat) : Step (.ok ()) Config.default true (stopAct n) (stopState n)
    (stopState (n + 1)) := by
  match n with
  | 0 => exact .signal rfl
  | 1 => exact .forward rfl rfl
  | 2 => exact .spawnDns rfl
  | 3 => exact .spawnEnsure rfl
  | 4 => exact .stopGateway rfl rfl
  | 5 => exact .stopDns rfl rfl
  | 6 =>
      have hmapped : Runs (ensureDigLocalMapping (.ok ()) Config.default)
          [⟨.http (.get (addressBase Config.default.digLocalIp Config.default.digLocalPort ++
            "/health".toList)), true⟩] .alreadyMapped :=
        .ask (.ret EnsureOutcome.alreadyMapped)
      exact .attempted rfl hmapped
  | n + 7 => exact .idle

def stopPath : Path (Step (.ok ()) Config.default true) := ⟨stopState, stopAct, step_stop⟩

theorem shutdown_completes_stop :
    ∃ m, 1 ≤ m ∧ ∀ k, m ≤ k → Finished (stopPath.state k) := by
  have hsignal : (stopPath.state 1).signalled = true := rfl
  refine shutdown_completes stopPath (rfl : _ = Life.start true) (fun task n hstays => ?_) hsignal
  have hlast := hstays (n + 7) (Nat.le_add_right n 7)
  have hfinished : Finished (stopState (n + 7)) := ⟨rfl, DnsTask.noConfusion, rfl, rfl⟩
  exact absurd hlast (hfinished.not_enabled rfl task)

theorem reaches_stop (n : Nat) :
    Reaches (AnyStep (.ok ()) Config.default true) (Life.start true) (stopState n) := by
  induction n with
  | zero => exact .refl
  | succ n ih => exact ih.tail ⟨stopAct n, step_stop n⟩

/-- The gateway has stopped, and an attempt that began after the signal still runs. -/
theorem tasks_graceful_stop : Graceful true (stopState 5) :=
  tasks_graceful (reaches_stop 5)

end DigDns.Lifecycle
