import DigDns.Server.Lifecycle

/-!
# The Windows service

`run_reporting` of `service_run.rs` and `run_service` of `win_service.rs`: the thread that
the service control manager calls, and the server that it runs.  The thread reports
`Running` before any work and `Stopped` after it; a `Stop` is kept in a channel until the
server asks for it.  The manager, the thread and the tasks of the server move in any order.
-/

namespace DigDns.Scm

open Rust Interaction Transition Fairness
open Lifecycle (Life Sound Finished)

/-! ## The thread -/

/-- What the thread asks for. -/
inductive ScmCall
  /-- `service_control_handler::register` -/
  | register
  /-- `set_service_status`, with `Running`. -/
  | reportRunning
  /-- The configuration, the runtime, and `serve_with_shutdown` up to where it serves. -/
  | bringUp
  /-- The rest of `serve_with_shutdown`. -/
  | serve
  /-- `set_service_status`, with `Stopped`; that it fails is ignored. -/
  | reportStopped (exitCode : UInt32)
deriving DecidableEq

abbrev ScmAnswer : ScmCall → Type
  | .register => Except Str Unit
  | .reportRunning => Except Str Unit
  | .bringUp => Except Str Serving
  | .serve => Unit
  | .reportStopped _ => Unit

/-- A program of the thread. -/
abbrev ScmProg := Prog ScmAnswer

/-- `run_reporting` -/
def runReporting (reportRunning : ScmProg (Except Str Unit)) (reportStopped : UInt32 → ScmProg Unit)
    (body : ScmProg (Except Str Unit)) : ScmProg (Except Str Unit) := do
  match ← reportRunning with
  | .error e => return .error e
  | .ok () =>
      let result ← body
      reportStopped (if result.isOk then 0 else 1)
      return result

/-- The body that `run_service` gives to it. -/
def body : ScmProg (Except Str Unit) := do
  match ← Prog.ask .bringUp .ret with
  | .error e => return .error e
  | .ok _ =>
      Prog.ask .serve .ret
      return .ok ()

/-- `run_service` -/
def runService : ScmProg (Except Str Unit) := do
  match ← Prog.ask .register .ret with
  | .error e => return .error e
  | .ok () =>
      runReporting (Prog.ask .reportRunning .ret) (fun exitCode => Prog.ask (.reportStopped exitCode) .ret)
        body

/-! ## The machine -/

/-- `serve_with_shutdown` up to where it serves. -/
def bringUp (client : Except NodeError Unit) (config : Config) : ServeProg (Except Str Serving) := do
  match ← onNetwork (ReqwestNodeClient.resolve client config) with
  | .error e => return .error e.message
  | .ok base =>
      match ← bindListener (config.loopbackIp, config.httpPort)
        (config.loopbackIp, config.httpFallbackPort) with
      | .error e => return .error e
      | .ok (boundPort, usedFallback) =>
          let dns ← bindDns config.loopbackIp config.dnsPort
          return .ok {
            base
            ctx := { config, boundPort, dnsActive := dns.isOk, uptimeSecs := 0 }
            usedFallback }

/-- The ensure task of a server that came up. -/
def withEnsure (localClient : Except NodeError Unit) (config : Config) (rounds : Nat) :
    Except Str Serving → ServeProg (Except Str Serving)
  | .error e => return .error e
  | .ok serving => do
      ensureLoop localClient config rounds
      return .ok serving

/-- The server comes up, and goes on with its ensure task. -/
theorem serveWithShutdown_eq (client localClient : Except NodeError Unit) (config : Config)
    (rounds : Nat) : serveWithShutdown client localClient config rounds =
      bringUp client config >>= withEnsure localClient config rounds := by
  rw [serveWithShutdown, bringUp, Prog.bind_bind]
  refine congrArg _ (funext fun base => ?_)
  cases base with
  | error e => rfl
  | ok base =>
      dsimp only
      rw [Prog.bind_bind]
      refine congrArg _ (funext fun listener => ?_)
      cases listener with
      | error e => rfl
      | ok listener =>
          dsimp only
          rw [Prog.bind_bind]
          rfl

/-- What bringing the server up can give, under some environment. -/
inductive BringsUp (get : Str → Option Str) : Except Str Serving → Prop
  | unconfigured {e : ConfigError} (h : fromEnv get = .error e) : BringsUp get (.error e.message)
  /-- The runtime cannot be built. -/
  | noRuntime (e : Str) : BringsUp get (.error e)
  | configured {config : Config} {client : Except NodeError Unit} {t : List (Event ServeAnswer)}
      {outcome : Except Str Serving} (h : fromEnv get = .ok config)
      (hruns : Runs (bringUp client config) t outcome) : BringsUp get outcome

/-- The service process. -/
structure Process where
  /-- What the thread has still to do. -/
  todo : ScmProg (Except Str Unit)
  /-- What it has done, the last call first. -/
  calls : List ScmCall
  /-- The control handler is registered. -/
  handled : Bool
  /-- A `Stop` is in the channel. -/
  stopped : Bool
  server : Option (Serving × Life)

/-- The process when the manager calls it. -/
def Process.start : Process := ⟨runService, [], false, false, none⟩

inductive Act
  /-- A call of the thread returns. -/
  | thread
  /-- The manager sends `Stop`. -/
  | control
  /-- The server makes a step. -/
  | server (act : Lifecycle.Act)
  | idle

/-- How a call can be answered, and what that does. -/
inductive Answers (get : Str → Option Str) (s : Process) : (q : ScmCall) → ScmAnswer q → Process → Prop
  | unregistered (e : Str) : Answers get s .register (.error e) s
  | registered : Answers get s .register (.ok ()) { s with handled := true }
  | reported (r : Except Str Unit) : Answers get s .reportRunning r s
  | down {e : Str} (h : BringsUp get (.error e)) : Answers get s .bringUp (.error e) s
  | up {serving : Serving} (recorded : Bool) (h : BringsUp get (.ok serving)) :
      Answers get s .bringUp (.ok serving)
        { s with server := some (serving, Life.start recorded) }
  /-- `serve_with_shutdown` returns when the gateway has. -/
  | served {serving : Serving} {life : Life} (hserver : s.server = some (serving, life))
      (hmain : life.main = .returned) : Answers get s .serve () s
  | stopped (exitCode : UInt32) : Answers get s (.reportStopped exitCode) () s

/-- The steps, where `localClient` is what building the client of the ensure task gives.  The
shutdown of the server is the `Stop` in the channel. -/
inductive Step (get : Str → Option Str) (localClient : Except NodeError Unit) :
    Act → Process → Process → Prop
  | thread {s s' : Process} {q : ScmCall} {k : ScmAnswer q → ScmProg (Except Str Unit)}
      {r : ScmAnswer q} (htodo : s.todo = .ask q k) (hanswer : Answers get s q r s') :
      Step get localClient .thread s { s' with todo := k r, calls := q :: s.calls }
  | control {s : Process} (hhandled : s.handled = true) :
      Step get localClient .control s { s with stopped := true }
  | server {s : Process} {serving : Serving} {life life' : Life} {act : Lifecycle.Act}
      (hserver : s.server = some (serving, life)) (hsignal : act = .signal → s.stopped = true)
      (hstep : Lifecycle.Step localClient serving.ctx.config serving.ctx.dnsActive act life life') :
      Step get localClient (.server act) s { s with server := some (serving, life') }
  | idle {s : Process} : Step get localClient .idle s s

/-! ## Where the thread is -/

/-- What follows the body. -/
def finish (result : Except Str Unit) : ScmProg (Except Str Unit) := do
  Prog.ask (.reportStopped (if result.isOk then 0 else 1)) .ret
  return result

/-- The thread reports `Running`, or has still to do so. -/
def atReport : ScmProg (Except Str Unit) :=
  runReporting (Prog.ask .reportRunning .ret) (fun exitCode => Prog.ask (.reportStopped exitCode) .ret)
    body

def atBody : ScmProg (Except Str Unit) := body >>= finish

def atServe : ScmProg (Except Str Unit) := do
  Prog.ask .serve .ret
  finish (.ok ())

/-- The calls of a body that ended with a result, the last one first. -/
def bodyCalls (result : Except Str Unit) : List ScmCall :=
  (if result.isOk then [.serve] else []) ++ [.bringUp, .reportRunning, .register]

/-- Every state is at one of these points. -/
inductive Point (s : Process) : Prop
  | start (htodo : s.todo = runService) (hcalls : s.calls = []) (hhandled : s.handled = false)
      (hserver : s.server = none) (hstopped : s.stopped = false)
  | report (htodo : s.todo = atReport) (hcalls : s.calls = [.register]) (hserver : s.server = none)
  | body (htodo : s.todo = atBody) (hcalls : s.calls = [.reportRunning, .register])
      (hserver : s.server = none)
  | serve {serving : Serving} {life : Life} {recorded : Bool} (htodo : s.todo = atServe)
      (hcalls : s.calls = [.bringUp, .reportRunning, .register])
      (hserver : s.server = some (serving, life)) (hsound : Sound recorded life)
      (hsignal : life.signalled = true → s.stopped = true)
  | finish {result : Except Str Unit} (htodo : s.todo = finish result)
      (hcalls : s.calls = bodyCalls result) (hstop : result.isOk = true → s.stopped = true)
  | ended {result : Except Str Unit} (htodo : s.todo = .ret result)
      (hcalls : s.calls = .reportStopped (if result.isOk then 0 else 1) :: bodyCalls result)
      (hstop : result.isOk = true → s.stopped = true)
  /-- There is no manager to report to. -/
  | refused {e : Str} (htodo : s.todo = .ret (.error e))
      (hcalls : s.calls = [.register] ∨ s.calls = [.reportRunning, .register])

/-- Where each answer takes the thread. -/
def afterRegister : Except Str Unit → ScmProg (Except Str Unit)
  | .error e => .ret (.error e)
  | .ok _ => atReport

def afterReport : Except Str Unit → ScmProg (Except Str Unit)
  | .error e => .ret (.error e)
  | .ok _ => atBody

def afterBringUp : Except Str Serving → ScmProg (Except Str Unit)
  | .error e => finish (.error e)
  | .ok _ => atServe

theorem runService_eq : runService = .ask .register afterRegister := by
  refine congrArg (Prog.ask ScmCall.register) (funext fun r => ?_)
  cases r <;> rfl

theorem atReport_eq : atReport = .ask .reportRunning afterReport := by
  refine congrArg (Prog.ask ScmCall.reportRunning) (funext fun r => ?_)
  cases r <;> rfl

theorem atBody_eq : atBody = .ask .bringUp afterBringUp := by
  refine congrArg (Prog.ask ScmCall.bringUp) (funext fun r => ?_)
  cases r <;> rfl

theorem atServe_eq : atServe = .ask .serve fun _ => finish (.ok ()) := rfl

theorem finish_eq (result : Except Str Unit) : finish result =
    .ask (.reportStopped (if result.isOk then 0 else 1)) fun _ => .ret result := rfl

variable {get : Str → Option Str} {localClient : Except NodeError Unit}

/-- A step of another party leaves the thread where it is. -/
theorem other_step {a : Act} {s s' : Process} (h : Step get localClient a s s') (ha : a ≠ .thread) :
    s'.todo = s.todo ∧ s'.calls = s.calls ∧ (s.stopped = true → s'.stopped = true) ∧
      (s.handled = true → s'.handled = true) ∧ (s.server = none → s'.server = none) := by
  cases h with
  | thread htodo hanswer => exact absurd rfl ha
  | control hhandled => exact ⟨rfl, rfl, fun _ => rfl, id, id⟩
  | server hserver hsignal hstep =>
      refine ⟨rfl, rfl, id, id, fun hnone => ?_⟩
      rw [hnone] at hserver
      cases hserver
  | idle => exact ⟨rfl, rfl, id, id, id⟩

theorem Point.thread {s s' : Process} (hs : Point s) (h : Step get localClient .thread s s') :
    Point s' := by
  cases h with
  | @thread _ s₁ q k r htodo hanswer =>
      cases hs with
      | start htodo' hcalls hhandled hserver hstopped =>
          rw [htodo', runService_eq] at htodo
          cases htodo
          cases hanswer with
          | unregistered e => exact .refused rfl (by simp [hcalls])
          | registered => exact .report rfl (by simp [hcalls]) hserver
      | report htodo' hcalls hserver =>
          rw [htodo', atReport_eq] at htodo
          cases htodo
          cases hanswer with
          | reported r =>
              cases r with
              | error e => exact .refused rfl (by simp [hcalls])
              | ok _ => exact .body rfl (by simp [hcalls]) hserver
      | body htodo' hcalls hserver =>
          rw [htodo', atBody_eq] at htodo
          cases htodo
          cases hanswer with
          | @down e hdown =>
              have hfailed : (Except.error e : Except Str Unit).isOk = false := rfl
              exact .finish rfl (by simp [hcalls, bodyCalls, hfailed]) (by simp [hfailed])
          | up recorded hup =>
              exact .serve rfl (by simp [hcalls]) rfl (Lifecycle.sound_start recorded)
                (by simp [Life.start])
      | serve htodo' hcalls hserver hsound hsignal =>
          rw [htodo', atServe_eq] at htodo
          cases htodo
          cases hanswer with
          | served hserver' hmain =>
              obtain ⟨rfl, rfl⟩ := Prod.mk.inj (Option.some.inj (hserver.symm.trans hserver'))
              have hstopped := hsignal (hsound.flagged (hsound.gateway hmain))
              have hok : (Except.ok () : Except Str Unit).isOk = true := rfl
              exact .finish rfl (by simp [hcalls, bodyCalls, hok]) fun _ => hstopped
      | finish htodo' hcalls hstop =>
          rw [htodo', finish_eq] at htodo
          cases htodo
          cases hanswer with
          | stopped exitCode => exact .ended rfl (by simp [hcalls]) hstop
      | ended htodo' hcalls hstop =>
          rw [htodo'] at htodo
          cases htodo
      | refused htodo' hcalls =>
          rw [htodo'] at htodo
          cases htodo

theorem Point.step {a : Act} {s s' : Process} (h : Step get localClient a s s') (hs : Point s) :
    Point s' := by
  cases h with
  | thread htodo hanswer =>
      have hthread : Step get localClient .thread s _ := .thread htodo hanswer
      exact hs.thread hthread
  | idle => exact hs
  | control hhandled =>
      cases hs with
      | start htodo hcalls hnot hserver hstopped =>
          rw [hnot] at hhandled
          cases hhandled
      | report htodo hcalls hserver => exact .report htodo hcalls hserver
      | body htodo hcalls hserver => exact .body htodo hcalls hserver
      | serve htodo hcalls hserver hsound hsignal =>
          exact .serve htodo hcalls hserver hsound fun _ => rfl
      | finish htodo hcalls hstop => exact .finish htodo hcalls fun _ => rfl
      | ended htodo hcalls hstop => exact .ended htodo hcalls fun _ => rfl
      | refused htodo hcalls => exact .refused htodo hcalls
  | @server _ serving life life' act hserver' hsignal' hstep =>
      cases hs with
      | start htodo hcalls hnot hserver hstopped =>
          rw [hserver] at hserver'
          cases hserver'
      | report htodo hcalls hserver =>
          rw [hserver] at hserver'
          cases hserver'
      | body htodo hcalls hserver =>
          rw [hserver] at hserver'
          cases hserver'
      | serve htodo hcalls hserver hsound hsignal =>
          obtain ⟨rfl, rfl⟩ := Prod.mk.inj (Option.some.inj (hserver.symm.trans hserver'))
          refine .serve htodo hcalls rfl (hsound.step hstep) fun hnew => ?_
          -- The signal is the message in the channel.
          cases hstep with
          | signal => exact hsignal' rfl
          | _ => exact hsignal hnew
      | finish htodo hcalls hstop => exact .finish htodo hcalls hstop
      | ended htodo hcalls hstop => exact .ended htodo hcalls hstop
      | refused htodo hcalls => exact .refused htodo hcalls

/-! ## What the manager sees -/

/-- The process in any order of its steps. -/
def AnyStep (get : Str → Option Str) (localClient : Except NodeError Unit) (s s' : Process) : Prop :=
  ∃ a, Step get localClient a s s'

theorem point_start : Point Process.start := .start rfl rfl rfl rfl rfl

theorem point_of_reaches {s : Process} (h : Reaches (AnyStep get localClient) Process.start s) :
    Point s := by
  refine h.invariant point_start ?_
  rintro s₁ s₂ ⟨a, hstep⟩ hs
  exact hs.step hstep

/-- The whole calls of a thread whose body gives a result, in order. -/
def wholeCalls (result : Except Str Unit) : List ScmCall :=
  (bodyCalls result).reverse ++ [.reportStopped (if result.isOk then 0 else 1)]

/-- A thread that returned has reported `Stopped` last, or there was no manager to report to
and it has brought nothing up. -/
def Settled (s : Process) (result : Except Str Unit) : Prop :=
  s.todo = .ret result ∧ (s.calls.reverse = wholeCalls result ∨
    result.isOk = false ∧ .bringUp ∉ s.calls ∧ ∀ exitCode, .reportStopped exitCode ∉ s.calls)

/-- What a process has done so far. -/
structure Reported (s : Process) : Prop where
  /-- It reports `Running` before it brings anything up, and `Stopped` last, with the exit
  code of what it did in between. -/
  order : ∃ result, s.calls.reverse <+: wholeCalls result
  ended : ∀ result, s.todo = .ret result → Settled s result
  /-- Only a `Stop` ends a service that came up. -/
  clean : .reportStopped 0 ∈ s.calls → s.stopped = true

theorem wholeCalls_ok : wholeCalls (.ok ()) =
    [.register, .reportRunning, .bringUp, .serve, .reportStopped 0] := rfl

theorem wholeCalls_error (e : Str) : wholeCalls (.error e) =
    [.register, .reportRunning, .bringUp, .reportStopped 1] := rfl

/-- The calls up to the result of the body. -/
theorem reverse_bodyCalls (result : Except Str Unit) :
    (bodyCalls result).reverse <+: wholeCalls result := List.prefix_append _ _

theorem Point.settled {s : Process} {result : Except Str Unit} (hs : Point s)
    (hret : s.todo = .ret result) : Settled s result := by
  refine ⟨hret, ?_⟩
  cases hs with
  | start htodo hcalls hhandled hserver hstopped =>
      rw [htodo, runService_eq] at hret
      cases hret
  | report htodo hcalls hserver =>
      rw [htodo, atReport_eq] at hret
      cases hret
  | body htodo hcalls hserver =>
      rw [htodo, atBody_eq] at hret
      cases hret
  | serve htodo hcalls hserver hsound hsignal =>
      rw [htodo, atServe_eq] at hret
      cases hret
  | finish htodo hcalls hstop =>
      rw [htodo, finish_eq] at hret
      cases hret
  | ended htodo hcalls hstop =>
      rw [htodo] at hret
      cases hret
      left
      rw [hcalls, List.reverse_cons, wholeCalls]
  | refused htodo hcalls =>
      rw [htodo] at hret
      cases hret
      refine Or.inr ⟨rfl, ?_⟩
      rcases hcalls with hcalls | hcalls <;> simp [hcalls]

/-- In every state the calls are the beginning of a whole service. -/
theorem Point.calls_begin {s : Process} (hs : Point s) :
    ∃ result, s.calls.reverse <+: wholeCalls result := by
  cases hs with
  | start htodo hcalls hhandled hserver hstopped => exact ⟨.ok (), by simp [hcalls]⟩
  | report htodo hcalls hserver => exact ⟨.ok (), by simp [hcalls, wholeCalls_ok]⟩
  | body htodo hcalls hserver => exact ⟨.ok (), by simp [hcalls, wholeCalls_ok]⟩
  | serve htodo hcalls hserver hsound hsignal =>
      exact ⟨.ok (), by simp [hcalls, wholeCalls_ok]⟩
  | @finish result htodo hcalls hstop => exact ⟨result, hcalls ▸ reverse_bodyCalls result⟩
  | @ended result htodo hcalls hstop =>
      refine ⟨result, ?_⟩
      rw [hcalls, List.reverse_cons, wholeCalls]
  | refused htodo hcalls =>
      refine ⟨.ok (), ?_⟩
      rcases hcalls with hcalls | hcalls <;> simp [hcalls, wholeCalls_ok]

/-- The exit code `0` is reported only after a `Stop`. -/
theorem Point.stopped_of_clean {s : Process} (hs : Point s)
    (hclean : .reportStopped 0 ∈ s.calls) : s.stopped = true := by
  cases hs with
  | start htodo hcalls hhandled hserver hstopped => simp [hcalls] at hclean
  | report htodo hcalls hserver => simp [hcalls] at hclean
  | body htodo hcalls hserver => simp [hcalls] at hclean
  | serve htodo hcalls hserver hsound hsignal => simp [hcalls] at hclean
  | @finish result htodo hcalls hstop =>
      rw [hcalls, bodyCalls] at hclean
      cases result <;> simp at hclean
  | @ended result htodo hcalls hstop =>
      cases result with
      | ok _ => exact hstop rfl
      | error e =>
          have hwhole : s.calls.reverse = wholeCalls (.error e) := by
            rw [hcalls, List.reverse_cons, wholeCalls]
          rw [← List.mem_reverse, hwhole, wholeCalls_error] at hclean
          simp at hclean
  | refused htodo hcalls => rcases hcalls with hcalls | hcalls <;> simp [hcalls] at hclean

theorem reported_of_reaches {s : Process} (h : Reaches (AnyStep get localClient) Process.start s) :
    Reported s := by
  have hs := point_of_reaches h
  exact ⟨hs.calls_begin, fun result hret => hs.settled hret, hs.stopped_of_clean⟩

/-! ## After a stop -/

/-- The parties that act on their own: the thread, the task that waits for the channel, and
the tasks of the server. -/
inductive Party
  | thread
  | channel
  | task (task : Lifecycle.Task)

def Party.acts : Party → Set Act
  | .thread => {.thread}
  | .channel => {.server .signal}
  | .task t => {a | ∃ act ∈ t.acts, a = .server act}

/-- The thread has returned. -/
def Process.isOver (s : Process) : Bool :=
  match s.todo with
  | .ret _ => true
  | .ask _ _ => false

/-- How many calls the thread has still to make, at most. -/
def Process.left (s : Process) : Nat := if s.isOver then 0 else 6 - s.calls.length

theorem length_calls {s : Process} (hs : Point s) (hover : s.isOver = false) : s.calls.length ≤ 4 := by
  cases hs with
  | start htodo hcalls hhandled hserver hstopped => simp [hcalls]
  | report htodo hcalls hserver => simp [hcalls]
  | body htodo hcalls hserver => simp [hcalls]
  | serve htodo hcalls hserver hsound hsignal => simp [hcalls]
  | @finish result htodo hcalls hstop =>
      rw [hcalls, bodyCalls]
      cases result <;> simp [Except.isOk, Except.toBool]
  | ended htodo hcalls hstop =>
      rw [Process.isOver, htodo] at hover
      cases hover
  | refused htodo hcalls =>
      rw [Process.isOver, htodo] at hover
      cases hover

theorem left_thread {s s' : Process} (hs : Point s) (h : Step get localClient .thread s s') :
    s'.left < s.left := by
  cases h with
  | @thread _ s₁ q k r htodo hanswer =>
      have hover : s.isOver = false := by rw [Process.isOver, htodo]
      have hlength := length_calls hs hover
      have hlower : ({ s₁ with todo := k r, calls := q :: s.calls } : Process).left ≤
          6 - (s.calls.length + 1) := by
        rw [Process.left]
        split_ifs
        · exact Nat.zero_le _
        · exact Nat.le_refl _
      have hbefore : s.left = 6 - s.calls.length := by
        rw [Process.left, hover]
        rfl
      omega

theorem left_other {a : Act} {s s' : Process} (h : Step get localClient a s s') (ha : a ≠ .thread) :
    s'.left = s.left := by
  obtain ⟨htodo, hcalls, -⟩ := other_step h ha
  rw [Process.left, Process.left, Process.isOver, Process.isOver, htodo, hcalls]

/-- Every call but that of `serve` can return at once. -/
theorem enabled_thread {s : Process} (hs : Point s) (hover : s.isOver = false)
    (hserve : s.todo ≠ atServe) : Enabled (Step get localClient) Party.thread.acts s := by
  cases hs with
  | start htodo hcalls hhandled hserver hstopped =>
      exact ⟨.thread, rfl, _, .thread (htodo.trans runService_eq) .registered⟩
  | report htodo hcalls hserver =>
      exact ⟨.thread, rfl, _, .thread (htodo.trans atReport_eq) (.reported (.ok ()))⟩
  | body htodo hcalls hserver =>
      exact ⟨.thread, rfl, _, .thread (htodo.trans atBody_eq) (.down (.noRuntime []))⟩
  | serve htodo hcalls hserver hsound hsignal => exact absurd htodo hserve
  | finish htodo hcalls hstop =>
      exact ⟨.thread, rfl, _, .thread (htodo.trans (finish_eq _)) (.stopped _)⟩
  | ended htodo hcalls hstop =>
      rw [Process.isOver, htodo] at hover
      cases hover
  | refused htodo hcalls =>
      rw [Process.isOver, htodo] at hover
      cases hover

/-- The server of a process. -/
def lifeOf (s : Process) : Life := (s.server.map Prod.snd).getD (Life.start false)

def actOf : Act → Lifecycle.Act
  | .server act => act
  | _ => .idle

theorem lifeOf_eq {s : Process} {serving : Serving} {life : Life}
    (hserver : s.server = some (serving, life)) : lifeOf s = life := by
  rw [lifeOf, hserver]
  rfl

theorem Point.of_atServe {s : Process} (hs : Point s) (hserve : s.todo = atServe) :
    ∃ serving recorded, s.server = some (serving, lifeOf s) ∧ Sound recorded (lifeOf s) := by
  cases hs with
  | start htodo hcalls hhandled hserver hstopped =>
      rw [htodo, runService_eq] at hserve
      cases hserve
  | report htodo hcalls hserver =>
      rw [htodo, atReport_eq] at hserve
      cases hserve
  | body htodo hcalls hserver =>
      rw [htodo, atBody_eq] at hserve
      cases hserve
  | serve htodo hcalls hserver hsound hsignal =>
      rw [lifeOf_eq hserver]
      exact ⟨_, _, hserver, hsound⟩
  | finish htodo hcalls hstop =>
      rw [htodo, finish_eq] at hserve
      cases hserve
  | ended htodo hcalls hstop =>
      rw [htodo] at hserve
      cases hserve
  | refused htodo hcalls =>
      rw [htodo] at hserve
      cases hserve

/-- What others than the thread do is, for the server, a step of its own or none. -/
theorem server_step {a : Act} {s s' : Process} {serving : Serving}
    (h : Step get localClient a s s') (ha : a ≠ .thread)
    (hserver : s.server = some (serving, lifeOf s)) :
    s'.server = some (serving, lifeOf s') ∧
      Lifecycle.Step localClient serving.ctx.config serving.ctx.dnsActive (actOf a) (lifeOf s)
        (lifeOf s') := by
  cases h with
  | thread htodo hanswer => exact absurd rfl ha
  | control hhandled => exact ⟨hserver, .idle⟩
  | server hserver' hsignal hstep =>
      obtain ⟨rfl, hlife⟩ := Prod.mk.inj (Option.some.inj (hserver.symm.trans hserver'))
      refine ⟨rfl, ?_⟩
      rw [hlife]
      exact hstep
  | idle => exact ⟨hserver, .idle⟩

theorem signal_not_mem (task : Lifecycle.Task) : Lifecycle.Act.signal ∉ task.acts := by
  cases task <;> simp [Lifecycle.Task.acts]

section Liveness

variable (path : Path (Step get localClient))

/-- While the thread waits for its server, the server runs by itself. -/
theorem exists_served (hfair : ∀ party : Party, path.Fair party.acts) {n : Nat}
    (hpoint : ∀ m, n ≤ m → Point (path.state m))
    (hserve : ∀ m, n ≤ m → (path.state m).todo = atServe)
    (hother : ∀ m, n ≤ m → path.act m ≠ .thread) (hstopped : (path.state n).stopped = true) :
    ∃ m, n ≤ m ∧ ∀ k, m ≤ k → Enabled (Step get localClient) Party.thread.acts (path.state k) := by
  have hstays : ∀ m, n ≤ m → (path.state m).stopped = true := by
    intro m hm
    induction m, hm using Nat.le_induction with
    | base => exact hstopped
    | succ m hm ih => exact (other_step (path.next m) (hother m hm)).2.2.1 ih
  obtain ⟨serving, -, hserver, -⟩ := (hpoint n (Nat.le_refl n)).of_atServe
    (hserve n (Nat.le_refl n))
  have hlife : ∀ m, n ≤ m → (path.state m).server = some (serving, lifeOf (path.state m)) := by
    intro m hm
    induction m, hm using Nat.le_induction with
    | base => exact hserver
    | succ m hm ih => exact (server_step (path.next m) (hother m hm) ih).1
  have hsignal : ∃ m, n ≤ m ∧ (lifeOf (path.state m)).signalled = true := by
    by_contra hnever
    push Not at hnever
    -- The channel is read, and the server is asked to shut down.
    obtain ⟨m, hm, hread⟩ := hfair .channel n fun m hm => ⟨.server .signal, rfl, _,
      .server (hlife m hm) (fun _ => hstays m hm)
        (.signal (Bool.eq_false_iff.mpr (hnever m hm)))⟩
    apply hnever (m + 1) (by omega)
    have hstep := (server_step (path.next m) (hother m hm) (hlife m hm)).2
    rw [show path.act m = .server .signal from hread] at hstep
    generalize lifeOf (path.state (m + 1)) = life' at hstep
    cases hstep
    rfl
  obtain ⟨m, hm, hsignal⟩ := hsignal
  let tasks : Path (Lifecycle.Step localClient serving.ctx.config serving.ctx.dnsActive) :=
    path.project m fun k hk =>
      (server_step (path.next k) (hother k (by omega)) (hlife k (by omega))).2
  have htasks : ∀ task : Lifecycle.Task, tasks.Fair task.acts := by
    intro task
    refine (hfair (.task task)).project ?_ ?_
    · rintro k hk ⟨act, hact, life', hlife'⟩
      refine ⟨.server act, ⟨act, hact, rfl⟩, _, .server (hlife k (by omega)) ?_ hlife'⟩
      rintro rfl
      exact absurd hact (signal_not_mem task)
    · rintro a ⟨act, hact, rfl⟩
      exact hact
  obtain ⟨-, recorded, -, hsound⟩ := (hpoint m (by omega)).of_atServe
    (hserve m (by omega))
  obtain ⟨k, -, hfinished⟩ := Lifecycle.finishes tasks htasks (n := 0) hsound hsignal
  refine ⟨m + k, by omega, fun j hj => ?_⟩
  have hreturned := (hfinished (j - m) (by omega)).gateway
  change (lifeOf (path.state (m + (j - m)))).main = _ at hreturned
  rw [Nat.add_sub_cancel' (by omega)] at hreturned
  exact ⟨.thread, rfl, _, .thread ((hserve j (by omega)).trans atServe_eq)
    (.served (hlife j (by omega)) hreturned)⟩

/-- A thread that is not over makes its next call, if a `Stop` is in the channel. -/
theorem exists_thread (hfair : ∀ party : Party, path.Fair party.acts) {n : Nat}
    (hpoint : ∀ m, n ≤ m → Point (path.state m)) (hstopped : (path.state n).stopped = true)
    (hover : (path.state n).isOver = false) : ∃ m, n ≤ m ∧ path.act m = .thread := by
  by_contra hnever
  push Not at hnever
  have htodo : ∀ m, n ≤ m → (path.state m).todo = (path.state n).todo := by
    intro m hm
    induction m, hm using Nat.le_induction with
    | base => rfl
    | succ m hm ih => exact (other_step (path.next m) (hnever m hm)).1.trans ih
  have henabled : ∃ m, n ≤ m ∧
      ∀ k, m ≤ k → Enabled (Step get localClient) Party.thread.acts (path.state k) := by
    by_cases hserve : (path.state n).todo = atServe
    · exact exists_served path hfair hpoint (fun m hm => (htodo m hm).trans hserve) hnever hstopped
    · refine ⟨n, Nat.le_refl n, fun m hm => enabled_thread (hpoint m hm) ?_ ?_⟩
      · rw [Process.isOver, htodo m hm]
        exact hover
      · rwa [htodo m hm]
  obtain ⟨m, hm, hstays⟩ := henabled
  obtain ⟨k, hk, hthread⟩ := hfair .thread m hstays
  exact hnever k (by omega) hthread

theorem left_le (hpoint : ∀ m, Point (path.state m)) {n m : Nat} (hnm : n ≤ m) :
    (path.state m).left ≤ (path.state n).left := by
  induction m, hnm using Nat.le_induction with
  | base => exact Nat.le_refl _
  | succ m hnm ih =>
      refine Nat.le_trans ?_ ih
      by_cases ha : path.act m = .thread
      · have hthread := path.next m
        rw [ha] at hthread
        exact Nat.le_of_lt (left_thread (hpoint m) hthread)
      · exact (left_other (path.next m) ha).le

/-- A thread that returned makes no further step. -/
theorem todo_stays {n k : Nat} (hnk : n ≤ k) {result : Except Str Unit}
    (hret : (path.state n).todo = .ret result) : (path.state k).todo = .ret result := by
  have hkeeps : ∀ a s s', Step get localClient a s s' → s.todo = .ret result →
      s'.todo = .ret result := by
    intro a s s' hstep htodo
    by_cases ha : a = .thread
    · obtain rfl := ha
      cases hstep with
      | thread htodo' hanswer =>
          rw [htodo] at htodo'
          cases htodo'
    · exact (other_step hstep ha).1.trans htodo
  exact path.invariant hkeeps hnk hret

theorem stopped_step {a : Act} {s s' : Process} (h : Step get localClient a s s')
    (hstopped : s.stopped = true) : s'.stopped = true := by
  by_cases ha : a = .thread
  · obtain rfl := ha
    cases h with
    | thread htodo hanswer => cases hanswer <;> exact hstopped
  · exact (other_step h ha).2.2.1 hstopped

/-- A `Stop` that reaches the handler ends the process, however early it comes. -/
theorem stop_completes (hstart : path.state 0 = Process.start)
    (hfair : ∀ party : Party, path.Fair party.acts) {n : Nat}
    (hstopped : (path.state n).stopped = true) :
    ∃ m result, n ≤ m ∧ ∀ k, m ≤ k → Settled (path.state k) result := by
  have hpoint : ∀ m, Point (path.state m) := by
    intro m
    refine path.invariant (fun a s s' h hs => Point.step h hs) (Nat.zero_le m) ?_
    rw [hstart]
    exact point_start
  have hover : ∃ m, n ≤ m ∧ (path.state m).isOver = true := by
    induction hleft : (path.state n).left using Nat.strong_induction_on generalizing n with
    | _ left ih =>
        cases hdone : (path.state n).isOver with
        | true => exact ⟨n, Nat.le_refl n, hdone⟩
        | false =>
            obtain ⟨m, hm, hthread⟩ :=
              exists_thread path hfair (fun m _ => hpoint m) hstopped hdone
            have hnext := path.next m
            rw [hthread] at hnext
            have hlower := left_thread (hpoint m) hnext
            have hle := left_le path hpoint hm
            have hsent : (path.state (m + 1)).stopped = true :=
              path.invariant (fun a s s' h hs => stopped_step h hs) (by omega) hstopped
            obtain ⟨k, hk, hend⟩ := ih _ (by omega) hsent rfl
            exact ⟨k, by omega, hend⟩
  obtain ⟨m, hm, hend⟩ := hover
  cases htodo : (path.state m).todo with
  | ask q k =>
      rw [Process.isOver, htodo] at hend
      cases hend
  | ret result =>
      exact ⟨m, result, hm, fun k hk => (hpoint k).settled (todo_stays path hk htodo)⟩

end Liveness

/-! ## A service that serves and is stopped -/

/-- What the default configuration comes up as, where `dig.local` answers. -/
def cameUp : Serving where
  base := digLocalBase
  ctx := { config := Config.default, boundPort := 80, dnsActive := true, uptimeSecs := 0 }
  usedFallback := false

theorem bringsUp_default : BringsUp (fun _ => none) (.ok cameUp) := by
  have hload : fromEnv (fun _ => none) = .ok Config.default := by rfl
  have hruns : Runs (bringUp (.ok ()) Config.default) [
      ⟨.host (.http (.get (digLocalBase ++ "/health".toList))), true⟩,
      ⟨.host (.bind defaultLoopbackIp 80), .ok 80⟩,
      ⟨.bindUdp defaultLoopbackIp 53, .ok ()⟩,
      ⟨.host (.bind defaultLoopbackIp 53), .ok 53⟩] (.ok cameUp) :=
    .ask (.ask (.ask (.ask (.ret _))))
  exact .configured hload hruns

/-- Its server: it serves, binds the proxy, and ends task by task. -/
def servedLife : Nat → Life
  | 0 => Life.start true
  | 1 => ⟨false, false, false, .dnsSpawned, .serving, .unspawned, [], 0, true⟩
  | 2 => ⟨false, false, false, .serving, .serving, .attempting, [], 0, true⟩
  | 3 => ⟨false, false, false, .serving, .serving, .proxying, [.established 80], 0, true⟩
  | 4 => ⟨true, false, false, .serving, .serving, .proxying, [.established 80], 0, true⟩
  | 5 => ⟨true, true, true, .serving, .serving, .proxying, [.established 80], 0, true⟩
  | 6 => ⟨true, true, true, .returned, .serving, .proxying, [.established 80], 0, false⟩
  | 7 => ⟨true, true, true, .returned, .ended, .proxying, [.established 80], 0, false⟩
  | _ => ⟨true, true, true, .returned, .ended, .ended, [.established 80], 0, false⟩

def servedTask : Nat → Lifecycle.Act
  | 0 => .spawnDns
  | 1 => .spawnEnsure
  | 2 => .attempted (.established 80)
  | 3 => .signal
  | 4 => .forward
  | 5 => .stopGateway
  | 6 => .stopDns
  | 7 => .stopProxy
  | _ => .idle

theorem step_servedLife (n : Nat) : Lifecycle.Step (.ok ()) Config.default true (servedTask n)
    (servedLife n) (servedLife (n + 1)) := by
  match n with
  | 0 => exact .spawnDns rfl
  | 1 => exact .spawnEnsure rfl
  | 2 =>
      have hbound : Runs (ensureDigLocalMapping (.ok ()) Config.default)
          [⟨.http (.get (addressBase defaultDigLocalIp 80 ++ "/health".toList)), false⟩,
            ⟨.bind defaultDigLocalIp 80, .ok 80⟩] (.established 80) :=
        .ask (.ask (.ret _))
      exact .attempted rfl hbound
  | 3 => exact .signal rfl
  | 4 => exact .forward rfl rfl
  | 5 => exact .stopGateway rfl rfl
  | 6 => exact .stopDns rfl rfl
  | 7 => exact .stopProxy rfl rfl
  | n + 8 => exact .idle

/-- The thread waits for that server. -/
def waiting (stopped : Bool) (n : Nat) : Process :=
  ⟨atServe, [.bringUp, .reportRunning, .register], true, stopped, some (cameUp, servedLife n)⟩

/-- The `Stop` comes while the server serves. -/
def servedState : Nat → Process
  | 0 => Process.start
  | 1 => ⟨atReport, [.register], true, false, none⟩
  | 2 => ⟨atBody, [.reportRunning, .register], true, false, none⟩
  | 3 => waiting false 0
  | 4 => waiting false 1
  | 5 => waiting false 2
  | 6 => waiting false 3
  | 7 => waiting true 3
  | 8 => waiting true 4
  | 9 => waiting true 5
  | 10 => waiting true 6
  | 11 => waiting true 7
  | 12 => waiting true 8
  | 13 => ⟨finish (.ok ()), [.serve, .bringUp, .reportRunning, .register], true, true,
      some (cameUp, servedLife 8)⟩
  | _ => ⟨.ret (.ok ()), [.reportStopped 0, .serve, .bringUp, .reportRunning, .register], true,
      true, some (cameUp, servedLife 8)⟩

def servedAct : Nat → Act
  | 0 => .thread
  | 1 => .thread
  | 2 => .thread
  | 3 => .server .spawnDns
  | 4 => .server .spawnEnsure
  | 5 => .server (.attempted (.established 80))
  | 6 => .control
  | 7 => .server .signal
  | 8 => .server .forward
  | 9 => .server .stopGateway
  | 10 => .server .stopDns
  | 11 => .server .stopProxy
  | 12 => .thread
  | 13 => .thread
  | _ => .idle

theorem step_waiting {stopped : Bool} {n : Nat} (hsignal : n = 3 → stopped = true) :
    Step (fun _ => none) (.ok ()) (.server (servedTask n)) (waiting stopped n)
      (waiting stopped (n + 1)) := by
  have hserver : (waiting stopped n).server = some (cameUp, servedLife n) := rfl
  refine .server hserver (fun hact => hsignal ?_) (step_servedLife n)
  match n with
  | 3 => rfl
  | 0 => cases hact
  | 1 => cases hact
  | 2 => cases hact
  | 4 => cases hact
  | 5 => cases hact
  | 6 => cases hact
  | 7 => cases hact
  | n + 8 => cases hact

theorem step_served (n : Nat) :
    Step (fun _ => none) (.ok ()) (servedAct n) (servedState n) (servedState (n + 1)) := by
  match n with
  | 0 =>
      have hstart : (servedState 0).todo = .ask .register afterRegister := runService_eq
      exact .thread hstart .registered
  | 1 =>
      have hreport : (servedState 1).todo = .ask .reportRunning afterReport := atReport_eq
      exact .thread hreport (.reported (.ok ()))
  | 2 =>
      have hbody : (servedState 2).todo = .ask .bringUp afterBringUp := atBody_eq
      exact .thread hbody (.up true bringsUp_default)
  | 3 => exact step_waiting (n := 0) nofun
  | 4 => exact step_waiting (n := 1) nofun
  | 5 => exact step_waiting (n := 2) nofun
  | 6 => exact .control rfl
  | 7 => exact step_waiting (n := 3) fun _ => rfl
  | 8 => exact step_waiting (n := 4) fun _ => rfl
  | 9 => exact step_waiting (n := 5) fun _ => rfl
  | 10 => exact step_waiting (n := 6) fun _ => rfl
  | 11 => exact step_waiting (n := 7) fun _ => rfl
  | 12 =>
      have hserve : (servedState 12).todo = .ask .serve fun _ => finish (.ok ()) := atServe_eq
      exact .thread hserve (.served rfl rfl)
  | 13 =>
      have hfinish : (servedState 13).todo = .ask (.reportStopped 0) fun _ => .ret (.ok ()) := rfl
      exact .thread hfinish (.stopped 0)
  | n + 14 => exact .idle

def servedPath : Path (Step (fun _ => none) (.ok ())) := ⟨servedState, servedAct, step_served⟩

theorem not_enabled_served (party : Party) (n : Nat) :
    ¬Enabled (Step (fun _ => none) (.ok ())) party.acts (servedState (n + 14)) := by
  have hserver : (servedState (n + 14)).server = some (cameUp, servedLife 8) := rfl
  have hfinished : Lifecycle.Finished (servedLife 8) :=
    ⟨rfl, Lifecycle.DnsTask.noConfusion, rfl, rfl⟩
  rintro ⟨a, ha, s', h⟩
  cases party with
  | thread =>
      obtain rfl := ha
      have htodo : (servedState (n + 14)).todo = .ret (.ok ()) := rfl
      cases h with
      | thread htodo' hanswer =>
          rw [htodo] at htodo'
          cases htodo'
  | channel =>
      obtain rfl := ha
      cases h with
      | server hserver' hsignal hstep =>
          obtain ⟨rfl, rfl⟩ := Prod.mk.inj (Option.some.inj (hserver.symm.trans hserver'))
          cases hstep with
          | signal hfirst => cases hfirst
  | task task =>
      obtain ⟨act, hact, rfl⟩ := ha
      cases h with
      | server hserver' hsignal hstep =>
          obtain ⟨rfl, rfl⟩ := Prod.mk.inj (Option.some.inj (hserver.symm.trans hserver'))
          exact hfinished.not_enabled rfl task ⟨act, hact, _, hstep⟩

/-- The thread reports that it stopped. -/
theorem stop_completes_served :
    ∃ m result, 7 ≤ m ∧ ∀ k, m ≤ k → Settled (servedPath.state k) result := by
  have hstopped : (servedPath.state 7).stopped = true := rfl
  refine stop_completes servedPath rfl (fun party n hstays => ?_) hstopped
  have hlast := hstays (n + 14) (Nat.le_add_right n 14)
  exact absurd hlast (not_enabled_served party n)

theorem reaches_served (n : Nat) :
    Reaches (AnyStep (fun _ => none) (.ok ())) Process.start (servedState n) := by
  induction n with
  | zero => exact .refl
  | succ n ih => exact ih.tail ⟨servedAct n, step_served n⟩

/-- It has reported the exit code of a service that was stopped. -/
theorem reported_of_reaches_served :
    Reported (servedState 14) ∧ .reportStopped 0 ∈ (servedState 14).calls :=
  ⟨reported_of_reaches (reaches_served 14), List.mem_cons_self⟩

end DigDns.Scm
