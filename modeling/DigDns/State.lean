import DigDns.Support.Interaction
import DigDns.Support.Text
import DigDns.Support.Transition
import Mathlib.Logic.Function.Basic

/-!
# The runtime file

`state.rs` keeps the pid and the port of the serving process in one file of a
directory that all processes share.  Every process writes the file when it
starts to serve and removes it when it stops, without looking at who wrote it.
The file names a serving process in every state of a run exactly as long as a
process stops only when no other one serves.
-/

namespace DigDns

open Rust Interaction Transition

/-- `RUNTIME_FILE` -/
def runtimeFile : Str := "runtime.json".toList

/-- What a serving process records about itself. -/
structure RuntimeInfo where
  pid : UInt32
  loopbackIp : Str
  httpPort : UInt16
  dnsActive : Bool
deriving DecidableEq

/-- `serde_json` on a `RuntimeInfo`; its output is text. -/
structure RuntimeJson where
  /-- `serde_json::to_vec_pretty` -/
  toVecPretty : RuntimeInfo → Except Str Str
  /-- `serde_json::from_slice` -/
  fromSlice : Str → Option RuntimeInfo

/-- What was serialized is read back. -/
def RuntimeJson.RoundTrips (json : RuntimeJson) : Prop :=
  ∀ info text, json.toVecPretty info = .ok text → json.fromSlice text = some info

/-! ## The programs of the guard -/

/-- What a process asks of the state directory. -/
inductive DirCall
  | createDirAll
  | write (name content : Str)
  | read (name : Str)
  | removeFile (name : Str)

/-- An error is the text of an `io::Error`. -/
abbrev DirAnswer : DirCall → Type
  | .createDirAll => Except Str Unit
  | .write _ _ => Except Str Unit
  | .read _ => Except Str Str
  | .removeFile _ => Except Str Unit

/-- A program that works in the state directory. -/
abbrev DirProg := Prog DirAnswer

/-- `write_runtime_to` -/
def writeRuntimeTo (json : RuntimeJson) (info : RuntimeInfo) : DirProg (Except Str Unit) :=
  .ask .createDirAll fun
    | .error e => .ret (.error e)
    | .ok () =>
        match json.toVecPretty info with
        | .error e => .ret (.error e)
        | .ok text => .ask (.write runtimeFile text) .ret

/-- `read_runtime_from` -/
def readRuntimeFrom (json : RuntimeJson) : DirProg (Option RuntimeInfo) :=
  .ask (.read runtimeFile) fun
    | .error _ => .ret none
    | .ok text => .ret (json.fromSlice text)

namespace RuntimeGuard

/-- `RuntimeGuard::record`: it returns the error that it logs. -/
def record (json : RuntimeJson) (info : RuntimeInfo) : DirProg (Option Str) := do
  match ← writeRuntimeTo json info with
  | .error e => .ret (some e)
  | .ok () => .ret none

/-- `Drop` of a `RuntimeGuard`. -/
def drop : DirProg Unit := .ask (.removeFile runtimeFile) fun _ => .ret ()

end RuntimeGuard

/-! ## Processes that share the directory -/

/-- The files of the state directory. -/
abbrev StateDir := Str → Option Str

/-- What a call can be answered, and what it does: a write can fail and leave
anything, a removal fails only where there is no file. -/
inductive DirStep (dir : StateDir) : (q : DirCall) → DirAnswer q → StateDir → Prop
  | createDirAll (r : Except Str Unit) : DirStep dir .createDirAll r dir
  | written (name content : Str) :
      DirStep dir (.write name content) (.ok ()) (Function.update dir name (some content))
  | notWritten (name content e : Str) (left : Option Str) :
      DirStep dir (.write name content) (.error e) (Function.update dir name left)
  | read {name content : Str} (h : dir name = some content) :
      DirStep dir (.read name) (.ok content) dir
  | unread {name : Str} (e : Str) (h : dir name = none) : DirStep dir (.read name) (.error e) dir
  | removed {name content : Str} (h : dir name = some content) :
      DirStep dir (.removeFile name) (.ok ()) (Function.update dir name none)
  | absent {name : Str} (e : Str) (h : dir name = none) :
      DirStep dir (.removeFile name) (.error e) dir

/-- The state directory, and what the serving processes have recorded. -/
structure Fleet where
  dir : StateDir
  serving : UInt32 → Option RuntimeInfo

/-- A process starts to serve, or stops. -/
inductive FleetAct
  | start (pid : UInt32)
  | stop (pid : UInt32)

/-- A start whose write succeeds, and a graceful stop. -/
inductive FleetStep (json : RuntimeJson) : FleetAct → Fleet → Fleet → Prop
  | start {s : Fleet} {dir : StateDir} (info : RuntimeInfo) (hpid : s.serving info.pid = none)
      (hrecord : Exec DirStep s.dir (RuntimeGuard.record json info) none dir) :
      FleetStep json (.start info.pid) s
        ⟨dir, Function.update s.serving info.pid (some info)⟩
  | stop {s : Fleet} {dir : StateDir} {pid : UInt32} (hpid : (s.serving pid).isSome)
      (hdrop : Exec DirStep s.dir RuntimeGuard.drop () dir) :
      FleetStep json (.stop pid) s ⟨dir, Function.update s.serving pid none⟩

/-- A start or a stop of any process. -/
def AnyStep (json : RuntimeJson) (s s' : Fleet) : Prop := ∃ act, FleetStep json act s s'

variable {json : RuntimeJson} {dir dir' : StateDir} {info : RuntimeInfo}

/-- A recorded process has its text in the file. -/
theorem exec_record (h : Exec DirStep dir (RuntimeGuard.record json info) none dir') :
    ∃ text, json.toVecPretty info = .ok text ∧
      dir' = Function.update dir runtimeFile (some text) := by
  obtain ⟨written, dir₁, hwrite, hrecord⟩ := exec_bind_iff.mp h
  cases written with
  | error e => cases hrecord
  | ok _ =>
      obtain ⟨-, rfl⟩ := exec_ret_iff.mp hrecord
      obtain ⟨made, dir₂, hmade, hwrite⟩ := exec_ask_iff.mp hwrite
      cases hmade
      cases made with
      | error e => cases hwrite
      | ok _ =>
          cases htext : json.toVecPretty info with
          | error e =>
              simp only [htext, exec_ret_iff] at hwrite
              exact absurd hwrite.1 (by simp)
          | ok text =>
              simp only [htext, exec_ask_iff, exec_ret_iff] at hwrite
              obtain ⟨r, dir₃, hstep, rfl, rfl⟩ := hwrite
              cases hstep
              exact ⟨text, rfl, rfl⟩

/-- After the guard there is no file, whoever wrote it. -/
theorem exec_drop (h : Exec DirStep dir RuntimeGuard.drop () dir') :
    dir' = Function.update dir runtimeFile none := by
  obtain ⟨r, dir₁, hstep, hret⟩ := exec_ask_iff.mp h
  obtain ⟨-, rfl⟩ := exec_ret_iff.mp hret
  cases hstep with
  | removed hsome => rfl
  | absent e hnone => rw [← hnone, Function.update_eq_self]

/-- The CLI reads what is in the file. -/
theorem exec_read {found : Option RuntimeInfo}
    (h : Exec DirStep dir (readRuntimeFrom json) found dir') :
    found = (dir runtimeFile).bind json.fromSlice := by
  obtain ⟨r, dir₁, hstep, hret⟩ := exec_ask_iff.mp h
  cases hstep with
  | read hsome =>
      rw [hsome]
      exact (exec_ret_iff.mp hret).1
  | unread e hnone =>
      rw [hnone]
      exact (exec_ret_iff.mp hret).1

/-! ## What the file says in every state -/

/-- The file names a serving process, and is absent when none serves. -/
structure Tracks (json : RuntimeJson) (s : Fleet) : Prop where
  names : (∃ pid, (s.serving pid).isSome) →
    ∃ info, Exec DirStep s.dir (readRuntimeFrom json) (some info) s.dir ∧
      s.serving info.pid = some info
  absent : (∀ pid, s.serving pid = none) → s.dir runtimeFile = none

/-- A process stops only when no other one serves. -/
def StopsAlone (s : Fleet) : FleetAct → Prop
  | .start _ => True
  | .stop pid => ∀ pid', (s.serving pid').isSome → pid' = pid

theorem tracks_start {s s' : Fleet} {pid : UInt32} (hjson : json.RoundTrips)
    (h : FleetStep json (.start pid) s s') : Tracks json s' := by
  cases h with
  | start info hpid hrecord =>
      obtain ⟨text, htext, rfl⟩ := exec_record hrecord
      have hfile : Function.update s.dir runtimeFile (some text) runtimeFile = some text :=
        Function.update_self _ _ _
      have hserving : Function.update s.serving info.pid (some info) info.pid = some info :=
        Function.update_self _ _ _
      constructor
      · intro _
        refine ⟨info, ?_, hserving⟩
        refine .ask (.read hfile) ?_
        exact exec_ret_iff.mpr ⟨(hjson info text htext).symm, rfl⟩
      · intro hnone
        cases hserving.symm.trans (hnone info.pid)

/-- A stop removes the file, so it had better be the last one. -/
theorem tracks_stop_iff {s s' : Fleet} {pid : UInt32} (h : FleetStep json (.stop pid) s s') :
    Tracks json s' ↔ StopsAlone s (.stop pid) := by
  cases h with
  | stop hpid hdrop =>
      obtain rfl := exec_drop hdrop
      have hfile : Function.update s.dir runtimeFile none runtimeFile = none :=
        Function.update_self _ _ _
      constructor
      · intro htracks pid' hserving
        by_contra hne
        obtain ⟨info, hread, -⟩ := htracks.names ⟨pid', by simpa [hne] using hserving⟩
        have hfound := exec_read hread
        simp at hfound
      · intro halone
        refine ⟨?_, fun _ => hfile⟩
        rintro ⟨pid', hserving⟩
        by_cases hpid' : pid' = pid
        · simp [hpid'] at hserving
        · exact absurd (halone pid' (by simpa [hpid'] using hserving)) hpid'

/-- In every run in which a process stops only when no other one serves, the file
tracks the serving processes in every state; and it is wrong right after the
first stop that leaves another process serving. -/
theorem runtimeFile_tracks {s₀ s : Fleet} (hjson : json.RoundTrips)
    (hnone : ∀ pid, s₀.serving pid = none) (habsent : s₀.dir runtimeFile = none)
    (h : Reaches (fun s s' => ∃ act, StopsAlone s act ∧ FleetStep json act s s') s₀ s) :
    Tracks json s ∧ ∀ act s', FleetStep json act s s' → (Tracks json s' ↔ StopsAlone s act) := by
  have hiff : ∀ s act s', FleetStep json act s s' → (Tracks json s' ↔ StopsAlone s act) := by
    intro s act s' hstep
    cases act with
    | start pid => exact ⟨fun _ => trivial, fun _ => tracks_start hjson hstep⟩
    | stop pid => exact tracks_stop_iff hstep
  refine ⟨?_, hiff s⟩
  refine h.invariant ⟨?_, fun _ => habsent⟩ ?_
  · rintro ⟨pid, hpid⟩
    simp [hnone pid] at hpid
  · rintro s₁ s₂ ⟨act, halone, hstep⟩ -
    exact (hiff s₁ act s₂ hstep).mpr halone

/-! ## Two runs -/

/-- What stands before the fields of a `RuntimeInfo`. -/
def fieldKeys : Str × Str × Str × Str :=
  ("\x7b\n  \"pid\": ".toList, "\n  \"loopback_ip\": \"".toList,
    ",\n  \"http_port\": ".toList, "\n  \"dns_active\": ".toList)

/-- The last field and what follows it. -/
def flagText (flag : Bool) : Str :=
  if flag then "true\n\x7d".toList else "false\n\x7d".toList

/-- The text of a `RuntimeInfo`, where its address needs no escapes. -/
def RuntimeInfo.pretty (info : RuntimeInfo) : Str :=
  fieldKeys.1 ++ (fmtNat info.pid.toNat ++ ',' ::
    (fieldKeys.2.1 ++ (info.loopbackIp ++ '"' ::
      (fieldKeys.2.2.1 ++ (fmtNat info.httpPort.toNat ++ ',' ::
        (fieldKeys.2.2.2 ++ flagText info.dnsActive))))))

/-- The text after a key up to a delimiter, and the rest. -/
def readField (key : Str) (c : Char) (text : Str) : Option (Str × Str) :=
  (stripPrefix key text).bind (splitOnce c)

theorem readField_append {c : Char} {value : Str} (key rest : Str) (hvalue : c ∉ value) :
    readField key c (key ++ (value ++ c :: rest)) = some (value, rest) := by
  rw [readField, stripPrefix_append, Option.bind_some, splitOnce_append hvalue]

/-- Reads a text that `RuntimeInfo.pretty` wrote. -/
def RuntimeInfo.parse (text : Str) : Option RuntimeInfo :=
  (readField fieldKeys.1 ',' text).bind fun pid =>
    (parseU32 pid.1).bind fun pidValue =>
      (readField fieldKeys.2.1 '"' pid.2).bind fun ip =>
        (readField fieldKeys.2.2.1 ',' ip.2).bind fun port =>
          (parseU16 port.1).bind fun portValue =>
            (stripPrefix fieldKeys.2.2.2 port.2).map fun flag =>
              ⟨pidValue, ip.1, portValue, flag == flagText true⟩

theorem comma_not_mem_fmtNat (n : Nat) : ',' ∉ fmtNat n := by
  intro h
  exact absurd (isDigit_of_mem_fmtNat h) (by decide)

theorem RuntimeInfo.parse_pretty {info : RuntimeInfo} (hip : '"' ∉ info.loopbackIp) :
    RuntimeInfo.parse info.pretty = some info := by
  have hflag : ∀ flag, (flagText flag == flagText true) = flag := by decide
  rw [parse, pretty, readField_append _ _ (comma_not_mem_fmtNat _), Option.bind_some,
    parseU32_fmtNat, Option.bind_some, readField_append _ _ hip, Option.bind_some,
    readField_append _ _ (comma_not_mem_fmtNat _), Option.bind_some, parseU16_fmtNat,
    Option.bind_some, stripPrefix_append, Option.map_some, hflag]

/-- A string that JSON writes down as it is. -/
def isPlain (s : Str) : Bool := s.all fun c => 32 ≤ c.toNat && c != '"' && c != '\\'

/-- `serde_json` on addresses that need no escapes. -/
def RuntimeJson.reference : RuntimeJson where
  toVecPretty info := if isPlain info.loopbackIp then .ok info.pretty else .error []
  fromSlice := RuntimeInfo.parse

theorem RuntimeJson.reference_roundTrips : RuntimeJson.reference.RoundTrips := by
  intro info text htext
  by_cases hplain : isPlain info.loopbackIp = true
  · simp only [reference, hplain, if_true, Except.ok.injEq] at htext
    subst htext
    refine RuntimeInfo.parse_pretty fun hmem => ?_
    have := List.all_eq_true.mp hplain _ hmem
    simp at this
  · simp [reference, hplain] at htext

/-- A process that starts leaves its text in the file. -/
theorem fleetStep_start (s : Fleet) (info : RuntimeInfo) {text : Str}
    (hpid : s.serving info.pid = none) (htext : json.toVecPretty info = .ok text) :
    FleetStep json (.start info.pid) s ⟨Function.update s.dir runtimeFile (some text),
      Function.update s.serving info.pid (some info)⟩ := by
  refine .start info hpid (exec_bind_iff.mpr ⟨.ok (), _, ?_, .ret _ _⟩)
  refine .ask (.createDirAll (.ok ())) ?_
  rw [htext]
  exact .ask (.written _ _) (.ret _ _)

theorem fleetStep_stop {s : Fleet} {pid : UInt32} {text : Str} (hpid : (s.serving pid).isSome)
    (hfile : s.dir runtimeFile = some text) :
    FleetStep json (.stop pid) s ⟨Function.update s.dir runtimeFile none,
      Function.update s.serving pid none⟩ :=
  .stop hpid (.ask (.removed hfile) (.ret _ _))

/-- A directory without files, and no process. -/
def Fleet.empty : Fleet := ⟨fun _ => none, fun _ => none⟩

/-- A service on the primary port. -/
def serviceInfo : RuntimeInfo := ⟨4242, "127.0.0.5".toList, 80, true⟩

/-- A second `serve`, on the fallback port. -/
def secondInfo : RuntimeInfo := ⟨4243, "127.0.0.5".toList, 8053, false⟩

/-- The file names the service as soon as it serves. -/
theorem runtimeFile_tracks_service :
    ∃ s : Fleet, (s.serving 4242).isSome ∧ Tracks RuntimeJson.reference s ∧
      ∀ act s', FleetStep RuntimeJson.reference act s s' →
        (Tracks RuntimeJson.reference s' ↔ StopsAlone s act) := by
  have hstart : FleetStep RuntimeJson.reference _ Fleet.empty _ :=
    fleetStep_start Fleet.empty serviceInfo rfl rfl
  exact ⟨_, rfl, runtimeFile_tracks RuntimeJson.reference_roundTrips (fun _ => rfl) rfl
    (.single ⟨.start 4242, trivial, hstart⟩)⟩

/-- The service stops while a second `serve` still runs. -/
theorem runtimeFile_lost :
    ¬∀ s, Reaches (AnyStep RuntimeJson.reference) Fleet.empty s → Tracks RuntimeJson.reference s := by
  intro hclaim
  have hservice : Reaches (AnyStep RuntimeJson.reference) Fleet.empty _ :=
    .single ⟨_, fleetStep_start _ serviceInfo rfl rfl⟩
  have hsecond := hservice.tail ⟨_, fleetStep_start _ secondInfo rfl rfl⟩
  have htracks := hclaim _ (hsecond.tail ⟨.stop 4242, fleetStep_stop rfl rfl⟩)
  obtain ⟨info, hread, -⟩ := htracks.names ⟨4243, rfl⟩
  cases exec_read hread

end DigDns
