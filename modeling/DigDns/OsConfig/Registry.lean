import DigDns.OsConfig.Machine

/-!
# The browser policy in the registry

What `reg` does, and the states that the policy keys go through when the tool
applies and removes its policy and any `reg add` or `reg delete` can fail.  A
value carries whether the tool wrote it.
-/

namespace DigDns.OsConfig

open Rust Interaction Interaction.Prog

/-- A value, and whether it was written by the tool. -/
structure RegValue where
  kind : Str
  data : Str
  ours : Bool
deriving DecidableEq

/-- The values of the keys that exist. -/
abbrev Registry := Str → Option (Str → Option RegValue)

namespace Registry

/-- The value of a name under a key. -/
def value (r : Registry) (key name : Str) : Option RegValue :=
  (r key).bind fun values => values name

/-- Set a value, and make the key if there is none. -/
def set (r : Registry) (key name : Str) (v : RegValue) : Registry :=
  Function.update r key (some (Function.update ((r key).getD fun _ => none) name (some v)))

/-- Delete a value. -/
def delete (r : Registry) (key name : Str) : Registry :=
  Function.update r key ((r key).map fun values => Function.update values name none)

theorem set_of_ne {r : Registry} {key other name : Str} {v : RegValue} (h : other ≠ key) :
    r.set key name v other = r other :=
  Function.update_of_ne h ..

theorem delete_of_ne {r : Registry} {key other name : Str} (h : other ≠ key) :
    r.delete key name other = r other :=
  Function.update_of_ne h ..

theorem value_set (r : Registry) (key name : Str) (v : RegValue) (name' : Str) :
    (r.set key name v).value key name' = if name' = name then some v else r.value key name' := by
  rw [value, set, Function.update_self, Option.bind_some, Function.update_apply]
  split
  · rfl
  · cases hkey : r key with
    | none => simp [value, hkey]
    | some values => simp [value, hkey]

theorem value_delete (r : Registry) (key name name' : Str) :
    (r.delete key name).value key name' = if name' = name then none else r.value key name' := by
  rw [value, delete, Function.update_self]
  cases hkey : r key with
  | none => simp [value, hkey]
  | some values => simp [value, hkey, Function.update_apply]

/-- Deleting what is not there changes nothing. -/
theorem delete_of_value_eq_none {r : Registry} {key name : Str} (h : r.value key name = none) :
    r.delete key name = r := by
  funext other
  by_cases hother : other = key
  · subst hother
    rw [delete, Function.update_self]
    cases hkey : r other with
    | none => rfl
    | some values =>
        rw [value, hkey, Option.bind_some] at h
        rw [Option.map_some, ← h, Function.update_eq_self]
  · exact delete_of_ne hother

end Registry

/-! ## Commands -/

/-- What a command line asks of `reg`. -/
inductive RegCommand
  | queryKey (key : Str)
  | queryValue (key name : Str)
  | add (key name kind data : Str)
  | delete (key name : Str)
deriving DecidableEq

/-- `reg` reads its arguments. -/
def readRegArgs : List Str → Option RegCommand
  | [verb, key] => if verb = "query".toList then some (.queryKey key) else none
  | [verb, key, flag, name] =>
      if verb = "query".toList ∧ flag = "/v".toList then some (.queryValue key name) else none
  | [verb, key, flag, name, force] =>
      if verb = "delete".toList ∧ flag = "/v".toList ∧ force = "/f".toList then
        some (.delete key name)
      else none
  | [verb, key, flag, name, typeFlag, kind, dataFlag, data, force] =>
      if verb = "add".toList ∧ flag = "/v".toList ∧ typeFlag = "/t".toList ∧
          dataFlag = "/d".toList ∧ force = "/f".toList then
        some (.add key name kind data)
      else none
  | _ => none

/-- Whether a command succeeds, and the registry after it: what is asked for must be
there, and `fails` says which of the commands that write fail otherwise. -/
def runReg (fails : List Str → Bool) (r : Registry) (args : List Str) : Bool × Registry :=
  match readRegArgs args with
  | some (.queryKey key) => ((r key).isSome, r)
  | some (.queryValue key name) => ((r.value key name).isSome, r)
  | some (.add key name kind data) =>
      if fails args then (false, r) else (true, r.set key name ⟨kind, data, true⟩)
  | some (.delete key name) =>
      if fails args || (r.value key name).isNone then (false, r) else (true, r.delete key name)
  | none => (false, r)

/-- The answers of a system on which some `reg` commands fail. -/
def regEnv (fails : List Str → Bool) (r : Registry) : (q : Call) → Answer q × Registry
  | .spawn program args =>
      if program = "reg".toList then
        (.ok ⟨(runReg fails r args).1, []⟩, (runReg fails r args).2)
      else (.error "not found".toList, r)
  | q => ((serve ⟨fun _ => none, []⟩ q).1, r)

/-- The two values of the policy. -/
def policyValues : List Str := [winPolicyDohName, winPolicyBuiltinName]

/-- The marker and the legacy marker. -/
def policyMarkers : List Str := [winPolicyMarker, winLegacyPolicyMarker]

/-- Whether a key carries a marker. -/
def IsMarked (r : Registry) (key : Str) : Prop := ∃ name ∈ policyMarkers, r.value key name ≠ none

/-- Whether a value is there that the tool wrote. -/
def Wrote (r : Registry) (key name : Str) : Prop := ∃ v ∈ r.value key name, v.ours = true

instance (r : Registry) (key : Str) : Decidable (IsMarked r key) :=
  inferInstanceAs (Decidable (∃ name ∈ policyMarkers, r.value key name ≠ none))

instance (r : Registry) (key name : Str) : Decidable (Wrote r key name) :=
  decidable_of_iff ((r.value key name).any RegValue.ours = true) (by
    rw [Wrote, Option.any_eq_true]
    rfl)

/-- Every policy value that the tool wrote has a marker beside it. -/
def IsRemovable (r : Registry) : Prop :=
  ∀ key, ∀ name ∈ policyValues, Wrote r key name → IsMarked r key

/-- A key that is not the tool's: it has no marker, and the tool wrote nothing there. -/
def IsForeignKey (r : Registry) (key : Str) : Prop :=
  (r key).isSome = true ∧ ¬IsMarked r key ∧ ∀ name, ¬Wrote r key name

/-! ## Calls of the tool -/

/-- A call of the tool for a key, with the `reg` commands that fail in it. -/
inductive PolicyCall
  | apply (key : Str) (fails : List Str → Bool)
  | remove (key : Str) (fails : List Str → Bool)

namespace PolicyCall

def fails : PolicyCall → List Str → Bool
  | apply _ fails => fails
  | remove _ fails => fails

def prog : PolicyCall → OsProg (Except Str Bool)
  | apply key _ => applyWindowsBrowserPolicy key
  | remove key _ => removeWindowsBrowserPolicy key

/-- The registry after a call. -/
def after (call : PolicyCall) (r : Registry) : Registry :=
  (call.prog.eval (regEnv call.fails) r).2

/-- The states of the registry in a call. -/
def path (call : PolicyCall) (r : Registry) : List Registry :=
  call.prog.path (regEnv call.fails) r

end PolicyCall

/-- The states of the registry in calls one after the other. -/
def policyPath : Registry → List PolicyCall → List Registry
  | r, [] => [r]
  | r, call :: calls => call.path r ++ policyPath (call.after r) calls

/-! ## Running the commands -/

section Running

variable (fails : List Str → Bool) (r : Registry)

theorem regEnv_reg (args : List Str) :
    regEnv fails r (.spawn "reg".toList args) =
      (.ok ⟨(runReg fails r args).1, []⟩, (runReg fails r args).2) := by
  unfold regEnv
  exact if_pos rfl

theorem eval_reg (args : List Str) :
    (reg args).eval (regEnv fails) r =
      (if (runReg fails r args).1 then .ok () else .error ("reg".toList ++ " exited non-zero".toList),
        (runReg fails r args).2) := by
  have hcall := regEnv_reg fails r args
  rw [reg, run, eval_bind, call, eval, hcall]
  dsimp only [eval]
  split <;> rfl

theorem path_reg (args : List Str) :
    (reg args).path (regEnv fails) r = [r, (runReg fails r args).2] := by
  have hcall := regEnv_reg fails r args
  rw [reg, run, call, ask_bind, path, hcall]
  dsimp only [ret_bind]
  split <;> rfl

theorem eval_regPresent (args : List Str) :
    (regPresent args).eval (regEnv fails) r = runReg fails r args := by
  rw [regPresent, ← reg, eval_bind, eval_reg]
  cases hrun : runReg fails r args with
  | mk success r' => cases success <;> rfl

variable {fails r} {Rel : Registry → Registry → Prop}

theorem isChain_path_reg {args : List Str} :
    ((reg args).path (regEnv fails) r).IsChain Rel ↔ Rel r (runReg fails r args).2 := by
  rw [path_reg]
  simp

theorem isChain_path_regPresent {args : List Str} :
    ((regPresent args).path (regEnv fails) r).IsChain Rel ↔ Rel r (runReg fails r args).2 := by
  rw [regPresent, ← reg, isChain_path_bind, isChain_path_reg]
  simp [path]

end Running

/-! ## Queries -/

section Queries

variable (fails : List Str → Bool) (r : Registry) (key : Str)

theorem runReg_queryKey :
    runReg fails r (regQueryKeyArgs key) = ((r (hklm key)).isSome, r) := by
  have hread : readRegArgs (regQueryKeyArgs key) = some (.queryKey (hklm key)) := by
    unfold regQueryKeyArgs readRegArgs
    exact if_pos rfl
  rw [runReg, hread]

theorem runReg_queryValue (name : Str) :
    runReg fails r (regQueryValueArgs key name) = ((r.value (hklm key) name).isSome, r) := by
  have hread : readRegArgs (regQueryValueArgs key name) = some (.queryValue (hklm key) name) := by
    unfold regQueryValueArgs readRegArgs
    exact if_pos ⟨rfl, rfl⟩
  rw [runReg, hread]

theorem eval_regMarked :
    (regMarked key).eval (regEnv fails) r = (decide (IsMarked r (hklm key)), r) := by
  rw [regMarked, eval_bind, eval_regPresent, runReg_queryValue]
  cases hmarker : r.value (hklm key) winPolicyMarker with
  | some v => simp [eval, IsMarked, policyMarkers, hmarker]
  | none =>
      have hmarked : IsMarked r (hklm key) ↔
          (r.value (hklm key) winLegacyPolicyMarker).isSome = true := by
        simp [IsMarked, policyMarkers, hmarker, Option.isSome_iff_ne_none]
      simp only [Option.isSome_none, Bool.false_eq_true, if_false, eval_regPresent,
        runReg_queryValue, decide_eq_decide.mpr hmarked, Bool.decide_eq_true]

variable {fails r key} {Rel : Registry → Registry → Prop}

theorem isChain_path_regMarked (hrefl : Rel r r) :
    ((regMarked key).path (regEnv fails) r).IsChain Rel := by
  rw [regMarked, isChain_path_bind, isChain_path_regPresent, eval_regPresent, runReg_queryValue]
  refine ⟨hrefl, ?_⟩
  split
  · exact List.isChain_singleton _
  · rwa [isChain_path_regPresent, runReg_queryValue]

end Queries

/-! ## Adding and deleting -/

/-- The names, kinds and data of the values that `apply` adds. -/
def policyAdds : List (Str × Str × Str) :=
  [(winPolicyDohName, "REG_SZ".toList, "off".toList),
    (winPolicyBuiltinName, "REG_DWORD".toList, "0".toList),
    (winPolicyMarker, "REG_DWORD".toList, "1".toList)]

theorem regAddPolicyArgs_eq (key : Str) :
    regAddPolicyArgs key = policyAdds.map fun v => regAddArgs key v.1 v.2.1 v.2.2 :=
  rfl

/-- The first of them is a value of the policy. -/
theorem exists_regAddPolicyArgs_eq_cons (key : Str) :
    ∃ rest, regAddPolicyArgs key =
      regAddArgs key winPolicyDohName "REG_SZ".toList "off".toList :: rest :=
  ⟨_, rfl⟩

/-- Delete values under a key, as far as the commands do not fail. -/
def tryDeletes (fails : List Str → Bool) (key : Str) (r : Registry) (names : List Str) : Registry :=
  names.foldl (fun r name =>
    if fails (regDeleteValueArgs key name) then r else r.delete (hklm key) name) r

theorem tryDeletes_append (fails : List Str → Bool) (key : Str) (r : Registry)
    (names names' : List Str) : tryDeletes fails key r (names ++ names') =
      tryDeletes fails key (tryDeletes fails key r names) names' :=
  List.foldl_append

section Writing

variable {fails : List Str → Bool} {r : Registry} {key : Str} {Rel : Registry → Registry → Prop}

theorem runReg_add (name kind data : Str) :
    runReg fails r (regAddArgs key name kind data) =
      if fails (regAddArgs key name kind data) then (false, r)
      else (true, r.set (hklm key) name ⟨kind, data, true⟩) := by
  have hread : readRegArgs (regAddArgs key name kind data) =
      some (.add (hklm key) name kind data) := by
    unfold regAddArgs readRegArgs
    exact if_pos ⟨rfl, rfl, rfl, rfl, rfl⟩
  rw [runReg, hread]

theorem runReg_delete (name : Str) :
    (runReg fails r (regDeleteValueArgs key name)).2 =
      if fails (regDeleteValueArgs key name) then r else r.delete (hklm key) name := by
  have hread : readRegArgs (regDeleteValueArgs key name) = some (.delete (hklm key) name) := by
    unfold regDeleteValueArgs readRegArgs
    exact if_pos ⟨rfl, rfl, rfl⟩
  rw [runReg, hread]
  dsimp only
  cases hfails : fails (regDeleteValueArgs key name) with
  | true => rfl
  | false =>
      cases hvalue : r.value (hklm key) name with
      | none => simp [Registry.delete_of_value_eq_none hvalue]
      | some v => rfl

/-- The commands run in order until one fails. -/
theorem isChain_path_regAll_cons {args : List Str} {rest : List (List Str)} :
    ((regAll (args :: rest)).path (regEnv fails) r).IsChain Rel ↔
      Rel r (runReg fails r args).2 ∧ ((runReg fails r args).1 = true →
        ((regAll rest).path (regEnv fails) (runReg fails r args).2).IsChain Rel) := by
  rw [regAll, isChain_path_bind, isChain_path_reg, eval_reg]
  refine and_congr_right fun _ => ?_
  cases (runReg fails r args).1 with
  | true => simp
  | false => simp [path]

/-- `apply` adds its values, unless the key is there without a marker. -/
theorem isChain_path_apply (hrefl : Rel r r) :
    ((applyWindowsBrowserPolicy key).path (regEnv fails) r).IsChain Rel ↔
      (((r (hklm key)).isSome = true → IsMarked r (hklm key)) →
        ((regAll (regAddPolicyArgs key)).path (regEnv fails) r).IsChain Rel) := by
  rw [applyWindowsBrowserPolicy, isChain_path_bind, isChain_path_regPresent, eval_regPresent,
    runReg_queryKey]
  dsimp only
  rw [isChain_path_bind, eval_regMarked]
  dsimp only
  by_cases hskip : (r (hklm key)).isSome = true → IsMarked r (hklm key)
  · have hgo : ((r (hklm key)).isSome && !decide (IsMarked r (hklm key))) = false := by
      simpa using hskip
    rw [hgo, imp_iff_right hskip]
    simp [hrefl, isChain_path_regMarked hrefl, isChain_path_bind, path]
  · have hstop : ((r (hklm key)).isSome && !decide (IsMarked r (hklm key))) = true := by
      simpa using hskip
    rw [hstop]
    exact iff_of_true ⟨hrefl, isChain_path_regMarked hrefl, List.isChain_singleton _⟩
      fun h => absurd h hskip

theorem isChain_path_delete {α : Type} {name : Str} {rest : OsProg α} :
    ((do let _ ← reg (regDeleteValueArgs key name); rest : OsProg α).path (regEnv fails)
        r).IsChain Rel ↔
      Rel r (tryDeletes fails key r [name]) ∧
        (rest.path (regEnv fails) (tryDeletes fails key r [name])).IsChain Rel := by
  rw [isChain_path_bind, isChain_path_reg, eval_reg, runReg_delete]
  exact Iff.rfl

theorem eval_delete {α : Type} {name : Str} {rest : OsProg α} :
    (do let _ ← reg (regDeleteValueArgs key name); rest : OsProg α).eval (regEnv fails) r =
      rest.eval (regEnv fails) (tryDeletes fails key r [name]) := by
  rw [eval_bind, eval_reg, runReg_delete]
  rfl

/-- A marked key loses the four values, as far as the commands do not fail. -/
theorem eval_remove (hmarked : IsMarked r (hklm key)) :
    ((removeWindowsBrowserPolicy key).eval (regEnv fails) r).2 =
      tryDeletes fails key r (policyValues ++ policyMarkers) := by
  rw [removeWindowsBrowserPolicy, eval_bind, eval_regMarked]
  dsimp only
  rw [decide_eq_true hmarked, if_pos rfl, eval_delete, eval_delete, eval_delete, eval_delete,
    pure_eq_ret, eval]
  simp only [← tryDeletes_append, List.cons_append, List.nil_append, policyValues, policyMarkers]

/-- `remove` deletes four values, if there is a marker. -/
theorem isChain_path_remove (hrefl : Rel r r) :
    ((removeWindowsBrowserPolicy key).path (regEnv fails) r).IsChain Rel ↔
      (IsMarked r (hklm key) →
        Rel r (tryDeletes fails key r [winPolicyDohName]) ∧
        Rel (tryDeletes fails key r [winPolicyDohName])
          (tryDeletes fails key r [winPolicyDohName, winPolicyBuiltinName]) ∧
        Rel (tryDeletes fails key r [winPolicyDohName, winPolicyBuiltinName])
          (tryDeletes fails key r [winPolicyDohName, winPolicyBuiltinName, winPolicyMarker]) ∧
        Rel (tryDeletes fails key r [winPolicyDohName, winPolicyBuiltinName, winPolicyMarker])
          (tryDeletes fails key r (policyValues ++ policyMarkers))) := by
  rw [removeWindowsBrowserPolicy, isChain_path_bind, eval_regMarked]
  dsimp only
  by_cases hmarked : IsMarked r (hklm key)
  · rw [decide_eq_true hmarked, if_pos rfl, imp_iff_right hmarked, isChain_path_delete,
      isChain_path_delete, isChain_path_delete, isChain_path_delete,
      and_iff_right (isChain_path_regMarked hrefl), pure_eq_ret, path,
      and_iff_left (List.isChain_singleton _)]
    simp only [← tryDeletes_append, List.cons_append, List.nil_append, policyValues, policyMarkers]
  · rw [decide_eq_false hmarked]
    exact iff_of_true ⟨isChain_path_regMarked hrefl, List.isChain_singleton _⟩
      fun h => absurd h hmarked

end Writing

end DigDns.OsConfig
