import DigDns.OsConfig.Registry

/-!
# Whether the browser policy can be removed

A policy value that the tool wrote should have a marker beside it, or the tool
will not delete it.  It does not when `apply` makes a key, since the marker is
written last, nor when `remove` deletes the markers and fails to delete a value.
Keys of others are left alone.
-/

namespace DigDns.OsConfig

open Rust Interaction Interaction.Prog

/-! ## What depends on one key -/

section Keys

variable {fails : List Str → Bool} {r r' : Registry} {key other : Str} {names : List Str}

theorem value_congr (h : r' key = r key) (name : Str) : r'.value key name = r.value key name := by
  rw [Registry.value, h, Registry.value]

theorem isMarked_congr (h : r' key = r key) : IsMarked r' key ↔ IsMarked r key := by
  simp only [IsMarked, value_congr h]

theorem wrote_congr (h : r' key = r key) (name : Str) : Wrote r' key name ↔ Wrote r key name := by
  rw [Wrote, value_congr h, Wrote]

/-- A change of one key keeps what the others say. -/
theorem isRemovable_iff_of_eq (h : IsRemovable r) (hother : ∀ other ≠ key, r' other = r other) :
    IsRemovable r' ↔ ∀ name ∈ policyValues, Wrote r' key name → IsMarked r' key := by
  refine ⟨fun hr' => hr' key, fun hkey other name hname hwrote => ?_⟩
  by_cases hsame : other = key
  · subst hsame
    exact hkey name hname hwrote
  · have heq := hother other hsame
    rw [isMarked_congr heq]
    exact h other name hname ((wrote_congr heq name).mp hwrote)

/-! ## Deleting -/

theorem tryDeletes_of_ne (h : other ≠ hklm key) : tryDeletes fails key r names other = r other := by
  induction names generalizing r with
  | nil => rfl
  | cons name names ih =>
      rw [tryDeletes, List.foldl_cons, ← tryDeletes, ih]
      split
      · rfl
      · exact Registry.delete_of_ne h

/-- A value is gone if it was to be deleted and that did not fail. -/
theorem value_tryDeletes (name : Str) :
    (tryDeletes fails key r names).value (hklm key) name =
      if name ∈ names ∧ fails (regDeleteValueArgs key name) = false then none
      else r.value (hklm key) name := by
  induction names generalizing r with
  | nil => simp [tryDeletes]
  | cons first names ih =>
      rw [tryDeletes, List.foldl_cons, ← tryDeletes, ih]
      by_cases hfirst : name = first
      · subst hfirst
        cases hfails : fails (regDeleteValueArgs key name) with
        | true => simp
        | false => simp [Registry.value_delete]
      · have hmem : name ∈ first :: names ↔ name ∈ names := by simp [hfirst]
        simp only [hmem]
        cases fails (regDeleteValueArgs key first) with
        | true => rfl
        | false => simp [Registry.value_delete, hfirst]

theorem isMarked_tryDeletes :
    IsMarked (tryDeletes fails key r names) (hklm key) ↔
      ∃ name ∈ policyMarkers, r.value (hklm key) name ≠ none ∧
        (name ∈ names → fails (regDeleteValueArgs key name) = true) := by
  refine exists_congr fun name => and_congr_right fun _ => ?_
  rw [value_tryDeletes]
  by_cases hgone : name ∈ names ∧ fails (regDeleteValueArgs key name) = false
  · rw [if_pos hgone]
    refine iff_of_false (fun h => h rfl) fun h => ?_
    rw [h.2 hgone.1] at hgone
    cases hgone.2
  · rw [if_neg hgone]
    refine (and_iff_left fun hmem => ?_).symm
    rw [← Bool.not_eq_false]
    exact fun hfalse => hgone ⟨hmem, hfalse⟩

theorem wrote_tryDeletes (name : Str) :
    Wrote (tryDeletes fails key r names) (hklm key) name ↔
      Wrote r (hklm key) name ∧
        (name ∈ names → fails (regDeleteValueArgs key name) = true) := by
  rw [Wrote, value_tryDeletes]
  by_cases hgone : name ∈ names ∧ fails (regDeleteValueArgs key name) = false
  · rw [if_pos hgone]
    refine iff_of_false (fun ⟨v, hv, _⟩ => nomatch hv) fun h => ?_
    rw [h.2 hgone.1] at hgone
    cases hgone.2
  · rw [if_neg hgone]
    refine (and_iff_left fun hmem => ?_).symm
    rw [← Bool.not_eq_false]
    exact fun hfalse => hgone ⟨hmem, hfalse⟩

/-- Deleting leaves no value without a marker exactly if a marker is left when one of
the tool's values is. -/
theorem isRemovable_tryDeletes_iff (h : IsRemovable r) :
    IsRemovable (tryDeletes fails key r names) ↔
      ((∃ name ∈ policyValues, Wrote r (hklm key) name ∧
        (name ∈ names → fails (regDeleteValueArgs key name) = true)) →
      ∃ name ∈ policyMarkers, r.value (hklm key) name ≠ none ∧
        (name ∈ names → fails (regDeleteValueArgs key name) = true)) := by
  rw [isRemovable_iff_of_eq h fun other hother => tryDeletes_of_ne hother, isMarked_tryDeletes]
  simp only [wrote_tryDeletes]
  constructor
  · rintro hall ⟨name, hname, hwrote⟩
    exact hall name hname hwrote
  · exact fun himp name hname hwrote => himp ⟨name, hname, hwrote⟩

/-! ## Adding -/

theorem wrote_set (name : Str) (kind data : Str) :
    Wrote (r.set key name ⟨kind, data, true⟩) key name := by
  rw [Wrote, Registry.value_set, if_pos rfl]
  exact ⟨_, rfl, rfl⟩

theorem isMarked_set (h : IsMarked r key) (name : Str) (v : RegValue) :
    IsMarked (r.set key name v) key := by
  obtain ⟨found, hfound, hvalue⟩ := h
  refine ⟨found, hfound, ?_⟩
  rw [Registry.value_set]
  split
  · exact Option.some_ne_none _
  · exact hvalue

theorem isRemovable_set (h : IsRemovable r) (hmarked : IsMarked r key) (name : Str)
    (v : RegValue) : IsRemovable (r.set key name v) := by
  rw [isRemovable_iff_of_eq h fun other hother => Registry.set_of_ne hother]
  exact fun _ _ _ => isMarked_set hmarked name v

/-- A run of `reg add` for one key goes on as long as the commands succeed. -/
theorem isChain_path_adds {Inv : Registry → Prop} {Rel : Registry → Registry → Prop}
    (hrefl : ∀ r, Inv r → Rel r r)
    (hset : ∀ r name kind data, Inv r → Rel r (r.set (hklm key) name ⟨kind, data, true⟩) ∧
      Inv (r.set (hklm key) name ⟨kind, data, true⟩))
    (adds : List (Str × Str × Str)) (h : Inv r) :
    ((regAll (adds.map fun v => regAddArgs key v.1 v.2.1 v.2.2)).path (regEnv fails)
      r).IsChain Rel := by
  induction adds generalizing r with
  | nil => exact List.isChain_singleton _
  | cons v adds ih =>
      rw [List.map_cons, isChain_path_regAll_cons, runReg_add]
      split
      · exact ⟨hrefl r h, nofun⟩
      · obtain ⟨hrel, hnext⟩ := hset r v.1 v.2.1 v.2.2 h
        exact ⟨hrel, fun _ => ih hnext⟩

end Keys

/-! ## One call -/

/-- The call makes no key, and deletes no last marker beside a value that it fails to
delete. -/
def PolicyCall.KeepsMarkers (r : Registry) : PolicyCall → Prop
  | .apply key fails =>
      (r (hklm key)).isSome = true ∨ ∃ args ∈ (regAddPolicyArgs key).head?, fails args = true
  | .remove key fails =>
      (∃ name ∈ policyValues, Wrote r (hklm key) name ∧
        fails (regDeleteValueArgs key name) = true) →
      ∃ name ∈ policyMarkers, r.value (hklm key) name ≠ none ∧
        fails (regDeleteValueArgs key name) = true

section Calls

variable {fails : List Str → Bool} {r : Registry} {key : Str}

theorem isMarked_iff_of_disjoint {names : List Str} (h : ∀ name ∈ policyMarkers, name ∉ names) :
    IsMarked (tryDeletes fails key r names) (hklm key) ↔ IsMarked r (hklm key) := by
  rw [isMarked_tryDeletes]
  exact exists_congr fun name => and_congr_right fun hname =>
    and_iff_left fun hmem => absurd hmem (h name hname)

theorem isRemovable_apply_iff (h : IsRemovable r) :
    ((applyWindowsBrowserPolicy key).path (regEnv fails) r).IsChain (fun _ t => IsRemovable t) ↔
      (PolicyCall.apply key fails).KeepsMarkers r := by
  obtain ⟨rest, hfirst⟩ := exists_regAddPolicyArgs_eq_cons key
  rw [isChain_path_apply h, PolicyCall.KeepsMarkers]
  constructor
  · intro hchain
    by_contra hneither
    obtain ⟨habsent, hworks⟩ := not_or.mp hneither
    -- The first value is written before there is a marker.
    have hadds := hchain fun hsome => absurd hsome habsent
    have hnone : r (hklm key) = none := by simpa using habsent
    have hsucceeds : ¬fails (regAddArgs key winPolicyDohName "REG_SZ".toList "off".toList) = true :=
      fun hfails => hworks ⟨_, by rw [hfirst]; rfl, hfails⟩
    rw [hfirst, isChain_path_regAll_cons, runReg_add, if_neg hsucceeds] at hadds
    obtain ⟨name, hname, hvalue⟩ := hadds.1 (hklm key) winPolicyDohName List.mem_cons_self
      (wrote_set _ _ _)
    rw [Registry.value_set] at hvalue
    have hne : name ≠ winPolicyDohName := by
      rcases List.mem_pair.mp hname with rfl | rfl
      · decide
      · decide
    rw [if_neg hne, Registry.value, hnone] at hvalue
    exact hvalue rfl
  · intro hkeeps hskip
    rcases hkeeps with hsome | ⟨args, hargs, hfails⟩
    · have hset : ∀ r name kind data, IsRemovable r ∧ IsMarked r (hklm key) →
          IsRemovable (r.set (hklm key) name ⟨kind, data, true⟩) ∧
            IsRemovable (r.set (hklm key) name ⟨kind, data, true⟩) ∧
            IsMarked (r.set (hklm key) name ⟨kind, data, true⟩) (hklm key) := by
        intro r name kind data hr
        have hremovable := isRemovable_set hr.1 hr.2 name ⟨kind, data, true⟩
        exact ⟨hremovable, hremovable, isMarked_set hr.2 _ _⟩
      rw [regAddPolicyArgs_eq]
      exact isChain_path_adds (fun _ hr => hr.1) hset policyAdds ⟨h, hskip hsome⟩
    · rw [hfirst, List.head?_cons, Option.mem_some_iff] at hargs
      subst hargs
      rw [hfirst, isChain_path_regAll_cons, runReg_add, if_pos hfails]
      exact ⟨h, by simp⟩

theorem isRemovable_of_disjoint {names : List Str} (h : IsRemovable r)
    (hmarked : IsMarked r (hklm key)) (hnames : ∀ name ∈ policyMarkers, name ∉ names) :
    IsRemovable (tryDeletes fails key r names) := by
  rw [isRemovable_iff_of_eq h fun other hother => tryDeletes_of_ne hother]
  exact fun _ _ _ => (isMarked_iff_of_disjoint hnames).mpr hmarked

theorem isRemovable_of_keepsMarkers {names : List Str} (h : IsRemovable r)
    (hkeeps : (PolicyCall.remove key fails).KeepsMarkers r)
    (hnames : ∀ name ∈ policyValues, name ∈ names) :
    IsRemovable (tryDeletes fails key r names) := by
  rw [isRemovable_tryDeletes_iff h]
  rintro ⟨name, hname, hwrote, hfails⟩
  obtain ⟨found, hfound, hvalue, hkept⟩ := hkeeps ⟨name, hname, hwrote, hfails (hnames name hname)⟩
  exact ⟨found, hfound, hvalue, fun _ => hkept⟩

theorem isRemovable_remove_iff (h : IsRemovable r) :
    ((removeWindowsBrowserPolicy key).path (regEnv fails) r).IsChain (fun _ t => IsRemovable t) ↔
      (PolicyCall.remove key fails).KeepsMarkers r := by
  rw [isChain_path_remove h]
  constructor
  · rintro hchain ⟨name, hname, hwrote, hfails⟩
    obtain ⟨-, -, -, hlast⟩ := hchain (h _ name hname hwrote)
    rw [isRemovable_tryDeletes_iff h] at hlast
    obtain ⟨found, hfound, hvalue, hkept⟩ := hlast ⟨name, hname, hwrote, fun _ => hfails⟩
    exact ⟨found, hfound, hvalue, hkept (List.mem_append_right _ hfound)⟩
  · intro hkeeps hmarked
    -- The markers are deleted after the values.
    exact ⟨isRemovable_of_disjoint h hmarked (by decide),
      isRemovable_of_disjoint h hmarked (by decide),
      isRemovable_of_keepsMarkers h hkeeps (by decide),
      isRemovable_of_keepsMarkers h hkeeps (by decide)⟩

/-- All states of a call keep the tool's values removable exactly if it keeps markers. -/
theorem isRemovable_path_iff {call : PolicyCall} (h : IsRemovable r) :
    (∀ t ∈ call.path r, IsRemovable t) ↔ call.KeepsMarkers r := by
  rw [PolicyCall.path, forall_path_iff, and_iff_right h]
  cases call with
  | apply key fails => exact isRemovable_apply_iff h
  | remove key fails => exact isRemovable_remove_iff h

/-- A working `remove` deletes the values beside a marker. -/
theorem value_remove (hmarked : IsMarked r (hklm key)) {name : Str} (hname : name ∈ policyValues) :
    ((PolicyCall.remove key fun _ => false).after r).value (hklm key) name = none := by
  have hafter : (PolicyCall.remove key fun _ => false).after r =
      tryDeletes (fun _ => false) key r (policyValues ++ policyMarkers) := eval_remove hmarked
  rw [hafter, value_tryDeletes, if_pos ⟨List.mem_append_left _ hname, rfl⟩]

/-! ## Keys of others -/

/-- A step leaves the keys of others alone. -/
def LeavesForeign (r r' : Registry) : Prop := ∀ key, IsForeignKey r key → r' key = r key

theorem leavesForeign_refl (r : Registry) : LeavesForeign r r := fun _ _ => rfl

theorem leavesForeign_tryDelete (names : List Str) {name : Str}
    (h : IsMarked (tryDeletes fails key r names) (hklm key) ∨ name ∈ policyMarkers) :
    LeavesForeign (tryDeletes fails key r names) (tryDeletes fails key r (names ++ [name])) := by
  intro other hforeign
  rw [tryDeletes_append]
  by_cases hother : other = hklm key
  · subst hother
    have hmarker := h.resolve_left hforeign.2.1
    -- A marker that is not there cannot be deleted.
    have hnone : (tryDeletes fails key r names).value (hklm key) name = none := by
      by_contra hvalue
      exact hforeign.2.1 ⟨name, hmarker, hvalue⟩
    rw [tryDeletes, List.foldl_cons, List.foldl_nil, Registry.delete_of_value_eq_none hnone,
      ite_self]
  · exact tryDeletes_of_ne hother

theorem leavesForeign_path (call : PolicyCall) : (call.path r).IsChain LeavesForeign := by
  cases call with
  | apply key fails =>
      refine (isChain_path_apply (leavesForeign_refl r)).mpr fun hskip => ?_
      have hset : ∀ r name kind data, ¬IsForeignKey r (hklm key) →
          LeavesForeign r (r.set (hklm key) name ⟨kind, data, true⟩) ∧
            ¬IsForeignKey (r.set (hklm key) name ⟨kind, data, true⟩) (hklm key) := by
        intro r name kind data hr
        refine ⟨fun other hforeign => ?_, fun hforeign => hforeign.2.2 name (wrote_set _ _ _)⟩
        exact Registry.set_of_ne fun heq => hr (heq ▸ hforeign)
      have hown : ¬IsForeignKey r (hklm key) := fun hforeign => hforeign.2.1 (hskip hforeign.1)
      rw [regAddPolicyArgs_eq]
      exact isChain_path_adds (fun r _ => leavesForeign_refl r) hset policyAdds hown
  | remove key fails =>
      refine (isChain_path_remove (leavesForeign_refl r)).mpr fun hmarked => ?_
      have hfirst : IsMarked (tryDeletes fails key r [winPolicyDohName]) (hklm key) :=
        (isMarked_iff_of_disjoint (by decide)).mpr hmarked
      have hmarker : winPolicyMarker ∈ policyMarkers := List.mem_cons_self
      have hlegacy : winLegacyPolicyMarker ∈ policyMarkers :=
        List.mem_cons_of_mem _ List.mem_cons_self
      exact ⟨leavesForeign_tryDelete [] (Or.inl hmarked),
        leavesForeign_tryDelete [winPolicyDohName] (Or.inl hfirst),
        leavesForeign_tryDelete [winPolicyDohName, winPolicyBuiltinName] (Or.inr hmarker),
        leavesForeign_tryDelete [winPolicyDohName, winPolicyBuiltinName, winPolicyMarker]
          (Or.inr hlegacy)⟩

end Calls

/-! ## Calls one after the other -/

/-- Every call keeps markers, in the state in which it begins. -/
def AllKeepMarkers : Registry → List PolicyCall → Prop
  | _, [] => True
  | r, call :: calls => call.KeepsMarkers r ∧ AllKeepMarkers (call.after r) calls

/-- A registry in which nothing was written by the tool. -/
def Registry.initial (values : Str → Option (Str → Option (Str × Str))) : Registry :=
  fun key => (values key).map fun named name => (named name).map fun v => ⟨v.1, v.2, false⟩

theorem isRemovable_initial (values : Str → Option (Str → Option (Str × Str))) :
    IsRemovable (.initial values) := by
  rintro key name - ⟨v, hv, hours⟩
  rw [Registry.value, Registry.initial, Option.mem_def] at hv
  cases hkey : values key with
  | none =>
      rw [hkey] at hv
      cases hv
  | some named =>
      rw [hkey, Option.map_some, Option.bind_some] at hv
      obtain ⟨pair, -, rfl⟩ := Option.map_eq_some_iff.mp hv
      cases hours

theorem after_mem_path (call : PolicyCall) (r : Registry) : call.after r ∈ call.path r :=
  List.mem_of_getLast? (getLast?_path _ _ _)

theorem isRemovable_policyPath_iff {r : Registry} (calls : List PolicyCall) (h : IsRemovable r) :
    (∀ t ∈ policyPath r calls, IsRemovable t) ↔ AllKeepMarkers r calls := by
  induction calls generalizing r with
  | nil =>
      rw [policyPath, List.forall_mem_singleton]
      exact iff_of_true h trivial
  | cons call calls ih =>
      rw [policyPath, List.forall_mem_append, AllKeepMarkers, ← isRemovable_path_iff h]
      exact and_congr_right fun hpath => ih (hpath _ (after_mem_path call r))

theorem leavesForeign_policyPath (r : Registry) (calls : List PolicyCall) :
    (policyPath r calls).IsChain LeavesForeign := by
  induction calls generalizing r with
  | nil => exact List.isChain_singleton _
  | cons call calls ih =>
      refine List.isChain_append.mpr ⟨leavesForeign_path call, ih _, ?_⟩
      intro last hlast first hfirst
      rw [PolicyCall.path, getLast?_path, Option.mem_some_iff] at hlast
      have hhead : (policyPath (call.after r) calls).head? = some (call.after r) := by
        cases calls with
        | nil => rfl
        | cons next calls =>
            obtain ⟨rest, hrest⟩ := exists_path_eq_cons (regEnv next.fails) (call.after r) next.prog
            rw [policyPath, PolicyCall.path, hrest]
            rfl
      rw [hhead, Option.mem_some_iff] at hfirst
      rw [← hlast, ← hfirst]
      exact leavesForeign_refl _

/-- From any registry, whatever commands fail: the values of the tool have a marker in
every state exactly if every call keeps markers; a working `remove` deletes the values
beside a marker; and no step changes a key of others. -/
theorem policyPath_spec (values : Str → Option (Str → Option (Str × Str)))
    (calls : List PolicyCall) :
    ((∀ r ∈ policyPath (.initial values) calls, IsRemovable r) ↔
      AllKeepMarkers (.initial values) calls) ∧
    (∀ r ∈ policyPath (.initial values) calls, ∀ key, IsMarked r (hklm key) →
      ∀ name ∈ policyValues,
        ((PolicyCall.remove key fun _ => false).after r).value (hklm key) name = none) ∧
    (policyPath (.initial values) calls).IsChain LeavesForeign :=
  ⟨isRemovable_policyPath_iff calls (isRemovable_initial values),
    fun _ _ _ hmarked _ hname => value_remove hmarked hname, leavesForeign_policyPath _ calls⟩

/-- On a machine without the keys, an `apply` in which the second `reg add` fails. -/
def halfApplied : PolicyCall :=
  .apply winChromePolicyKey fun args =>
    args == regAddArgs winChromePolicyKey winPolicyBuiltinName "REG_DWORD".toList "0".toList

/-- Its first value stays without a marker, and `remove` does not delete it. -/
theorem policyPath_halfApplied :
    (¬∀ r ∈ policyPath (.initial fun _ => none) [halfApplied], IsRemovable r) ∧
      Wrote ((PolicyCall.remove winChromePolicyKey fun _ => false).after
        (halfApplied.after (.initial fun _ => none))) (hklm winChromePolicyKey)
        winPolicyDohName := by
  have hwrote : Wrote (halfApplied.after (.initial fun _ => none)) (hklm winChromePolicyKey)
      winPolicyDohName := by
    decide +kernel
  have hunmarked : ¬IsMarked (halfApplied.after (.initial fun _ => none))
      (hklm winChromePolicyKey) := by
    decide +kernel
  refine ⟨fun hall => hunmarked ?_, by decide +kernel⟩
  exact hall _ (List.mem_append_left _ (after_mem_path _ _)) _ _ List.mem_cons_self hwrote

end DigDns.OsConfig
