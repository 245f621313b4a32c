import ShaderCache.Proofs.MapLaws
import ShaderCache.World.ProgramState

/-!
# Edits of a configuration

What an edit does to the configuration of a program, apart from the versions that the program
keeps. An edit that reports no change has changed nothing: this is what lets a program that is
not dirty answer without looking at its configuration.
-/

set_option autoImplicit false

namespace ShaderCache

/-! ## Edits that report no change -/

/-- A fold over edits that each report truthfully reports truthfully. The flag only ever goes
up, so a flag that is down at the end was down before every edit. -/
theorem fold_unchanged {Collection Item : Type} (step : Collection → Item → Bool × Collection)
    (truthful : ∀ list item, (step list item).1 = false → (step list item).2 = list)
    (items : List Item) (flag : Bool) (list : Collection) :
    let result := items.foldl
      (fun reached item => ((step reached.2 item).1 || reached.1, (step reached.2 item).2))
      (flag, list)
    result.1 = false → flag = false ∧ result.2 = list := by
  induction items generalizing flag list with
  | nil => exact fun down => ⟨down, rfl⟩
  | cons item rest ih =>
      intro result down
      have ⟨flags, same⟩ := ih ((step list item).1 || flag) (step list item).2 down
      have ⟨stepDown, flagDown⟩ := Bool.or_eq_false_iff.mp flags
      exact ⟨flagDown, same.trans (truthful list item stepDown)⟩

namespace DefineList

variable {defines other : DefineList}

theorem add_unchanged {name value : String} (unchanged : (defines.add name value).1 = false) :
    (defines.add name value).2 = defines := by
  unfold add at unchanged ⊢
  split at unchanged
  next present => simp [present]
  next => simp at unchanged

theorem remove_unchanged {name : String} (unchanged : (defines.remove name).1 = false) :
    (defines.remove name).2 = defines :=
  SortedMap.erase_of_absent unchanged

theorem add_all_unchanged (unchanged : (defines.addAll other).1 = false) :
    (defines.addAll other).2 = defines :=
  (fold_unchanged (fun (list : DefineList) (item : String × String) => list.add item.1 item.2)
    (fun _ _ => add_unchanged) other.entries false defines unchanged).2

theorem remove_all_unchanged (unchanged : (defines.removeAll other).1 = false) :
    (defines.removeAll other).2 = defines :=
  (fold_unchanged remove (fun _ _ => remove_unchanged) other.keys false defines unchanged).2

theorem remove_matching_unchanged {position length : UInt64} {text : String}
    (unchanged : (defines.removeMatching position length text).1 = false) :
    (defines.removeMatching position length text).2 = defines := by
  have sizes : defines.entries.length =
      (defines.removeMatching position length text).2.entries.length := by
    exact Decidable.not_not.mp (of_decide_eq_false unchanged)
  exact SortedMap.eq_of_entries_eq
    (List.filter_sublist.eq_of_length sizes.symm)

end DefineList

theorem ConformanceList.remove_unchanged {list : ConformanceList} {typeName interfaceName : String}
    (unchanged : (list.remove typeName interfaceName).1 = false) :
    (list.remove typeName interfaceName).2 = list :=
  SortedMap.erase_of_absent unchanged

/-! ## Look-ups -/

namespace DefineList

theorem add_eq_insert (defines : DefineList) (name value : String) :
    (defines.add name value).2 = defines.insert name value := by
  unfold add
  split
  next present =>
    apply SortedMap.eq_of_get_eq
    intro other
    rw [SortedMap.get_insert]
    split
    next here => rw [here, present]
    next => rfl
  next => rfl

theorem add_all_eq_insert_all (defines other : DefineList) :
    (defines.addAll other).2 = defines.insertAll other.entries := by
  let step := fun (state : Bool × DefineList) (entry : String × String) =>
    let added := state.2.add entry.1 entry.2
    (added.1 || state.1, added.2)
  have folded : ∀ (entries : List (String × String)) (state : Bool × DefineList),
      (entries.foldl step state).2 = state.2.insertAll entries := by
    intro entries
    induction entries with
    | nil => exact fun _ => rfl
    | cons first rest ih =>
        intro state
        rw [List.foldl_cons, ih]
        change (state.2.add first.1 first.2).2.insertAll rest = _
        rw [add_eq_insert]
        rfl
  exact folded other.entries (false, defines)

theorem get_add (defines : DefineList) (name value other : String) :
    (defines.add name value).2.get? other =
      if other = name then some value else defines.get? other := by
  rw [add_eq_insert, SortedMap.get_insert]

/-- The values of the other set win. -/
theorem get_add_all (defines other : DefineList) (name : String) :
    (defines.addAll other).2.get? name = (other.get? name).or (defines.get? name) := by
  rw [add_all_eq_insert_all, SortedMap.get_insert_all]

theorem get_remove (defines : DefineList) (name other : String) :
    (defines.remove name).2.get? other = if other = name then none else defines.get? other :=
  SortedMap.get_erase defines name other

/-- The names of the other set are gone, whatever their values. -/
theorem get_remove_all (defines other : DefineList) (name : String) :
    (defines.removeAll other).2.get? name =
      if other.contains name then none else defines.get? name := by
  let step := fun (state : Bool × DefineList) (removed : String) =>
    ((state.2.remove removed).1 || state.1, (state.2.remove removed).2)
  have folded : ∀ (names : List String) (state : Bool × DefineList),
      (names.foldl step state).2.get? name =
        if name ∈ names then none else state.2.get? name := by
    intro names
    induction names with
    | nil => exact fun _ => rfl
    | cons first rest ih =>
        intro state
        rw [List.foldl_cons, ih, get_remove]
        by_cases here : name = first
        · simp [here]
        · simp [here]
  refine (folded other.keys (false, defines)).trans ?_
  simp only [SortedMap.mem_keys_iff]

theorem get_remove_matching (defines : DefineList) (position length : UInt64)
    (text name : String) :
    (defines.removeMatching position length text).2.get? name =
      if nameMatches position length text name then none else defines.get? name := by
  refine (SortedMap.get_filter defines (fun other => !nameMatches position length text other)
    name).trans ?_
  cases nameMatches position length text name <;> rfl

end DefineList

/-! ## Programs -/

namespace ProgramState

variable {B : Backend} (state : ProgramState B)

theorem with_defines_unchanged {edit : Bool × DefineList}
    (truthful : edit.1 = false → edit.2 = state.defines)
    (unchanged : (state.withDefines edit).1 = false) : (state.withDefines edit).2 = state := by
  have flag : edit.1 = false := unchanged
  simp [withDefines, flag, truthful flag]

theorem with_conformances_unchanged {edit : Bool × ConformanceList}
    (truthful : edit.1 = false → edit.2 = state.conformances)
    (unchanged : (state.withConformances edit).1 = false) :
    (state.withConformances edit).2 = state := by
  have flag : edit.1 = false := unchanged
  simp [withConformances, flag, truthful flag]

/-- An edit that reports no change leaves the program as it was, dirty or not. -/
theorem edit_unchanged (edit : Edit) (unchanged : (state.edit edit).1 = false) :
    (state.edit edit).2 = state := by
  cases edit with
  | addDefine name value =>
      exact with_defines_unchanged state DefineList.add_unchanged unchanged
  | addDefines defines =>
      exact with_defines_unchanged state DefineList.add_all_unchanged unchanged
  | removeDefine name =>
      exact with_defines_unchanged state DefineList.remove_unchanged unchanged
  | removeDefines defines =>
      exact with_defines_unchanged state DefineList.remove_all_unchanged unchanged
  | removeDefinesMatching position length text =>
      exact with_defines_unchanged state DefineList.remove_matching_unchanged unchanged
  | setDefines defines =>
      refine with_defines_unchanged state ?_ unchanged
      intro same
      exact (by simpa using same : state.defines = defines).symm
  | addConformance typeName interfaceName id =>
      simp only [ProgramState.edit, addConformance] at unchanged ⊢
      split at unchanged
      next present => simp [present]
      next => simp [withConformances] at unchanged
  | removeConformance typeName interfaceName =>
      exact with_conformances_unchanged state ConformanceList.remove_unchanged unchanged
  | setConformances conformances =>
      refine with_conformances_unchanged state ?_ unchanged
      intro same
      exact (by simpa using same : state.conformances = conformances).symm

/-- All that an edit can do: take over a configuration, and mark the program dirty if it reports
a change. -/
structure EditedFrom (before after : ProgramState B) (changed : Bool) : Prop where
  dirty : after.dirty = (before.dirty || changed)
  active : after.active = before.active
  versions : after.versions = before.versions
  produced : after.produced = before.produced

theorem edited_from (edit : Edit) :
    EditedFrom state (state.edit edit).2 (state.edit edit).1 := by
  cases edit with
  | addConformance typeName interfaceName id =>
      simp only [ProgramState.edit, addConformance]
      split
      next => exact ⟨by simp, rfl, rfl, rfl⟩
      next => exact ⟨rfl, rfl, rfl, rfl⟩
  | _ => exact ⟨rfl, rfl, rfl, rfl⟩

end ProgramState

end ShaderCache
