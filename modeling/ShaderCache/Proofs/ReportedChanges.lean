import ShaderCache.Proofs.Echo
import ShaderCache.Proofs.NameFamilies
import ShaderCache.Proofs.Run
import ShaderCache.Proofs.WorldEffects

/-!
# Reported changes

An edit answers whether it changed the configuration. A change that is not reported would leave a
stale version active, one that is reported wrongly costs a compilation. Edits of several names
look at a list that they are changing, so there an earlier step must not make up a later change.
-/

set_option autoImplicit false

namespace ShaderCache

open Std

/-- The answer tells whether the collection is a different one than before. -/
def Reports {Collection : Type} (before : Collection) (edit : Bool × Collection) : Prop :=
  edit.1 = true ↔ edit.2 ≠ before

theorem reports_of_flags {Collection : Type} {before : Collection} {edit : Bool × Collection}
    (unchanged : edit.1 = false → edit.2 = before) (changed : edit.1 = true → edit.2 ≠ before) :
    Reports before edit := by
  refine ⟨changed, fun differs => ?_⟩
  cases flag : edit.1 with
  | true => rfl
  | false => exact absurd (unchanged flag) differs

theorem replaced_reports {Collection : Type} [DecidableEq Collection] (before after : Collection) :
    Reports before (decide (before ≠ after), after) :=
  decide_eq_true_iff.trans ne_comm

/-- The flag of a fold is up only for an item for which the collection had to change at the very
start, as long as no step brings this about for a later item. -/
theorem fold_changed {Collection Item : Type} (step : Collection → Item → Bool × Collection)
    (Due : Collection → Item → Prop)
    (reports : ∀ list item, (step list item).1 = true → Due list item) (items : List Item)
    (apart : items.Pairwise fun item later =>
      ∀ list, Due (step list item).2 later → Due list later) (flag : Bool) (list : Collection) :
    let result := items.foldl
      (fun reached item => ((step reached.2 item).1 || reached.1, (step reached.2 item).2))
      (flag, list)
    result.1 = true → flag = true ∨ ∃ item ∈ items, Due list item := by
  induction items generalizing flag list with
  | nil => exact fun up => .inl up
  | cons item rest ih =>
      intro result up
      obtain ⟨apartHere, apartLater⟩ := List.pairwise_cons.mp apart
      rcases ih apartLater ((step list item).1 || flag) (step list item).2 up with
        flags | ⟨later, present, due⟩
      · rcases Bool.or_eq_true_iff.mp flags with stepUp | flagUp
        · exact .inr ⟨item, List.mem_cons_self, reports list item stepUp⟩
        · exact .inl flagUp
      · exact .inr ⟨later, List.mem_cons_of_mem item present, apartHere later present list due⟩

/-! ## Defines and conformances -/

namespace SortedMap

variable {κ ν : Type} [Ord κ] [LawfulEqOrd κ] [DecidableEq κ] [TransOrd κ] {map : SortedMap κ ν}
  {key : κ}

theorem erase_reports (map : SortedMap κ ν) (key : κ) :
    Reports map (map.contains key, map.erase key) := by
  apply reports_of_flags erase_of_absent
  intro (present : map.contains key = true) (same : map.erase key = map)
  have gone := get_erase map key key
  rw [same, if_pos rfl] at gone
  simp [contains, gone] at present

theorem insert_differs {value : ν} (due : map.get? key ≠ some value) :
    map.insert key value ≠ map := by
  intro same
  have held := get_insert map key key value
  rw [same, if_pos rfl] at held
  exact due held

end SortedMap

namespace DefineList

variable (defines other : DefineList)

theorem add_changed {name value : String} (changed : (defines.add name value).1 = true) :
    defines.get? name ≠ some value := by
  intro held
  simp [add, held] at changed

theorem add_reports (name value : String) : Reports defines (defines.add name value) := by
  apply reports_of_flags add_unchanged
  intro changed
  rw [add_eq_insert]
  exact SortedMap.insert_differs (defines.add_changed changed)

theorem remove_reports (name : String) : Reports defines (defines.remove name) :=
  SortedMap.erase_reports defines name

/-- The names of the other list are different ones, so setting one changes the value of no other. -/
theorem add_all_reports : Reports defines (defines.addAll other) := by
  apply reports_of_flags add_all_unchanged
  intro changed same
  have apart : other.entries.Pairwise fun (entry later : String × String) =>
      ∀ list : DefineList, (list.add entry.1 entry.2).2.get? later.1 ≠ some later.2 →
        list.get? later.1 ≠ some later.2 := by
    refine other.increasing.imp ?_
    intro entry later less list due
    have differs : later.1 ≠ entry.1 := by
      rintro same
      simp [same] at less
    rwa [get_add, if_neg differs] at due
  have found := fold_changed
    (fun (list : DefineList) (entry : String × String) => list.add entry.1 entry.2)
    (fun list entry => list.get? entry.1 ≠ some entry.2)
    (fun list _ reported => add_changed list reported) other.entries apart false defines changed
  rcases found with impossible | ⟨⟨name, value⟩, present, due⟩
  · contradiction
  · have held := get_add_all defines other name
    rw [same, SortedMap.get_some_iff.mpr present, Option.some_or] at held
    exact due held

theorem remove_all_reports : Reports defines (defines.removeAll other) := by
  apply reports_of_flags remove_all_unchanged
  intro changed same
  have apart : other.keys.Pairwise fun name later =>
      ∀ list : DefineList, (list.remove name).2.contains later = true →
        list.contains later = true := by
    apply List.pairwise_of_forall
    intro name later list
    rw [SortedMap.contains, SortedMap.contains, get_remove]
    split
    next => simp
    next => exact id
  have found := fold_changed remove (fun list name => list.contains name = true)
    (fun _ _ present => present) other.keys apart false defines changed
  rcases found with impossible | ⟨name, named, present⟩
  · contradiction
  · have gone := get_remove_all defines other name
    rw [same, if_pos (SortedMap.mem_keys_iff.mp named)] at gone
    simp [SortedMap.contains, gone] at present

theorem remove_matching_reports (position length : UInt64) (text : String) :
    Reports defines (defines.removeMatching position length text) := by
  apply reports_of_flags remove_matching_unchanged
  intro changed same
  apply of_decide_eq_true changed
  change _ = SortedMap.size (defines.removeMatching position length text).2
  rw [same]

end DefineList

namespace ConformanceList

variable (list : ConformanceList) (typeName interfaceName : String)

theorem remove_reports : Reports list (list.remove typeName interfaceName) :=
  SortedMap.erase_reports list ⟨typeName, interfaceName⟩

theorem add_absent_reports (absent : list.contains ⟨typeName, interfaceName⟩ = false)
    (id : UInt32) : Reports list (true, list.add typeName interfaceName id) := by
  refine ⟨fun _ => SortedMap.insert_differs ?_, fun _ => rfl⟩
  intro held
  simp [SortedMap.contains, held] at absent

end ConformanceList

/-! ## Programs -/

namespace ProgramState

variable {B : Backend} (state : ProgramState B)

theorem with_defines_reports {edit : Bool × DefineList} (reports : Reports state.defines edit) :
    (state.withDefines edit).1 = true ↔ (state.withDefines edit).2.key ≠ state.key := by
  simpa [Reports, withDefines, key] using reports

theorem with_conformances_reports {edit : Bool × ConformanceList}
    (reports : Reports state.conformances edit) :
    (state.withConformances edit).1 = true ↔ (state.withConformances edit).2.key ≠ state.key := by
  simpa [Reports, withConformances, key] using reports

/-- A conformance that is there already is left alone. -/
theorem add_conformance_present {typeName interfaceName : String} (id : UInt32)
    (present : state.conformances.contains ⟨typeName, interfaceName⟩ = true) :
    state.addConformance typeName interfaceName id = (false, state) :=
  if_pos present

theorem add_conformance_absent {typeName interfaceName : String} (id : UInt32)
    (absent : state.conformances.contains ⟨typeName, interfaceName⟩ = false) :
    state.addConformance typeName interfaceName id =
      state.withConformances (true, state.conformances.add typeName interfaceName id) :=
  if_neg (Bool.eq_false_iff.mp absent)

theorem edit_changed_iff (edit : Edit) :
    (state.edit edit).1 = true ↔ (state.edit edit).2.key ≠ state.key := by
  cases edit with
  | addDefine name value =>
      exact state.with_defines_reports (state.defines.add_reports name value)
  | addDefines defines =>
      exact state.with_defines_reports (state.defines.add_all_reports defines)
  | removeDefine name =>
      exact state.with_defines_reports (state.defines.remove_reports name)
  | removeDefines defines =>
      exact state.with_defines_reports (state.defines.remove_all_reports defines)
  | removeDefinesMatching position length text =>
      exact state.with_defines_reports
        (state.defines.remove_matching_reports position length text)
  | setDefines defines =>
      exact state.with_defines_reports (replaced_reports state.defines defines)
  | addConformance typeName interfaceName id =>
      change (state.addConformance typeName interfaceName id).1 = true ↔
        (state.addConformance typeName interfaceName id).2.key ≠ state.key
      cases present : state.conformances.contains ⟨typeName, interfaceName⟩ with
      | true => simp [state.add_conformance_present id present]
      | false =>
          rw [state.add_conformance_absent id present]
          exact state.with_conformances_reports
            (state.conformances.add_absent_reports typeName interfaceName present id)
  | removeConformance typeName interfaceName =>
      exact state.with_conformances_reports
        (state.conformances.remove_reports typeName interfaceName)
  | setConformances conformances =>
      exact state.with_conformances_reports (replaced_reports state.conformances conformances)

end ProgramState

/-! ## Worlds -/

namespace World

variable {B : Backend} (world : World B)

/-- Every edit of a program answers whether the configuration is a different one afterwards, and
makes the program dirty exactly then. The active version, the versions and everything else in the
world stay, in particular all other programs. A conformance that is configured keeps its number,
whatever other number comes. -/
theorem edit_reports_change {program : Nat} {found : Program B}
    (present : world.program? program = some found) (edit : ProgramState.Edit) :
    ∃ changed state next, world.editProgram program edit = some (changed, next) ∧
      next.program? program = some { found with state := state } ∧
      (changed = true ↔
        (state.defines, state.conformances) ≠ (found.state.defines, found.state.conformances)) ∧
      state.dirty = (found.state.dirty || changed) ∧
      state.active = found.state.active ∧ state.versions = found.state.versions ∧
      (∀ other, other ≠ program → next.program? other = world.program? other) ∧
      next = { world with programs := next.programs } ∧
      (∀ typeName interfaceName id kept, edit = .addConformance typeName interfaceName id →
        found.state.conformances.get? ⟨typeName, interfaceName⟩ = some kept →
          changed = false ∧ state.conformances.get? ⟨typeName, interfaceName⟩ = some kept ∧
            state = found.state) := by
  have edited := found.state.edited_from edit
  refine ⟨(found.state.edit edit).1, (found.state.edit edit).2,
    world.modifyState program fun _ => (found.state.edit edit).2, ?_, ?_, ?_, edited.dirty,
    edited.active, edited.versions, ?_, modify_state_eq world program _, ?_⟩
  · simp only [editProgram, present, Option.bind_eq_bind, Option.bind_some]
  · simp [program_modify_state, present]
  · simpa [ProgramState.key] using found.state.edit_changed_iff edit
  · intro other differs
    rw [program_modify_state, if_neg differs]
  · rintro typeName interfaceName id kept rfl held
    have configured : found.state.conformances.contains ⟨typeName, interfaceName⟩ = true := by
      simp [SortedMap.contains, held]
    have same : found.state.edit (.addConformance typeName interfaceName id) =
        (false, found.state) :=
      found.state.add_conformance_present id configured
    rw [same]
    exact ⟨rfl, held, rfl⟩

/-- A conformance comes again with another number, then a list of defines with one new value. -/
theorem edit_reports_new_value :
    let world := (opening {} [Manager.echo]).run
      [.newProgram 0 .oneKernel (.ofList [("LAMPS", "1"), ("SHADOWS", "0")]),
        .editProgram 0 (.addConformance "Lamp" "ILight" 3), .activeVersion 0]
    let again := ProgramState.Edit.addConformance "Lamp" "ILight" 7
    let values := ProgramState.Edit.addDefines (.ofList [("LAMPS", "2"), ("SHADOWS", "0")])
    ∃ found, world.program? 0 = some found ∧ found.state.dirty = false ∧
      (∃ next, world.editProgram 0 again = some (false, next) ∧
        next.program? 0 = some found) ∧
      ∃ next renewed, world.editProgram 0 values = some (true, next) ∧
        next.program? 0 = some renewed ∧ renewed.state.dirty = true ∧
        renewed.state.active = found.state.active := by
  intro world again values
  have configured : (world.program? 0).map (fun found =>
      (found.state.dirty, found.state.conformances.get? ⟨"Lamp", "ILight"⟩)) =
        some (false, some 3) := by
    decide +kernel
  obtain ⟨found, present, facts⟩ := Option.map_eq_some_iff.mp configured
  obtain ⟨clean, kept⟩ := Prod.mk.inj facts
  refine ⟨found, present, clean, ?_, ?_⟩
  · obtain ⟨changed, state, next, edit_eq, presentNext, _, _, _, _, _, _, same⟩ :=
      world.edit_reports_change present again
    obtain ⟨rfl, _, rfl⟩ := same _ _ _ 3 rfl kept
    exact ⟨next, edit_eq, presentNext⟩
  · obtain ⟨changed, state, next, edit_eq, presentNext, _, dirty, active, _⟩ :=
      world.edit_reports_change present values
    have flag : (world.editProgram 0 values).map Prod.fst = some true := by decide +kernel
    obtain rfl : changed = true := by simpa [edit_eq] using flag
    exact ⟨next, _, edit_eq, presentNext, dirty.trans (Bool.or_true _), active⟩

end World

end ShaderCache
