import ShaderCache.Proofs.Positions

/-!
# Finalized descriptions

Finalizing a description numbers its entry points through and changes nothing else of it, whatever
numbers they had before. A description is finalized just when that would change nothing at all.
Callers go on to build a description after it has been finalized: it stays finalized until they add
an entry point, and then it is not until it is finalized again.
-/

set_option autoImplicit false

namespace ShaderCache

/-! ## Everything but the numbers -/

def EntryPoint.withoutIndex (entry : EntryPoint) : EntryPoint :=
  { entry with globalIndex := none }

def EntryPointGroup.withoutIndices (group : EntryPointGroup) : EntryPointGroup :=
  { group with entryPoints := group.entryPoints.map EntryPoint.withoutIndex }

namespace ProgramDesc

def withoutIndices (desc : ProgramDesc) : ProgramDesc :=
  { desc with groups := desc.groups.map EntryPointGroup.withoutIndices }

theorem number_entries_without_index (next : UInt32) (entries : List EntryPoint) :
    (numberEntries next entries).1.map EntryPoint.withoutIndex =
      entries.map EntryPoint.withoutIndex := by
  induction entries generalizing next with
  | nil => rfl
  | cons entry rest ih =>
      simp only [numberEntries, List.map_cons, ih]
      rfl

theorem number_groups_without_indices (next : UInt32) (groups : List EntryPointGroup) :
    (numberGroups next groups).map EntryPointGroup.withoutIndices =
      groups.map EntryPointGroup.withoutIndices := by
  induction groups generalizing next with
  | nil => rfl
  | cons group rest ih =>
      simp only [numberGroups, List.map_cons, EntryPointGroup.withoutIndices,
        number_entries_without_index, ih]

theorem finalize_without_indices (desc : ProgramDesc) :
    desc.finalize.withoutIndices = desc.withoutIndices := by
  simp only [withoutIndices, finalize, number_groups_without_indices]

theorem entry_points_without_indices (desc : ProgramDesc) :
    desc.withoutIndices.entryPoints = desc.entryPoints.map EntryPoint.withoutIndex := by
  simp only [entryPoints, withoutIndices, List.flatMap_map, List.map_flatMap]
  rfl

theorem finalize_entries (desc : ProgramDesc) :
    desc.finalize.entryPoints.map EntryPoint.withoutIndex =
      desc.entryPoints.map EntryPoint.withoutIndex := by
  rw [← entry_points_without_indices, finalize_without_indices, entry_points_without_indices]

theorem finalize_count (desc : ProgramDesc) :
    desc.finalize.entryPointCount = desc.entryPointCount :=
  number_groups_length 0 desc.groups

/-- Finalizing keeps every entry point at its position and makes that its number. -/
theorem finalize_get (desc : ProgramDesc) (position : Nat) :
    desc.finalize.entryPoints[position]? = desc.entryPoints[position]?.map fun entry =>
      { entry with globalIndex := some (UInt32.ofNat position) } := by
  have same := congrArg (·[position]?) desc.finalize_entries
  simp only [List.getElem?_map] at same
  cases isAt : desc.finalize.entryPoints[position]? with
  | none =>
      rw [isAt, Option.map_none, eq_comm, Option.map_eq_none_iff] at same
      rw [same, Option.map_none]
  | some found =>
      have number := positioned_finalize desc position found isAt
      rw [isAt, Option.map_some] at same
      obtain ⟨entry, entryAt, others⟩ := Option.map_eq_some_iff.mp same.symm
      rw [entryAt, Option.map_some, ← number]
      exact congrArg (fun one => some { one with globalIndex := found.globalIndex }) others.symm

/-! ## What is numbered through already -/

theorem numbered_from_append (next : UInt32) (first rest : List EntryPoint) :
    isNumberedFrom next (first ++ rest) =
      (isNumberedFrom next first && isNumberedFrom (numberEntries next first).2 rest) := by
  induction first generalizing next with
  | nil => rfl
  | cons entry others ih =>
      simp only [List.cons_append, isNumberedFrom, numberEntries, ih, Bool.and_assoc]

theorem number_entries_eq {next : UInt32} {entries : List EntryPoint}
    (numbered : isNumberedFrom next entries = true) : (numberEntries next entries).1 = entries := by
  induction entries generalizing next with
  | nil => rfl
  | cons entry rest ih =>
      simp only [isNumberedFrom, Bool.and_eq_true, decide_eq_true_eq] at numbered
      simp only [numberEntries, ih numbered.2, ← numbered.1]

theorem number_groups_eq {next : UInt32} {groups : List EntryPointGroup}
    (numbered : isNumberedFrom next (groups.flatMap EntryPointGroup.entryPoints) = true) :
    numberGroups next groups = groups := by
  induction groups generalizing next with
  | nil => rfl
  | cons group rest ih =>
      rw [List.flatMap_cons, numbered_from_append, Bool.and_eq_true] at numbered
      simp only [numberGroups, number_entries_eq numbered.1, ih numbered.2]

theorem is_finalized_finalize (desc : ProgramDesc) : desc.finalize.isFinalized = true :=
  (is_finalized_iff _).mpr (positioned_finalize desc)

/-- Finalizing leaves a description as it is just if it is finalized. -/
theorem is_finalized_iff_fixed (desc : ProgramDesc) :
    desc.isFinalized = true ↔ desc.finalize = desc := by
  constructor
  · intro finalized
    simp only [finalize, number_groups_eq finalized]
  · intro fixed
    rw [← fixed]
    exact desc.is_finalized_finalize

/-! ## Look-up by number -/

/-- Numbers that are positions are found by them, as long as 32 bits tell the positions apart. -/
theorem Positioned.entry_point_eq {desc : ProgramDesc} (positioned : desc.Positioned)
    (fits : desc.entryPointCount ≤ 2 ^ 32) (index : UInt32) :
    desc.entryPoint? index = desc.entryPoints[index.toNat]? := by
  have index_iff {position : Nat} (bound : position < desc.entryPoints.length) :
      desc.entryPoints[position].globalIndex = some index ↔ position = index.toNat := by
    rw [positioned position _ (List.getElem?_eq_getElem bound), Option.some.injEq,
      ← UInt32.toNat_inj, UInt32.toNat_ofNat', Nat.mod_eq_of_lt (Nat.lt_of_lt_of_le bound fits)]
  unfold entryPoint?
  cases isAt : desc.entryPoints[index.toNat]? with
  | none =>
      have beyond := List.getElem?_eq_none_iff.mp isAt
      apply List.find?_eq_none.mpr
      intro entry held carries
      obtain ⟨position, bound, rfl⟩ := List.mem_iff_getElem.mp held
      have same := (index_iff bound).mp (of_decide_eq_true carries)
      omega
  | some entry =>
      obtain ⟨bound, rfl⟩ := List.getElem?_eq_some_iff.mp isAt
      apply List.find?_eq_some_iff_getElem.mpr
      refine ⟨decide_eq_true ((index_iff bound).mpr rfl), index.toNat, bound, rfl, ?_⟩
      intro position before
      rw [Bool.not_eq_true', decide_eq_false_iff_not, index_iff]
      omega

/-! ## Going on to build -/

/-- What callers do to a description, apart from numbering its entry points. -/
inductive Edit where
  | addModule (shaderModule : ShaderModule)
  | addModules (modules : List ShaderModule)
  | addGroup (shaderModule : Nat)
  | addLibrary (path : Path)
  | addEntryPoint (group : Nat) (stage : ShaderStage) (name exportName : String)
  | addGroupConformance (group : Nat) (typeName interfaceName : String) (id : UInt32)
  | addConformances (conformances : ConformanceList)
  | addArguments (arguments : List String)
  | setFlags (flags : CompilerFlags)
  | setShaderModel (model : ShaderModel)

def edit (desc : ProgramDesc) : Edit → ProgramDesc
  | .addModule shaderModule => desc.addModule shaderModule
  | .addModules modules => desc.addModules modules
  | .addGroup shaderModule => desc.addGroup shaderModule
  | .addLibrary path => desc.addLibrary path
  | .addEntryPoint group stage name exportName =>
      desc.modifyGroup group (·.addEntryPoint stage name exportName)
  | .addGroupConformance group typeName interfaceName id =>
      desc.modifyGroup group (·.addConformance typeName interfaceName id)
  | .addConformances conformances => desc.addConformances conformances
  | .addArguments arguments => desc.addArguments arguments
  | .setFlags flags => { desc with flags }
  | .setShaderModel model => { desc with shaderModel := some model }

def editAll (desc : ProgramDesc) (edits : List Edit) : ProgramDesc :=
  edits.foldl edit desc

def Edit.isEntryPoint : Edit → Bool
  | .addEntryPoint .. => true
  | _ => false

theorem entry_points_modify_group {change : EntryPointGroup → EntryPointGroup}
    (keeps : ∀ group, (change group).entryPoints = group.entryPoints) (desc : ProgramDesc)
    (position : Nat) : (desc.modifyGroup position change).entryPoints = desc.entryPoints := by
  simp only [entryPoints, modifyGroup]
  induction desc.groups generalizing position with
  | nil => rw [List.modify_nil]
  | cons group rest ih =>
      cases position with
      | zero => rw [List.modify_zero_cons, List.flatMap_cons, List.flatMap_cons, keeps]
      | succ before => rw [List.modify_succ_cons, List.flatMap_cons, List.flatMap_cons, ih]

/-- New groups are empty, so only a new entry point changes what the entry points are. -/
theorem entry_points_edit {edit : Edit} (other : edit.isEntryPoint = false) (desc : ProgramDesc) :
    (desc.edit edit).entryPoints = desc.entryPoints := by
  have group (shaderModule : Nat) (built : ProgramDesc) :
      (built.addGroup shaderModule).entryPoints = built.entryPoints := by
    simp only [entryPoints, addGroup, List.flatMap_append, List.flatMap_singleton, List.append_nil]
  cases edit with
  | addModule | addModules | addConformances | addArguments | setFlags | setShaderModel => rfl
  | addGroup shaderModule => exact group shaderModule desc
  | addLibrary path => exact group _ (desc.addModule (.ofFile path))
  | addGroupConformance position =>
      apply entry_points_modify_group
      intro found
      rfl
  | addEntryPoint => cases other

/-- An entry point that is added stands somewhere between the others and has no number. -/
theorem entry_points_add {group : Nat} (desc : ProgramDesc) (present : group < desc.groups.length)
    (stage : ShaderStage) (name exportName : String) :
    ∃ before after, desc.entryPoints = before ++ after ∧
      (desc.edit (.addEntryPoint group stage name exportName)).entryPoints =
        before ++ ⟨stage, name, exportName, none⟩ :: after := by
  let earlier := (desc.groups.take group).flatMap EntryPointGroup.entryPoints
  let later := (desc.groups.drop (group + 1)).flatMap EntryPointGroup.entryPoints
  have around : desc.groups = desc.groups.take group ++ desc.groups[group] ::
      desc.groups.drop (group + 1) := by
    rw [← List.drop_eq_getElem_cons present, List.take_append_drop]
  refine ⟨earlier ++ desc.groups[group].entryPoints, later, ?_, ?_⟩
  · calc
      desc.entryPoints = (desc.groups.take group ++ desc.groups[group] ::
          desc.groups.drop (group + 1)).flatMap EntryPointGroup.entryPoints := by
        rw [← around, entryPoints]
      _ = _ := by rw [List.flatMap_append, List.flatMap_cons, List.append_assoc]
  · simp only [edit, entryPoints, modifyGroup, List.modify_eq_take_cons_drop present,
      List.flatMap_append, List.flatMap_cons, EntryPointGroup.addEntryPoint, List.append_assoc,
      List.singleton_append, earlier, later]

/-- No edit takes an entry point away or gives it a number. -/
theorem entry_points_kept {desc : ProgramDesc} {entry : EntryPoint}
    (held : entry ∈ desc.entryPoints) (edit : Edit) : entry ∈ (desc.edit edit).entryPoints := by
  cases added : edit.isEntryPoint with
  | false =>
      rw [entry_points_edit added]
      exact held
  | true =>
      cases edit with
      | addEntryPoint group stage name exportName =>
          by_cases present : group < desc.groups.length
          · obtain ⟨before, after, whole, extended⟩ :=
              desc.entry_points_add present stage name exportName
            rw [whole, List.mem_append] at held
            rw [extended, List.mem_append, List.mem_cons]
            exact held.imp_right Or.inr
          · have absent := List.modify_eq_self
              (f := (·.addEntryPoint stage name exportName)) (Nat.le_of_not_lt present)
            simp only [ProgramDesc.edit, modifyGroup, absent]
            exact held
      | _ => cases added

theorem entry_points_kept_all {desc : ProgramDesc} {entry : EntryPoint}
    (held : entry ∈ desc.entryPoints) (edits : List Edit) :
    entry ∈ (desc.editAll edits).entryPoints := by
  induction edits generalizing desc with
  | nil => exact held
  | cons edit rest ih => exact ih (entry_points_kept held edit)

theorem is_finalized_edit_all {edits : List Edit}
    (others : ∀ edit ∈ edits, edit.isEntryPoint = false) (desc : ProgramDesc) :
    (desc.editAll edits).isFinalized = desc.isFinalized := by
  induction edits generalizing desc with
  | nil => rfl
  | cons edit rest ih =>
      have later := ih (fun one held => others one (List.mem_cons_of_mem _ held)) (desc.edit edit)
      have here : (desc.edit edit).isFinalized = desc.isFinalized := by
        rw [isFinalized, entry_points_edit (others edit List.mem_cons_self), isFinalized]
      exact later.trans here

theorem not_finalized_of_mem {desc : ProgramDesc} {entry : EntryPoint}
    (held : entry ∈ desc.entryPoints) (unnumbered : entry.globalIndex = none) :
    desc.isFinalized = false := by
  apply Bool.eq_false_iff.mpr
  intro finalized
  obtain ⟨position, isAt⟩ := List.mem_iff_getElem?.mp held
  have number := (is_finalized_iff desc).mp finalized position entry isAt
  rw [unnumbered] at number
  cases number

/-- A new entry point keeps a description from being finalized, whatever is edited after it. -/
theorem not_finalized_after_add {group : Nat} (desc : ProgramDesc)
    (present : group < desc.groups.length) (stage : ShaderStage) (name exportName : String)
    (edits : List Edit) :
    ((desc.edit (.addEntryPoint group stage name exportName)).editAll edits).isFinalized =
      false := by
  obtain ⟨before, after, _, extended⟩ := desc.entry_points_add present stage name exportName
  have held : ⟨stage, name, exportName, none⟩ ∈
      (desc.edit (.addEntryPoint group stage name exportName)).entryPoints := by
    rw [extended]
    exact List.mem_append_right _ List.mem_cons_self
  exact not_finalized_of_mem (entry_points_kept_all held edits) rfl

/-- Finalizing numbers the entry points through group by group, and descriptions that it leaves
alone are the finalized ones. -/
theorem finalization_numbers_positions (desc : ProgramDesc) (few : desc.entryPointCount < 2 ^ 32) :
    desc.finalize.withoutIndices = desc.withoutIndices ∧
    desc.finalize.isFinalized = true ∧
    (∀ index : UInt32, desc.finalize.entryPoint? index =
      desc.entryPoints[index.toNat]?.map fun entry => { entry with globalIndex := some index }) ∧
    (∀ index : UInt32, (desc.finalize.entryPoint? index).isSome = true ↔
      index.toNat < desc.entryPointCount) ∧
    (desc.isFinalized = true ↔ desc.finalize = desc) ∧
    desc.finalize.finalize = desc.finalize ∧
    (∀ group stage name exportName edits, group < desc.groups.length →
      let built := (desc.edit (.addEntryPoint group stage name exportName)).editAll edits
      built.isFinalized = false ∧ built.finalize.isFinalized = true) ∧
    (∀ edits : List Edit, (∀ edit ∈ edits, edit.isEntryPoint = false) →
      (desc.editAll edits).isFinalized = desc.isFinalized) := by
  have finalized := desc.is_finalized_finalize
  have fits : desc.finalize.entryPointCount ≤ 2 ^ 32 := by
    rw [finalize_count]
    exact Nat.le_of_lt few
  have found (index : UInt32) : desc.finalize.entryPoint? index =
      desc.entryPoints[index.toNat]?.map fun entry =>
        { entry with globalIndex := some index } := by
    rw [(positioned_finalize desc).entry_point_eq fits, finalize_get, UInt32.ofNat_toNat]
  refine ⟨desc.finalize_without_indices, finalized, found, ?_, desc.is_finalized_iff_fixed,
    (is_finalized_iff_fixed _).mp finalized, ?_, ?_⟩
  · intro index
    rw [found, Option.isSome_map, Option.isSome_iff_ne_none, ne_eq, List.getElem?_eq_none_iff,
      Nat.not_le, entryPointCount]
  · intro group stage name exportName edits present built
    exact ⟨desc.not_finalized_after_add present stage name exportName edits,
      built.is_finalized_finalize⟩
  · intro edits others
    exact is_finalized_edit_all others desc

/-- A group without entry points between two others, and numbers that are not the positions. -/
def patched : ProgramDesc where
  groups := [⟨0, ∅, [⟨.vertex, "vs", "vs", some 1⟩, ⟨.pixel, "ps", "ps", none⟩]⟩, ⟨0, ∅, []⟩,
    ⟨1, ∅, [⟨.compute, "cs", "cs", some 0⟩]⟩]

theorem patched_numbers_replaced :
    patched.entryPointCount < 2 ^ 32 ∧ patched.isFinalized = false ∧
      patched.finalize.entryPoint? 2 = some ⟨.compute, "cs", "cs", some 2⟩ ∧
      (patched.finalize.entryPoint? 3).isSome = false ∧
      ((patched.finalize.edit (.addEntryPoint 1 .compute "late" "late")).editAll
        [.addGroup 0, .addArguments ["-O3"]]).isFinalized = false := by
  have few : patched.entryPointCount < 2 ^ 32 := by decide
  obtain ⟨_, _, found, bound, _⟩ := finalization_numbers_positions patched few
  obtain ⟨_, _, _, _, _, _, added, _⟩ :=
    finalization_numbers_positions patched.finalize (by decide)
  refine ⟨few, by decide, found 2, Bool.eq_false_iff.mpr fun present => ?_, ?_⟩
  · exact absurd ((bound 3).mp present) (by decide)
  · exact (added 1 .compute "late" "late" [.addGroup 0, .addArguments ["-O3"]] (by decide)).1

end ProgramDesc

end ShaderCache
