import ShaderCache.Proofs.KernelOrigins
import ShaderCache.Proofs.Positions

/-!
# What is reflected

The reflection of a version or of kernels lays out the entry points of the program group by group.
The backend is asked about one composite: of the global scope and the entry points of the version,
and for kernels also of the composites of conformances. Nothing that was specialized or linked is
part of it.
-/

set_option autoImplicit false

namespace ShaderCache

variable {B : Backend}

/-! ## Layout -/

/-- The layout tells every entry point of the program once, in the group where it stands, by its
position and with its stage. -/
structure LaysOut (desc : ProgramDesc) (layout : List GroupReflection) : Prop where
  numbers : layout.map GroupReflection.groupIndex = List.range desc.groups.length
  stages : layout.map GroupReflection.stages =
    desc.groups.map fun group => group.entryPoints.map EntryPoint.stage
  sizes : ∀ group ∈ layout, group.stages.length = group.entryPoints.length
  indices : layout.flatMap GroupReflection.entryPoints =
    (List.range desc.entryPointCount).map UInt32.ofNat
  positions : desc.entryPointCount ≤ 2 ^ 32 →
    (layout.flatMap GroupReflection.entryPoints).map UInt32.toNat =
      List.range desc.entryPointCount
  carried : (layout.flatMap fun group => group.entryPoints.zip group.stages) =
    desc.entryPoints.mapIdx fun position entry => (UInt32.ofNat position, entry.stage)

/-- The first positions come back from indices, which tell them apart. -/
theorem range_of_indices {count : Nat} (fits : count ≤ 2 ^ 32) :
    ((List.range count).map UInt32.ofNat).map UInt32.toNat = List.range count := by
  have back : ∀ position ∈ List.range count,
      (UInt32.toNat ∘ UInt32.ofNat) position = id position := by
    intro position below
    have small := Nat.lt_of_lt_of_le (List.mem_range.mp below) fits
    exact UInt32.toNat_ofNat'.trans (Nat.mod_eq_of_lt small)
  rw [List.map_map, List.map_congr_left back, List.map_id]

namespace ProgramDesc

variable {desc : ProgramDesc}

theorem known_indices {entries : List EntryPoint}
    (indexed : ∀ entry ∈ entries, entry.globalIndex ≠ none) :
    entries.filterMap EntryPoint.globalIndex =
      entries.map fun entry => entry.globalIndex.getD 0 := by
  induction entries with
  | nil => rfl
  | cons first rest ih =>
      obtain ⟨here, others⟩ := List.forall_mem_cons.mp indexed
      obtain ⟨index, isIndex⟩ := Option.ne_none_iff_exists'.mp here
      rw [List.filterMap_cons_some isIndex, List.map_cons, ih others, isIndex, Option.getD_some]

/-- A group after another lays out its entry points after those of the other. -/
theorem flat_map_layout {Value : Type} {tell : GroupReflection → List Value}
    {entryTells : EntryPoint → Value} {groups : List EntryPointGroup}
    (same : ∀ group ∈ groups, ∀ position,
      tell (ProgramReflection.groupOf position group) = group.entryPoints.map entryTells) :
    (groups.mapIdx ProgramReflection.groupOf).flatMap tell =
      (groups.flatMap EntryPointGroup.entryPoints).map entryTells := by
  have each : (groups.mapIdx ProgramReflection.groupOf).map tell =
      groups.map fun group => group.entryPoints.map entryTells := by
    apply List.ext_getElem?
    intro position
    simp only [List.getElem?_map, List.getElem?_mapIdx, Option.map_map]
    apply Option.map_congr
    exact fun group present => same group (List.mem_of_getElem? present) position
  rw [List.flatMap_def, each, List.map_flatMap, List.flatMap_def]

theorem Positioned.lays_out (positioned : desc.Positioned) :
    LaysOut desc (desc.groups.mapIdx ProgramReflection.groupOf) := by
  have known : ∀ group ∈ desc.groups, group.entryPoints.filterMap EntryPoint.globalIndex =
      group.entryPoints.map fun entry => entry.globalIndex.getD 0 :=
    fun group present => known_indices (positioned.indexed group present)
  have indices : (desc.groups.mapIdx ProgramReflection.groupOf).flatMap
      GroupReflection.entryPoints = (List.range desc.entryPointCount).map UInt32.ofNat := by
    rw [flat_map_layout fun group present position => known group present]
    apply (positioned.map_indexed fun index _ => index).trans
    apply List.ext_getElem
    · simp [entryPointCount]
    · simp
  refine ⟨?numbers, ?stages, ?sizes, indices, ?positions, ?carried⟩
  case numbers =>
    apply List.ext_getElem
    · simp
    · simp [ProgramReflection.groupOf]
  case stages =>
    apply List.ext_getElem
    · simp
    · simp [ProgramReflection.groupOf]
  case sizes =>
    intro group present
    obtain ⟨position, inside, rfl⟩ := List.mem_mapIdx.mp present
    simp [ProgramReflection.groupOf, known _ (List.getElem_mem inside)]
  case positions =>
    intro fits
    rw [indices, range_of_indices fits]
  case carried =>
    have zipped : ∀ group ∈ desc.groups, ∀ position,
        (ProgramReflection.groupOf position group).entryPoints.zip
            (ProgramReflection.groupOf position group).stages =
          group.entryPoints.map fun entry => (entry.globalIndex.getD 0, entry.stage) := by
      intro group present position
      rw [ProgramReflection.groupOf, known group present, List.zip_map']
    rw [flat_map_layout zipped]
    exact positioned.map_indexed fun index entry => (index, entry.stage)

end ProgramDesc

/-! ## Composites -/

/-- The handle is the reflection of the parts, composed in this order. -/
def Backend.Reflects (B : Backend) (parts : List B.Component) (handle : B.Reflection) : Prop :=
  ∃ whole, B.Composes parts whole ∧ Gives (B.reflect whole) (.ok handle)

open Job

theorem Job.yields_compose_and_reflect {Failure : Type} (failure : Failure)
    (parts : List B.Component) :
    Yields (composeAndReflect failure parts) (B.Reflects parts) := by
  apply yields_noting_bind
  intro whole log composes
  refine yields_bind (yields_call _) fun reflected gives => ?_
  intro work handle reached
  cases yields_or_fail _ _ reflected work handle reached
  exact ⟨whole, ⟨log, composes⟩, gives⟩

/-- What holds of each entry point under its export name holds of all that were gathered. -/
theorem Backend.Gathers.related {entries : List EntryPoint} {handles gathered : List B.Component}
    (gathers : B.Gathers entries handles gathered) (whole : gathered.length = entries.length)
    {related : EntryPoint → B.Component → Prop}
    (each : ∀ (position : Nat) (entry : EntryPoint) (handle exported : B.Component),
      entries[position]? = some entry → handles[position]? = some handle →
      B.Exports entry handle exported → related entry exported) :
    List.Forall₂ related entries gathered := by
  refine List.forall₂_iff_get.mpr ⟨whole.symm, fun position inside gatheredInside => ?_⟩
  have isAt : entries[position]? = some entries[position] := List.getElem?_eq_getElem inside
  obtain ⟨handle, exported, given, isGathered, exports⟩ := gathers position _ isAt
  obtain ⟨_, isExported⟩ := List.getElem?_eq_some_iff.mp isGathered
  have holds := each position _ handle exported isAt given exports
  rw [← isExported] at holds
  exact holds

namespace CompiledVersion

/-- The version is reflected as its global scope with its entry points. -/
structure Reflected (desc : ProgramDesc) (compiled : CompiledVersion B)
    (handle : B.Reflection) : Prop where
  reflection : compiled.reflection = .create compiled.id desc handle
  parts : B.Reflects (compiled.globalScope :: compiled.entryPoints) handle

theorem yields_reflected (desc : ProgramDesc) (request : CompileRequest) :
    Yields (job (B := B) desc request) fun compiled => ∃ handle, Reflected desc compiled handle := by
  apply yields_last
  intro output
  apply yields_last
  intro _
  cases output.program with
  | none => exact fun _ _ reached => nomatch reached
  | some accepted =>
      apply yields_last
      intro entryPoints
      apply yields_last
      intro id
      refine yields_bind (yields_compose_and_reflect _ _) fun handle parts => ?_
      exact yields_pure ⟨handle, rfl, parts⟩

end CompiledVersion

namespace LinkedKernels

/-- The kernels are reflected as the unlinked parts of the version, with one composite of
conformances for each group that has any. -/
structure Reflected (desc : ProgramDesc) (conformances : ConformanceList) (input : LinkInput B)
    (linked : LinkedKernels B) (composites : List (Option B.Component)) (handle : B.Reflection) :
    Prop where
  reflection : linked.reflection = .create input.versionId desc handle
  combined : List.Forall₂ (fun group =>
    B.Combines input.globalScope (effective conformances group)) desc.groups composites
  parts : B.Reflects (input.globalScope :: input.entryPoints ++ composites.filterMap id) handle

theorem yields_reflected (desc : ProgramDesc) (conformances : ConformanceList)
    (input : LinkInput B) :
    Yields (job desc conformances input) fun linked =>
      ∃ composites handle, Reflected desc conformances input linked composites handle := by
  refine yields_bind (yields_map_list (fun group => yields_composite _ _) _) ?_
  intro composites combined
  apply yields_last
  intro entries
  refine yields_bind (yields_compose_and_reflect _ _) fun handle parts => ?_
  apply yields_last
  intro groups
  apply yields_last
  intro named
  apply yields_noting_bind
  intro program log gives
  exact yields_pure ⟨composites, handle, rfl, combined, parts⟩

end LinkedKernels

end ShaderCache
