import Mathlib
import ShaderCache.Proofs.Reflections
import ShaderCache.Scripted.Backend

/-!
# What the scripted backend reflects

The scripted backend puts components together as it is told, so that a reflection can be counted
out. That of a version has its global scope once and its entry points in order. That of kernels
has the same and the conformances of all groups, however often these were composed and linked.
-/

set_option autoImplicit false

namespace ShaderCache.Scripted

/-! ## Answers -/

theorem composed_eq {parts : List Component} {whole : Component}
    (composes : backend.Composes parts whole) : whole = .composite parts := by
  obtain ⟨log, state, gives⟩ := composes
  change (compose parts state).1 = _ at gives
  unfold compose at gives
  split at gives
  simp only at gives
  split at gives
  next => cases gives
  next =>
    cases gives
    rfl

theorem reflected_eq {parts : List Component} {handle : Reflection}
    (reflects : backend.Reflects parts handle) : handle = Component.reflectionAll parts := by
  obtain ⟨whole, composes, state, gives⟩ := reflects
  cases composed_eq composes
  change (reflect (.composite parts) state).1 = _ at gives
  unfold reflect at gives
  split at gives
  simp only at gives
  split at gives
  next => cases gives
  next =>
    cases gives
    rfl

theorem found_eq {scope : Component} {name type : String}
    (gives : Gives (backend.findType scope name) (some type)) : type = name := by
  obtain ⟨state, gives⟩ := gives
  change (findType scope name state).1 = _ at gives
  unfold findType at gives
  simp only at gives
  split at gives
  next =>
    cases gives
    rfl
  next => cases gives

theorem conformed_eq {scope part : Component} {entry : Conformance × UInt32}
    (conforms : backend.Conforms scope entry part) :
    part = .conformance entry.1.typeName entry.1.interfaceName entry.2 := by
  obtain ⟨type, interface, log, givesType, givesInterface, state, gives⟩ := conforms
  cases found_eq givesType
  cases found_eq givesInterface
  change (conform _ _ entry.2 state).1 = _ at gives
  unfold conform at gives
  split at gives
  next => cases gives
  next =>
    cases gives
    rfl

theorem exported_eq {entry : EntryPoint} {name : String} {stage : ShaderStage}
    {exported : Component}
    (exports : backend.Exports entry (.entryPoint name name stage) exported) :
    ∃ exportName, exported = .entryPoint name exportName stage ∧
      (name = entry.name → exportName = entry.exportName) := by
  unfold Backend.Exports at exports
  split at exports
  next same => exact ⟨name, exports, fun own => own.trans same.symm⟩
  next =>
    obtain ⟨state, gives⟩ := exports
    change (rename _ _ state).1 = _ at gives
    unfold rename at gives
    simp only at gives
    split at gives
    next => cases gives
    next =>
      cases gives
      exact ⟨entry.exportName, rfl, fun _ => rfl⟩

/-- The handles of a compiled program are those of the declared entry points, or the first ones. -/
theorem accepted_eq {sent : CompileRequest} {output : CompiledProgram Component}
    (accepts : backend.Accepts sent output) :
    ∃ ordinal most, output.globalScope = .globalScope ordinal ∧
      output.entryPoints = (declared sent).take most := by
  obtain ⟨diagnostics, state, gives⟩ := accepts
  change (compile sent state).1 = _ at gives
  unfold compile at gives
  simp only at gives
  split at gives
  next => cases gives
  next =>
    cases gives
    refine ⟨_, state.script.maxEntryPoints.getD (declared sent).length, rfl, ?_⟩
    cases state.script.maxEntryPoints with
    | none => exact List.take_length.symm
    | some most => rfl

/-! ## Counting components -/

namespace Component

theorem reflection_all_append (first rest : List Component) :
    reflectionAll (first ++ rest) = (reflectionAll first).append (reflectionAll rest) := by
  induction first with
  | nil => simp [reflectionAll, Reflection.append]
  | cons part others ih =>
      simp [reflectionAll, ih, Reflection.append, Nat.add_assoc]

/-- The components are entry points, exported under the names. -/
def ExportedAs (names : List String) (components : List Component) : Prop :=
  List.Forall₂ (fun name component => ∃ own stage, component = .entryPoint own name stage)
    names components

theorem reflection_of_exported {names : List String} {components : List Component}
    (exported : ExportedAs names components) :
    reflectionAll components = { entryPoints := names } := by
  induction exported with
  | nil => rfl
  | cons here _ ih =>
      obtain ⟨own, stage, rfl⟩ := here
      simp [reflectionAll, reflection, ih, Reflection.append]

theorem reflection_of_scoped (ordinal : Nat) {names : List String} {components : List Component}
    (exported : ExportedAs names components) :
    reflectionAll (.globalScope ordinal :: components) = ⟨1, names, []⟩ := by
  simp [reflectionAll, reflection, reflection_of_exported exported, Reflection.append]

end Component

open Component (reflectionAll ExportedAs)

/-- A conformance as reflection tells it. -/
def triple (entry : Conformance × UInt32) : String × String × UInt32 :=
  (entry.1.typeName, entry.1.interfaceName, entry.2)

theorem reflection_of_conforming {scope : Component} {entries : List (Conformance × UInt32)}
    {parts : List Component} (conform : List.Forall₂ (backend.Conforms scope) entries parts) :
    reflectionAll parts = { conformances := entries.map triple } := by
  induction conform with
  | nil => rfl
  | cons here _ ih =>
      cases conformed_eq here
      simp [reflectionAll, Component.reflection, ih, Reflection.append, triple]

/-- Each group is counted with its own composite, if it has one. -/
theorem reflection_of_combined {scope : Component} {conformances : ConformanceList}
    {groups : List EntryPointGroup} {composites : List (Option Component)}
    (combined : List.Forall₂ (fun group => backend.Combines scope
      (LinkedKernels.effective conformances group)) groups composites) :
    reflectionAll (composites.filterMap id) =
      { conformances := groups.flatMap fun group =>
          (LinkedKernels.effective conformances group).entries.map triple } := by
  induction combined with
  | nil => rfl
  | @cons group composite _ others here _ ih =>
      rw [List.flatMap_cons]
      cases composite with
      | none =>
          have empty : (LinkedKernels.effective conformances group).entries = [] := here
          rw [empty]
          exact ih
      | some whole =>
          obtain ⟨_, parts, conform, composes⟩ := here
          cases composed_eq composes
          have own : Component.reflection (.composite parts) = { conformances :=
              (LinkedKernels.effective conformances group).entries.map triple } :=
            reflection_of_conforming conform
          change (Component.reflection (.composite parts)).append
            (reflectionAll (others.filterMap id)) = _
          rw [own, ih]
          simp [Reflection.append]

/-! ## Names of entry points -/

/-- The names under which reflection finds the entry points of a program: as many as there are, and
their export names in order as long as an index can tell all of their positions apart. -/
structure NamesEntries (desc : ProgramDesc) (names : List String) : Prop where
  length : names.length = desc.entryPointCount
  inOrder : desc.entryPointCount ≤ 2 ^ 32 →
    names = desc.entryPoints.map EntryPoint.exportName

theorem handle_at {sent : CompileRequest} {most position : Nat} {handle : Component}
    (given : ((declared sent).take most)[position]? = some handle) :
    (declared sent)[position]? = some handle ∧
      ∃ name stage, handle = .entryPoint name name stage := by
  rw [List.getElem?_take] at given
  split at given
  next =>
    refine ⟨given, ?_⟩
    obtain ⟨one, _, isHandle⟩ := List.mem_map.mp (List.mem_of_getElem? given)
    exact ⟨one.name, one.stage, isHandle.symm⟩
  next => simp at given

section Names

variable {desc : ProgramDesc}

/-- Sorting by the indices changes nothing, since entry points are declared in that order. -/
theorem declared_eq (positioned : desc.Positioned) (fits : desc.entryPointCount ≤ 2 ^ 32)
    {sent : CompileRequest} (own : sent.entryPoints = desc.declarations) :
    declared sent = desc.entryPoints.map fun entry =>
      .entryPoint entry.name entry.name entry.stage := by
  have ascending := ascending_of_fitting (fun _ _ => positioned.declarations_at)
    (desc.declarations_length ▸ fits)
  have sorted : desc.declarations.Pairwise fun earlier later =>
      decide (earlier.globalIndex ≤ later.globalIndex) = true :=
    ascending.imp fun below => decide_eq_true (UInt32.le_of_lt below)
  unfold declared
  rw [own, List.mergeSort_of_pairwise sorted]
  exact desc.declarations_map fun _ _ => rfl

/-- An entry point of a version is one for reflection, and under its own export name if the handles
are in order. -/
def EntryFor (desc : ProgramDesc) (entry : EntryPoint) (component : Component) : Prop :=
  ∃ own exportName stage, component = .entryPoint own exportName stage ∧
    (desc.entryPointCount ≤ 2 ^ 32 → exportName = entry.exportName)

theorem entries_of_compiled (positioned : desc.Positioned) {sent : CompileRequest}
    (own : sent.entryPoints = desc.declarations) {output : CompiledProgram Component}
    {compiled : CompiledVersion backend}
    (contents : CompiledVersion.Compiled desc sent output compiled)
    (whole : compiled.entryPoints.length = desc.entryPoints.length) :
    List.Forall₂ (EntryFor desc) desc.entryPoints compiled.entryPoints := by
  obtain ⟨ordinal, most, _, handles⟩ := accepted_eq contents.accepted
  apply contents.gathered.related whole
  intro position entry handle exported isAt given exports
  rw [handles] at given
  obtain ⟨isDeclared, name, stage, rfl⟩ := handle_at given
  obtain ⟨exportName, isExported, named⟩ := exported_eq exports
  refine ⟨name, exportName, stage, isExported, fun fits => named ?_⟩
  rw [declared_eq positioned fits own, List.getElem?_map, isAt, Option.map_some] at isDeclared
  cases isDeclared
  rfl

theorem names_of_entries {entries : List EntryPoint} {components : List Component}
    (related : List.Forall₂ (EntryFor desc) entries components) :
    ∃ names, ExportedAs names components ∧ names.length = entries.length ∧
      (desc.entryPointCount ≤ 2 ^ 32 → names = entries.map EntryPoint.exportName) := by
  induction related with
  | nil => exact ⟨[], .nil, rfl, fun _ => rfl⟩
  | cons here _ ih =>
      obtain ⟨own, exportName, stage, isEntry, named⟩ := here
      obtain ⟨names, exported, length, inOrder⟩ := ih
      refine ⟨exportName :: names, .cons ⟨own, stage, isEntry⟩ exported, by simp [length], ?_⟩
      intro fits
      rw [named fits, inOrder fits, List.map_cons]

end Names

/-! ## Versions and kernels -/

/-- The reflection of a version has its global scope and its entry points, each once. -/
structure ReflectsVersion (desc : ProgramDesc) (names : List String)
    (compiled : CompiledVersion backend) : Prop where
  layout : LaysOut desc compiled.reflection.groups
  named : NamesEntries desc names
  handle : (compiled.reflection.handle : Reflection) = ⟨1, names, []⟩

/-- The reflection of kernels has what that of the version has, and for each group the conformances
that are in effect for it. -/
structure ReflectsKernels (desc : ProgramDesc) (names : List String)
    (linked : LinkedKernels backend) : Prop where
  layout : LaysOut desc linked.reflection.groups
  handle : (linked.reflection.handle : Reflection) =
    ⟨1, names, desc.groups.flatMap fun group =>
      (LinkedKernels.effective linked.conformances group).entries.map triple⟩

section Reflected

variable {desc : ProgramDesc} {names : List String}

/-- The parts of a version that are reflected. -/
structure PartsOf (names : List String) (compiled : CompiledVersion backend) : Prop where
  scope : ∃ ordinal, (compiled.globalScope : Component) = .globalScope ordinal
  exported : ExportedAs names compiled.entryPoints

theorem PartsOf.reflection {compiled : CompiledVersion backend} (parts : PartsOf names compiled) :
    reflectionAll (compiled.globalScope :: compiled.entryPoints) = ⟨1, names, []⟩ := by
  obtain ⟨⟨ordinal, scope⟩, exported⟩ := parts
  rw [scope]
  exact Component.reflection_of_scoped ordinal exported

theorem reflects_version (positioned : desc.Positioned) {context : CompileContext}
    {description : String} {defines : DefineList} {work : Work State}
    {compiled : CompiledVersion backend}
    (makes : compileOutcome context desc description defines work = .ok compiled) :
    ∃ names, PartsOf names compiled ∧ ReflectsVersion desc names compiled := by
  obtain ⟨sent, requested, output, contents⟩ :=
    compile_outcome_yields (CompiledVersion.yields_job desc) makes
  obtain ⟨_, _, handle, reflection, reflects⟩ :=
    compile_outcome_yields (CompiledVersion.yields_reflected desc) makes
  obtain ⟨ordinal, _, scope, _⟩ := accepted_eq contents.accepted
  have entries := entries_of_compiled positioned (positioned.declared requested) contents
    (compile_outcome_entries makes)
  obtain ⟨names, exported, length, inOrder⟩ := names_of_entries entries
  have parts : PartsOf names compiled := ⟨⟨ordinal, contents.scope.trans scope⟩, exported⟩
  refine ⟨names, parts, ?_, ⟨length, inOrder⟩, ?_⟩
  · rw [reflection]
    exact positioned.lays_out
  · rw [reflection]
    exact (reflected_eq reflects).trans parts.reflection

theorem reflects_kernels (positioned : desc.Positioned) {version : Version backend}
    (parts : PartsOf names version.compiled) {description : String}
    {conformances : ConformanceList} {work : Work State} {linked : LinkedKernels backend}
    (makes : linkOutcome desc description conformances version.linkInput work = .ok linked) :
    ReflectsKernels desc names linked := by
  obtain ⟨composites, handle, reflection, combined, reflects⟩ :=
    link_outcome_yields (LinkedKernels.yields_reflected desc conformances version.linkInput) makes
  obtain ⟨_, sameConformances⟩ := link_outcome_labels makes
  refine ⟨?_, ?_⟩
  · rw [reflection]
    exact positioned.lays_out
  · rw [reflection, sameConformances]
    apply (reflected_eq reflects).trans
    -- The composites follow the parts of the version, which are counted as for the version alone.
    have split := Component.reflection_all_append
      (version.compiled.globalScope :: version.compiled.entryPoints) (composites.filterMap id)
    apply split.trans
    rw [parts.reflection, reflection_of_combined combined]
    simp [Reflection.append]

end Reflected

end ShaderCache.Scripted

namespace ShaderCache.Archive

open Scripted (ReflectsVersion ReflectsKernels)

/-- With the scripted backend, every version that a run made was reflected as its global scope and
the entry points of its program at that moment. Whoever is answered with kernels: the version that
they were linked from was so reflected, and they are with the conformances of all groups added, in
which the numbers of a group win over those of the program. -/
theorem reflections_cover_once (files : FileTree) (managers : List (Manager Scripted.backend))
    (requests : List Request) :
    let start := opening files managers
    (∀ version ∈ (start.run requests).versions, ∃ earlier request later found names,
      requests = earlier ++ request :: later ∧
      (start.run earlier).world.made? request = some version ∧
      (start.run earlier).world.program? version.program = some found ∧
      ReflectsVersion found.desc names version.compiled) ∧
    ∀ request log (kernels : Kernels Scripted.backend),
      (start.run requests).respond request = .kernels log (.ok kernels) →
      ∃ version found names, version ∈ ((start.run requests).after request).versions ∧
        ((start.run requests).after request).world.program? version.program = some found ∧
        kernels.linked.conformances = found.state.conformances ∧
        ReflectsVersion found.desc names version.compiled ∧
        ReflectsKernels found.desc names kernels.linked ∧
        ∀ (group : EntryPointGroup) conformance,
          (LinkedKernels.effective kernels.linked.conformances group).get? conformance =
            (group.conformances.get? conformance).or
              (kernels.linked.conformances.get? conformance) := by
  intro start
  constructor
  · intro version held
    rcases made_in_run held with before | ⟨earlier, request, later, rfl, made⟩
    · simp [start, opening] at before
    · have sound := sound_reached files managers earlier
      obtain ⟨_, compiler, found, log, _, _, compiled⟩ := (sound.world.originates made).compiled
      have positioned := positioned_reached files managers earlier _ _ compiled.present
      obtain ⟨names, _, reflects⟩ := Scripted.reflects_version positioned compiled.compiled
      exact ⟨earlier, request, later, found, names, rfl, made, compiled.present, reflects⟩
  · intro request log kernels answered
    have soundStart : start.Sound := sound_opening files managers
    have kept := (kept_opening files managers).run soundStart requests
    have whole : (start.run requests).after request = start.run (requests ++ [request]) :=
      (run_append _ requests [request]).symm
    obtain ⟨version, found, held, present, work, links⟩ :=
      kept.answered_links (soundStart.run requests) answered
    have positioned := positioned_reached files managers (requests ++ [request]) version.program
      found (whole ▸ present)
    obtain ⟨context, defines, compiling, compiled⟩ :=
      compiled_of_held files managers (whole ▸ held) (whole ▸ present)
    obtain ⟨names, parts, reflects⟩ := Scripted.reflects_version positioned compiled
    refine ⟨version, found, names, held, present, (link_outcome_labels links).2, reflects,
      Scripted.reflects_kernels positioned parts links, ?_⟩
    exact fun group => SortedMap.get_insert_all kernels.linked.conformances group.conformances

/-- Two groups with the same conformance, to which the second one gives another number. -/
theorem reflections_of_two_groups :
    let service : Scripted.State := { script := { types := ["Lambert", "IMaterial"] } }
    let manager : Manager Scripted.backend := { device := { type := .vulkan }, service := service }
    let desc : ProgramDesc := {
      modules := [{}]
      conformances := .ofTriples [("Lambert", "IMaterial", 1)]
      groups := [⟨0, ∅, [⟨.vertex, "place", "place", none⟩, ⟨.pixel, "shade", "main", none⟩]⟩,
        ⟨0, .ofTriples [("Lambert", "IMaterial", 7)], [⟨.compute, "trace", "trace", none⟩]⟩] }
    let names := ["place", "main", "trace"]
    let archive := (opening {} [manager]).run [.operate (.newProgram 0 desc ∅)]
    let request : Request := .operate (.activeKernels 0)
    ∃ kernels, archive.respond request = .kernels "" (.ok kernels) ∧
      (kernels.linked.reflection.handle : Scripted.Reflection) =
        ⟨1, names, [("Lambert", "IMaterial", 1), ("Lambert", "IMaterial", 7)]⟩ ∧
      ∃ version found, version ∈ (archive.after request).versions ∧
        (archive.after request).world.program? version.program = some found ∧
        ReflectsVersion found.desc names version.compiled ∧
        ReflectsKernels found.desc names kernels.linked := by
  intro service manager desc names archive request
  have links : (archive.world.activeKernels 0).map (fun answer => answer.1.toOption.map
      fun kernels => (kernels.linked.reflection.handle : Scripted.Reflection)) =
      some (some ⟨1, names, [("Lambert", "IMaterial", 1), ("Lambert", "IMaterial", 7)]⟩) := by
    -- Sorting does not reduce, so a decision procedure would not get past the compilation.
    cbv
  obtain ⟨kernels, answered, handle⟩ := answered_active links
  obtain ⟨version, found, given, held, present, _, reflects, covers, _⟩ :=
    (reflections_cover_once {} [manager] _).2 request "" kernels answered
  have same : given = names :=
    congrArg Scripted.Reflection.entryPoints (covers.handle.symm.trans handle)
  cases same
  exact ⟨kernels, answered, handle, version, found, held, present, reflects, covers⟩

end ShaderCache.Archive
