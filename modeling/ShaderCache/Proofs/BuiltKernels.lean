import ShaderCache.Proofs.ReflectedContents

/-!
# Kernels and their entry points

A compiler that orders its handles by global index gives every entry point the handle that it
looks up later. So each kernel has its own stage and name, and is built from its own handle and
from the conformances of its own group.
-/

set_option autoImplicit false

namespace ShaderCache

variable {B : Backend}

/-- The compiler orders its handles by global index. Whichever handle it gives is that of the entry
point at the same place, when all that it was told of are put in such an order. -/
def Backend.Orderly (B : Backend)
    (represents : CompileRequest → EntryPointDecl → B.Component → Prop) : Prop :=
  ∀ sent output, B.Accepts sent output → ∃ ordered : List EntryPointDecl,
    ordered.Perm sent.entryPoints ∧
    (ordered.Pairwise fun one other => one.globalIndex ≤ other.globalIndex) ∧
    ∀ (position : Nat) (handle : B.Component), output.entryPoints[position]? = some handle →
      ∃ declared, ordered[position]? = some declared ∧ represents sent declared handle

/-! ## Handles -/

/-- The entry point's own handle, at its global index, and what the version has there. -/
structure OwnHandle (B : Backend) (represents : EntryPointDecl → B.Component → Prop)
    (output : CompiledProgram B.Component) (gathered : List B.Component) (shaderModule : Nat)
    (entry : EntryPoint) (index : UInt32) (handle exported : B.Component) : Prop where
  indexed : entry.globalIndex = some index
  given : output.entryPoints[index.toNat]? = some handle
  own : represents (entry.declaration shaderModule) handle
  exports : B.Exports entry handle exported
  gathered : gathered[index.toNat]? = some exported

/-- The place of an entry point is that of its declaration, since its index tells it apart. -/
theorem ProgramDesc.Positioned.declared_at {desc : ProgramDesc} (positioned : desc.Positioned)
    (fits : desc.entryPointCount ≤ 2 ^ 32) {group : EntryPointGroup} (held : group ∈ desc.groups)
    {entry : EntryPoint} (present : entry ∈ group.entryPoints) :
    ∃ position < 2 ^ 32, desc.entryPoints[position]? = some entry ∧
      desc.declarations[position]? = some (entry.declaration group.shaderModule) := by
  have entryHeld : entry ∈ desc.entryPoints := List.mem_flatMap.mpr ⟨group, held, present⟩
  have declarationHeld : entry.declaration group.shaderModule ∈ desc.declarations :=
    List.mem_flatMap.mpr ⟨group, held, List.mem_map_of_mem present⟩
  obtain ⟨position, entryAt⟩ := List.mem_iff_getElem?.mp entryHeld
  obtain ⟨place, declarationAt⟩ := List.mem_iff_getElem?.mp declarationHeld
  have bound : position < 2 ^ 32 :=
    Nat.lt_of_lt_of_le (List.getElem?_eq_some_iff.mp entryAt).1 fits
  have placeBound : place < 2 ^ 32 :=
    Nat.lt_of_lt_of_le (List.getElem?_eq_some_iff.mp declarationAt).1
      (desc.declarations_length ▸ fits)
  have together : position = place := by
    apply position_of_index bound placeBound
    have index := positioned.declarations_at declarationAt
    rwa [EntryPoint.declaration, positioned position entry entryAt, Option.getD_some] at index
  exact ⟨position, bound, entryAt, together ▸ declarationAt⟩

theorem Backend.Orderly.own_handle
    {represents : CompileRequest → EntryPointDecl → B.Component → Prop}
    (orderly : B.Orderly represents) {desc : ProgramDesc} (positioned : desc.Positioned)
    (fits : desc.entryPointCount ≤ 2 ^ 32) {sent : CompileRequest}
    (told : sent.entryPoints = desc.declarations)
    {output : CompiledProgram B.Component} {compiled : CompiledVersion B}
    (contents : CompiledVersion.Compiled desc sent output compiled) {group : EntryPointGroup}
    (held : group ∈ desc.groups) {entry : EntryPoint} (present : entry ∈ group.entryPoints) :
    ∃ index handle exported, OwnHandle B (represents sent) output compiled.entryPoints
      group.shaderModule entry index handle exported := by
  obtain ⟨ordered, same, increasing, relates⟩ := orderly sent output contents.accepted
  -- The declarations are in order as they are, and no other order is possible.
  have unmoved : ordered = desc.declarations := by
    apply eq_of_ordered (fun _ _ => positioned.declarations_at) _ increasing (told ▸ same)
    rwa [desc.declarations_length]
  obtain ⟨position, bound, entryAt, declarationAt⟩ := positioned.declared_at fits held present
  obtain ⟨handle, exported, given, gathered, exports⟩ :=
    contents.gathered position entry entryAt
  obtain ⟨declared, isDeclared, own⟩ := relates position handle given
  rw [unmoved, declarationAt] at isDeclared
  cases isDeclared
  have value : (UInt32.ofNat position).toNat = position :=
    UInt32.toNat_ofNat'.trans (Nat.mod_eq_of_lt bound)
  exact ⟨UInt32.ofNat position, handle, exported, positioned position entry entryAt,
    by rw [value, given], own, exports, by rw [value, gathered]⟩

/-! ## Kernels -/

/-- The kernel has the stage and the export name of the entry point, and is its own handle under
that name, with the conformances, composed with the global scope. -/
structure BuiltFrom (B : Backend) (represents : EntryPointDecl → B.Component → Prop)
    (output : CompiledProgram B.Component) (shaderModule : Nat) (conformances : ConformanceList)
    (entry : EntryPoint) (kernel : EntryPointKernel B) : Prop where
  stage : kernel.stage = entry.stage
  exportName : kernel.exportName = entry.exportName
  built : ∃ index handle exported specialized,
    entry.globalIndex = some index ∧ output.entryPoints[index.toNat]? = some handle ∧
    represents (entry.declaration shaderModule) handle ∧ B.Exports entry handle exported ∧
    B.Specializes output.globalScope conformances exported specialized ∧
    B.Composes [output.globalScope, specialized] kernel.linked

section Built

variable {represents : EntryPointDecl → B.Component → Prop}
  {output : CompiledProgram B.Component} {input : LinkInput B}

theorem built_of_links (scope : input.globalScope = output.globalScope) {shaderModule : Nat}
    {conformances : ConformanceList} {entry : EntryPoint} {made : SpecializedEntry B}
    {index : UInt32} {handle exported : B.Component}
    (owns : OwnHandle B represents output input.entryPoints shaderModule entry index handle
      exported)
    (links : LinkedKernels.LinksEntry input conformances entry made) :
    BuiltFrom B represents output shaderModule conformances entry made.kernel := by
  obtain ⟨rfl, ⟨found, handled, specializes⟩, linked⟩ := links
  rw [LinkedKernels.handleOf?, owns.indexed, Option.bind_some, owns.gathered] at handled
  cases handled
  rw [scope] at specializes linked
  exact ⟨rfl, rfl, index, handle, exported, _, owns.indexed, owns.given, owns.own, owns.exports,
    specializes, linked⟩

/-- The kernels of the groups, each of which is built from its own entry point. -/
def BuiltGroups (B : Backend) (represents : EntryPointDecl → B.Component → Prop)
    (output : CompiledProgram B.Component) (conformances : ConformanceList)
    (groups : List EntryPointGroup) (kernels : List (List (EntryPointKernel B))) : Prop :=
  List.Forall₂ (fun group made => List.Forall₂ (BuiltFrom B represents output group.shaderModule
    (LinkedKernels.effective conformances group)) group.entryPoints made) groups kernels

theorem built_groups_of_links (scope : input.globalScope = output.globalScope)
    {conformances : ConformanceList} {groups : List EntryPointGroup}
    {entries : List (List (SpecializedEntry B))}
    (owns : ∀ group ∈ groups, ∀ entry ∈ group.entryPoints, ∃ index handle exported,
      OwnHandle B represents output input.entryPoints group.shaderModule entry index handle
        exported)
    (links : LinkedKernels.LinksGroups input conformances groups entries) :
    BuiltGroups B represents output conformances groups
      (entries.map (List.map SpecializedEntry.kernel)) := by
  unfold BuiltGroups
  rw [List.forall₂_map_right_iff]
  apply related_imp links
  intro group held made linked
  rw [List.forall₂_map_right_iff]
  apply related_imp linked
  intro entry present one links
  obtain ⟨index, handle, exported, ownHandle⟩ := owns group held entry present
  exact built_of_links scope ownHandle links

/-- There is one kernel for each entry point, with its stage and its export name. -/
theorem labels_of_links {conformances : ConformanceList} {groups : List EntryPointGroup}
    {entries : List (List (SpecializedEntry B))}
    (links : LinkedKernels.LinksGroups input conformances groups entries) :
    ((entries.map (List.map SpecializedEntry.kernel)).map fun kernels =>
        kernels.map fun kernel => (kernel.stage, kernel.exportName)) =
      groups.map fun group =>
        group.entryPoints.map fun entry => (entry.stage, entry.exportName) := by
  have own := congrArg
    (List.map (List.map fun entry : EntryPoint => (entry.stage, entry.exportName)))
    (LinkedKernels.entries_by_group links)
  simp only [List.map_map, Function.comp_def] at own ⊢
  exact own

/-- The first kernel of a stage is the one of the first entry point of the stage. -/
theorem first_kernel_of_stage {entries : List EntryPoint} {kernels : List (EntryPointKernel B)}
    (staged : List.Forall₂ (fun entry kernel => kernel.stage = entry.stage) entries kernels)
    (stage : ShaderStage) :
    (kernels.find? fun kernel => kernel.stage = stage) =
      ((entries.zip kernels).find? fun pair => pair.1.stage = stage).map Prod.snd := by
  induction staged with
  | nil => rfl
  | @cons entry kernel _ _ same _ ih =>
      rw [List.zip_cons_cons, List.find?_cons, List.find?_cons, same]
      by_cases here : entry.stage = stage
      · simp [here]
      · simpa [here] using ih

theorem staged_of_links {conformances : ConformanceList} {groups : List EntryPointGroup}
    {entries : List (List (SpecializedEntry B))}
    (links : LinkedKernels.LinksGroups input conformances groups entries) :
    List.Forall₂ (fun entry kernel => kernel.stage = entry.stage)
      (groups.flatMap EntryPointGroup.entryPoints)
      (entries.map (List.map SpecializedEntry.kernel)).flatten := by
  rw [← LinkedKernels.entries_of_groups links, ← List.map_flatten, List.forall₂_map_left_iff,
    List.forall₂_map_right_iff]
  exact List.forall₂_same.mpr fun _ _ => rfl

end Built

namespace Archive

/-- Suppose the compiler orders its handles by global index. Whoever is answered with kernels has,
group by group and in the order of the entry points, one kernel for each of them, with its stage and
its export name. If an index tells the entry points apart, each kernel is built from the handle of
its own entry point and from the conformances of its own group. In these the numbers of the group
win over those of the program. The kernel of a stage is that of the first entry point of the
stage. -/
theorem kernels_built_from_own_entry_points (files : FileTree) (managers : List (Manager B))
    (requests : List Request)
    {represents : CompileRequest → EntryPointDecl → B.Component → Prop}
    (orderly : B.Orderly represents) {request : Request} {log : String} {kernels : Kernels B}
    (answered : ((opening files managers).run requests).respond request =
      .kernels log (.ok kernels)) :
    let archive := ((opening files managers).run requests).after request
    let linked := kernels.linked
    ∃ version found sent output,
      version ∈ archive.versions ∧
      archive.world.program? version.program = some found ∧
      linked.versionId = version.id ∧ linked.conformances = found.state.conformances ∧
      sent.entryPoints = found.desc.declarations ∧
      CompiledVersion.Compiled found.desc sent output version.compiled ∧
      (linked.groups.map fun group =>
          group.kernels.map fun kernel => (kernel.stage, kernel.exportName)) =
        (found.desc.groups.map fun group =>
          group.entryPoints.map fun entry => (entry.stage, entry.exportName)) ∧
      (found.desc.entryPointCount ≤ 2 ^ 32 →
        BuiltGroups B (represents sent) output linked.conformances found.desc.groups
          (linked.groups.map GroupKernels.kernels)) ∧
      (∀ (group : EntryPointGroup) conformance,
        (LinkedKernels.effective linked.conformances group).get? conformance =
          (group.conformances.get? conformance).or (linked.conformances.get? conformance)) ∧
      ∀ stage, linked.kernel? stage =
        ((found.desc.entryPoints.zip (linked.groups.flatMap GroupKernels.kernels)).find?
          fun pair => pair.1.stage = stage).map Prod.snd := by
  intro archive linked
  have soundStart : (opening files managers).Sound := sound_opening files managers
  have kept := (kept_opening files managers).run soundStart requests
  have whole : ((opening files managers).run requests).after request =
      (opening files managers).run (requests ++ [request]) :=
    (run_append _ requests [request]).symm
  obtain ⟨version, found, entries, named, held, present, versionId, conformances, assembles⟩ :=
    kept.answered_assembles (soundStart.run requests) answered
  have positioned : found.desc.Positioned := by
    apply positioned_reached files managers (requests ++ [request]) version.program
    rw [← whole]
    exact present
  obtain ⟨context, defines, compiling, compiled⟩ :=
    compiled_of_held files managers (whole ▸ held) (whole ▸ present)
  obtain ⟨sent, requested, output, contents⟩ :=
    compile_outcome_yields (CompiledVersion.yields_job found.desc) compiled
  have told : sent.entryPoints = found.desc.declarations := positioned.declared requested
  have kernelsOf : linked.groups.map GroupKernels.kernels =
      entries.map (List.map SpecializedEntry.kernel) := assembles.kernels
  refine ⟨version, found, sent, output, held, present, versionId, conformances, told, contents,
    ?_, ?_, ?_, ?_⟩
  · have labels := labels_of_links assembles.groups
    rwa [← kernelsOf, List.map_map] at labels
  · intro fits
    rw [kernelsOf]
    apply built_groups_of_links contents.scope _ assembles.groups
    intro group groupHeld entry entryPresent
    exact orderly.own_handle positioned fits told contents groupHeld entryPresent
  · intro group conformance
    exact SortedMap.get_insert_all linked.conformances group.conformances conformance
  · intro stage
    have first := first_kernel_of_stage (staged_of_links assembles.groups) stage
    rw [← kernelsOf, ← List.flatMap_def, List.find?_flatMap] at first
    rw [LinkedKernels.kernel?]
    exact first

end Archive

/-- The scripted compiler sorts. A script may keep it from giving all handles. -/
theorem Scripted.backend_orderly : Scripted.backend.Orderly fun _ declared handle =>
    handle = Scripted.Component.entryPoint declared.name declared.name declared.stage := by
  intro sent output accepts
  obtain ⟨_, most, _, handles⟩ := Scripted.accepted_eq accepts
  let before (one other : EntryPointDecl) : Bool := one.globalIndex ≤ other.globalIndex
  have transitive : ∀ one other another, before one other → before other another →
      before one another := by
    intro one other another first second
    simp only [before, decide_eq_true_eq] at first second ⊢
    exact UInt32.le_trans first second
  have total : ∀ one other, before one other || before other one := by
    intro one other
    simp only [before, Bool.or_eq_true, decide_eq_true_eq]
    exact UInt32.le_total _ _
  have sorted := List.pairwise_mergeSort transitive total sent.entryPoints
  refine ⟨sent.entryPoints.mergeSort before, List.mergeSort_perm _ _,
    sorted.imp of_decide_eq_true, ?_⟩
  intro position handle given
  rw [handles] at given
  have isDeclared := (Scripted.handle_at given).1
  rw [Scripted.declared, List.getElem?_map] at isDeclared
  obtain ⟨declared, isAt, isHandle⟩ := Option.map_eq_some_iff.mp isDeclared
  exact ⟨declared, isAt, isHandle.symm⟩

namespace Archive

/-- Two groups with a stage in common. The first one gives its conformance another number than the
program does, the second one has none of its own. -/
theorem kernels_built_from_two_groups :
    let service : Scripted.State :=
      { script := { types := ["Lambert", "IMaterial", "Area", "ILight"] } }
    let manager : Manager Scripted.backend := { device := { type := .vulkan }, service := service }
    let desc : ProgramDesc := {
      modules := [{}]
      conformances := .ofTriples [("Lambert", "IMaterial", 1)]
      groups := [⟨0, .ofTriples [("Lambert", "IMaterial", 7), ("Area", "ILight", 3)],
          [⟨.compute, "trace", "first", none⟩]⟩,
        ⟨0, ∅, [⟨.compute, "shade", "shade", none⟩, ⟨.compute, "blur", "last", none⟩]⟩] }
    let archive := (opening {} [manager]).run [.operate (.newProgram 0 desc ∅)]
    let request : Request := .operate (.activeKernels 0)
    ∃ kernels, archive.respond request = .kernels "" (.ok kernels) ∧
      kernels.linked.groups.map (fun group => group.kernels.map fun kernel =>
        Scripted.Component.render kernel.linked) =
        [["[G1, [E(trace>first@compute), [C(Area:ILight#3), C(Lambert:IMaterial#7)]]]"],
          ["[G1, [E(shade>shade@compute), [C(Lambert:IMaterial#1)]]]",
            "[G1, [E(blur>last@compute), [C(Lambert:IMaterial#1)]]]"]] ∧
      ∃ version found, ∃ sent : CompileRequest, ∃ output,
        version ∈ (archive.after request).versions ∧
        (archive.after request).world.program? version.program = some found ∧
        found.desc.entryPointCount ≤ 2 ^ 32 ∧ sent.entryPoints = found.desc.declarations ∧
        BuiltGroups Scripted.backend
          (fun declared handle => handle =
            Scripted.Component.entryPoint declared.name declared.name declared.stage)
          output found.state.conformances found.desc.groups
          (kernels.linked.groups.map GroupKernels.kernels) := by
  intro service manager desc archive request
  have links : (archive.world.activeKernels 0).map (fun answer => answer.1.toOption.map
      fun kernels => kernels.linked.groups.map fun group => group.kernels.map fun kernel =>
        Scripted.Component.render kernel.linked) =
      some (some
        [["[G1, [E(trace>first@compute), [C(Area:ILight#3), C(Lambert:IMaterial#7)]]]"],
          ["[G1, [E(shade>shade@compute), [C(Lambert:IMaterial#1)]]]",
            "[G1, [E(blur>last@compute), [C(Lambert:IMaterial#1)]]]"]]) := by
    -- Sorting does not reduce, so a decision procedure would not get past the compilation.
    cbv
  obtain ⟨kernels, answered, rendered⟩ := answered_active links
  obtain ⟨version, found, sent, output, held, present, _, conformances, told, _, labels, built,
      _⟩ :=
    kernels_built_from_own_entry_points {} [manager] _ Scripted.backend_orderly answered
  have count : found.desc.entryPointCount = 3 := by
    have sizes := congrArg (fun lists => lists.flatten.length) labels
    have shown := congrArg (fun lists => lists.flatten.length) rendered
    simp [List.length_flatten, Function.comp_def] at sizes shown
    simp [ProgramDesc.entryPointCount, ProgramDesc.entryPoints, List.length_flatMap, ← sizes, shown]
  have fits : found.desc.entryPointCount ≤ 2 ^ 32 := by
    rw [count]
    decide
  exact ⟨kernels, answered, rendered, version, found, sent, output, held, present, fits, told,
    conformances ▸ built fits⟩

end Archive

end ShaderCache
