import ShaderCache.Dispatch
import ShaderCache.Proofs.DeviceEntries

/-!
# Pipelines of groups

A group is dispatched by its kind, and the dispatcher gets all kernels. One that looks for the
compute kernel among them finds the one of the first compute group, whichever group was asked for.
-/

set_option autoImplicit false

namespace ShaderCache

variable {B : Backend}

/-! ## Kinds of groups -/

theorem EntryPointGroup.kind_ok {group : EntryPointGroup} {position : Nat} {kind : PipelineKind}
    (known : group.kind position = .ok kind) :
    group.entryPoints ≠ [] ∧
      ∀ entry ∈ group.entryPoints, PipelineKind.ofStage entry.stage = kind := by
  unfold EntryPointGroup.kind at known
  cases entries : group.entryPoints with
  | nil => simp [entries] at known
  | cons first rest =>
      simp only [entries] at known
      split at known
      next => simp at known
      next unmixed =>
        cases known
        refine ⟨List.cons_ne_nil _ _, fun entry present => ?_⟩
        by_contra mixed
        exact unmixed (List.any_eq_true.mpr ⟨entry, present, decide_eq_true mixed⟩)

theorem PipelineKind.of_stage_compute_iff {stage : ShaderStage} :
    PipelineKind.ofStage stage = .compute ↔ stage = .compute := by
  cases stage <;> decide

namespace GroupKernels

/-- The group has kernels, and all of them are for stages of its kind. -/
structure Uniform (group : GroupKernels B) : Prop where
  nonempty : group.kernels ≠ []
  stages : ∀ kernel ∈ group.kernels, PipelineKind.ofStage kernel.stage = group.kind

namespace Uniform

variable {group : GroupKernels B} (uniform : group.Uniform)

include uniform

/-- A compute group has its first kernel, after which it is named, as the compute kernel. -/
theorem compute_kernel (isCompute : group.kind = .compute) :
    ∃ kernel, group.kernel? .compute = some kernel ∧ kernel.exportName = group.exportName := by
  cases listed : group.kernels with
  | nil => exact absurd listed uniform.nonempty
  | cons first rest =>
      have kind := uniform.stages first (by simp [listed])
      have stage := PipelineKind.of_stage_compute_iff.mp (kind.trans isCompute)
      exact ⟨first, by simp [kernel?, listed, stage], by simp [exportName, listed]⟩

theorem no_compute_kernel (other : group.kind ≠ .compute) : group.kernel? .compute = none := by
  refine List.find?_eq_none.mpr fun kernel present => ?_
  have kind := uniform.stages kernel present
  simpa using fun stage => other (kind.symm.trans (PipelineKind.of_stage_compute_iff.mpr stage))

end Uniform

end GroupKernels

namespace LinkedKernels

open Job

/-- Groups of which one is empty or mixes kinds are not linked. -/
theorem yields_uniform_groups (position : Nat) {groups : List EntryPointGroup}
    {entries : List (List (SpecializedEntry B))}
    (own : List.Forall₂ (fun group made => made.map SpecializedEntry.entry = group.entryPoints)
      groups entries) :
    Yields (allGroupKernels position groups entries.flatten) fun kernels =>
      ∀ group ∈ kernels, group.Uniform := by
  induction own generalizing position with
  | nil => exact yields_pure (by simp)
  | @cons group made _ others same _ ih =>
      have first : Yields (groupKernels position group (made ++ others.flatten))
          GroupKernels.Uniform := by
        unfold groupKernels
        rw [kernels_of_own same]
        split
        next kind known =>
          obtain ⟨nonempty, kinds⟩ := EntryPointGroup.kind_ok known
          rw [← same] at nonempty kinds
          refine yields_pure ⟨?_, ?_⟩
          · simpa using nonempty
          · intro kernel present
            obtain ⟨entry, isEntry, rfl⟩ := List.mem_map.mp present
            exact kinds entry.entry (List.mem_map_of_mem isEntry)
        next => exact yields_fail_with
      rw [List.flatten_cons]
      refine yields_bind first fun kernels uniform => ?_
      rw [left_after_own same]
      exact yields_bind (ih (position + 1)) fun others rest =>
        yields_pure (List.forall_mem_cons.mpr ⟨uniform, rest⟩)

theorem yields_uniform (desc : ProgramDesc) (conformances : ConformanceList)
    (input : LinkInput B) :
    Yields (job desc conformances input) fun linked => ∀ group ∈ linked.groups, group.Uniform := by
  refine yields_bind (yields_map_list (fun group => yields_composite _ _) _) ?_
  intro composites combined
  refine yields_bind (yields_specialize_groups combined) ?_
  rintro _ ⟨entries, rfl, links⟩
  apply yields_last
  intro handle
  refine yields_bind (yields_uniform_groups 0 (links.imp fun _ _ => entries_of_links)) ?_
  intro groups uniform
  apply yields_last
  intro named
  apply yields_noting_bind
  intro program log gives
  exact yields_pure uniform

/-- The compute kernel of all groups is that of the first compute group. -/
theorem kernel_of_first_compute {linked : LinkedKernels B}
    (uniform : ∀ group ∈ linked.groups, group.Uniform) :
    linked.kernel? .compute =
      (linked.groups.find? fun group => group.kind = .compute).bind fun group =>
        group.kernel? .compute := by
  unfold LinkedKernels.kernel?
  generalize linked.groups = groups at uniform
  induction groups with
  | nil => rfl
  | cons group rest ih =>
      obtain ⟨here, others⟩ := List.forall_mem_cons.mp uniform
      rw [List.findSome?_cons, List.find?_cons]
      by_cases isCompute : group.kind = .compute
      · obtain ⟨kernel, first, _⟩ := here.compute_kernel isCompute
        simp [isCompute, first]
      · simp [isCompute, here.no_compute_kernel isCompute, ih others]

end LinkedKernels

/-! ## Dispatching -/

/-- The dispatcher makes its compute pipelines of the compute kernel that it finds, if there is
one. -/
def Dispatcher.MakesFound (dispatcher : Dispatcher B)
    (pipelineOf : EntryPointKernel B → dispatcher.Pipeline) : Prop :=
  ∀ (kernels : LinkedKernels B) state, (dispatcher.compute kernels state).1 =
    match kernels.kernel? .compute with
    | some kernel => .ok (pipelineOf kernel)
    | none => .error (.incompatibleKernels .compute)

namespace CountingDispatcher

variable {dispatcher : Dispatcher B}

theorem dispatch_group_compute {linked : LinkedKernels B} {position : Nat}
    {group : GroupKernels B} (isAt : linked.groups[position]? = some group)
    (isCompute : group.kind = .compute) (counting : CountingDispatcher dispatcher) :
    counting.dispatchGroup linked position =
      ((dispatcher.compute linked counting.state).1.map some,
        ⟨(dispatcher.compute linked counting.state).2, counting.creationCount + 1⟩) := by
  simp only [dispatchGroup, isAt, isCompute]
  rfl

end CountingDispatcher

namespace Archive

/-- Whoever is answered with kernels and dispatches one of their compute groups: the pipeline is
made of the compute kernel of the first compute group, after which it is named. It is the pipeline
of the group's own kernel exactly if no difference between the two kernels shows in a pipeline, as
when no compute group stands before this one. -/
theorem dispatch_group_first_compute (files : FileTree) (managers : List (Manager B))
    (requests : List Request) {request : Request} {log : String} {kernels : Kernels B}
    (answered : ((opening files managers).run requests).respond request =
      .kernels log (.ok kernels))
    {dispatcher : Dispatcher B} {pipelineOf : EntryPointKernel B → dispatcher.Pipeline}
    (makes : dispatcher.MakesFound pipelineOf) (counting : CountingDispatcher dispatcher)
    {position : Nat} {group : GroupKernels B}
    (isAt : kernels.linked.groups[position]? = some group) (isCompute : group.kind = .compute) :
    let linked := kernels.linked
    let dispatched := counting.dispatchGroup linked position
    ∃ first chosen own,
      (linked.groups.find? fun other => other.kind = .compute) = some first ∧
      first.kernel? .compute = some chosen ∧ chosen.exportName = first.exportName ∧
      group.kernel? .compute = some own ∧ own.exportName = group.exportName ∧
      dispatched.1 = .ok (some (pipelineOf chosen)) ∧
      dispatched.2.creationCount = counting.creationCount + 1 ∧
      (dispatched.1 = .ok (some (pipelineOf own)) ↔ pipelineOf chosen = pipelineOf own) ∧
      ((∀ (earlier : Nat) (other : GroupKernels B), earlier < position →
        linked.groups[earlier]? = some other → other.kind ≠ .compute) → chosen = own) := by
  intro linked dispatched
  have soundStart : (opening files managers).Sound := sound_opening files managers
  have kept := (kept_opening files managers).run soundStart requests
  obtain ⟨version, found, _, _, work, links⟩ :=
    kept.answered_links (soundStart.run requests) answered
  have uniform : ∀ other ∈ linked.groups, other.Uniform :=
    link_outcome_yields (LinkedKernels.yields_uniform _ _ version.linkInput) links
  have held : group ∈ linked.groups := List.mem_of_getElem? isAt
  obtain ⟨own, ownKernel, ownName⟩ := (uniform group held).compute_kernel isCompute
  have isSome : (linked.groups.find? fun other => other.kind = .compute).isSome := by
    rw [List.find?_isSome]
    exact ⟨group, held, by simpa using isCompute⟩
  obtain ⟨first, isFirst⟩ := Option.isSome_iff_exists.mp isSome
  have firstCompute : first.kind = .compute := by simpa using List.find?_some isFirst
  obtain ⟨chosen, chosenKernel, chosenName⟩ :=
    (uniform first (List.mem_of_find?_eq_some isFirst)).compute_kernel firstCompute
  have lookup : linked.kernel? .compute = some chosen := by
    rw [LinkedKernels.kernel_of_first_compute uniform, isFirst]
    exact chosenKernel
  have step := CountingDispatcher.dispatch_group_compute isAt isCompute counting
  have made : dispatched.1 = .ok (some (pipelineOf chosen)) := by
    change (counting.dispatchGroup linked position).1 = _
    rw [step, makes, lookup]
    rfl
  refine ⟨first, chosen, own, isFirst, chosenKernel, chosenName, ownKernel, ownName, made, ?_, ?_,
    ?_⟩
  · exact congrArg (fun pair => pair.2.creationCount) step
  · simp [made]
  · intro before
    have same : (linked.groups.find? fun other => other.kind = .compute) = some group := by
      obtain ⟨bound, isGroup⟩ := List.getElem?_eq_some_iff.mp isAt
      refine List.find?_eq_some_iff_getElem.mpr ⟨by simpa using isCompute, position, bound,
        isGroup, fun earlier below => ?_⟩
      simpa using before earlier _ below (List.getElem?_eq_getElem (Nat.lt_trans below bound))
    cases isFirst.symm.trans same
    exact Option.some.inj (chosenKernel.symm.trans ownKernel)

end Archive

/-- A pipeline is the name of the compute kernel. -/
def Dispatcher.echo : Dispatcher Backend.echo where
  State := Unit
  Pipeline := String
  compute kernels := pure <|
    match kernels.kernel? .compute with
    | some kernel => .ok kernel.exportName
    | none => .error (.incompatibleKernels .compute)

theorem echo_makes_found : Dispatcher.echo.MakesFound EntryPointKernel.exportName := by
  intro kernels state
  cases found : kernels.kernel? .compute <;> simp only [Dispatcher.echo, found] <;> rfl

namespace Archive

/-- Of the two compute groups after another one, the second one gets the pipeline of the first. -/
theorem dispatch_group_of_second_compute :
    let group := fun (stage : ShaderStage) (name : String) =>
      ({ shaderModule := 0, entryPoints := [⟨stage, name, name, none⟩] } : EntryPointGroup)
    let desc : ProgramDesc := {
      modules := [{}]
      groups := [group .vertex "vertex", group .compute "one", group .compute "two"] }
    let archive := (opening {} [Manager.echo]).run [.operate (.newProgram 0 desc ∅)]
    let counting : CountingDispatcher Dispatcher.echo := { state := () }
    ∃ kernels, archive.respond (.operate (.activeKernels 0)) = .kernels "" (.ok kernels) ∧
      ∃ own other, kernels.linked.groups[1]? = some own ∧ kernels.linked.groups[2]? = some other ∧
        own.exportName = "one" ∧ other.exportName = "two" ∧
        (counting.dispatchGroup kernels.linked 1).1 = .ok (some "one") ∧
        (counting.dispatchGroup kernels.linked 2).1 = .ok (some "one") := by
  intro group desc archive counting
  have links : (archive.world.activeKernels 0).map (fun answer => answer.1.toOption.map
      fun kernels => kernels.linked.groups.map fun group => (group.kind, group.exportName)) =
      some (some [(.rasterization, "vertex"), (.compute, "one"), (.compute, "two")]) := by
    decide +kernel
  obtain ⟨⟨outcome, next⟩, called, contents⟩ := Option.map_eq_some_iff.mp links
  cases outcome with
  | error error => simp [Except.toOption] at contents
  | ok kernels =>
      have answered :
          archive.respond (.operate (.activeKernels 0)) = .kernels "" (.ok kernels) := by
        simp only [respond, World.serve, World.reply, called, World.respondWith]
      have shapes : kernels.linked.groups.map (fun group => (group.kind, group.exportName)) =
          [(.rasterization, "vertex"), (.compute, "one"), (.compute, "two")] :=
        Option.some.inj contents
      obtain ⟨raster, rest, listed, rasterShape, restShapes⟩ := List.map_eq_cons_iff.mp shapes
      obtain ⟨own, others, rfl, ownShape, othersShapes⟩ := List.map_eq_cons_iff.mp restShapes
      obtain ⟨other, none, rfl, otherShape, noShapes⟩ := List.map_eq_cons_iff.mp othersShapes
      obtain ⟨rasterKind, _⟩ := Prod.mk.inj rasterShape
      obtain ⟨ownKind, ownName⟩ := Prod.mk.inj ownShape
      obtain ⟨otherKind, otherName⟩ := Prod.mk.inj otherShape
      have ownAt : kernels.linked.groups[1]? = some own := by simp [listed]
      have otherAt : kernels.linked.groups[2]? = some other := by simp [listed]
      have isFirst : (kernels.linked.groups.find? fun group => group.kind = .compute) =
          some own := by simp [listed, rasterKind, ownKind]
      have dispatched : ∀ position group, kernels.linked.groups[position]? = some group →
          group.kind = .compute →
          (counting.dispatchGroup kernels.linked position).1 = .ok (some "one") := by
        intro position group isAt isCompute
        obtain ⟨first, chosen, _, isFound, _, chosenName, _, _, made, _⟩ :=
          dispatch_group_first_compute {} [Manager.echo] _ answered echo_makes_found counting isAt
            isCompute
        cases isFirst.symm.trans isFound
        rw [made, chosenName, ownName]
      exact ⟨kernels, answered, own, other, ownAt, otherAt, ownName, otherName,
        dispatched 1 own ownAt ownKind, dispatched 2 other otherAt otherKind⟩

end Archive

end ShaderCache
