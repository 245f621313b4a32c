import ShaderCache.Proofs.Echo
import ShaderCache.Proofs.KernelOrigins

/-!
# Entry points for the device

Ray tracing entry points of one name have to be handed to the device once, and all others as often
as there are. Linking decides for the whole program whether to drop repeated names, by its first
entry point. So where kinds are mixed the two differ, in exactly the arrangements that are told
here.
-/

set_option autoImplicit false

namespace ShaderCache

variable {B : Backend}

namespace LinkedKernels

variable {Value : Type}

/-- The named entry points without the ray tracing ones whose name an earlier ray tracing one has,
or is among `seen`. -/
def withoutRepeatedRays (seen : List String) :
    List (EntryPoint × String × Value) → List (String × Value)
  | [] => []
  | (entry, name, value) :: rest =>
      if entry.stage.isRayTracing then
        if name ∈ seen then withoutRepeatedRays seen rest
        else (name, value) :: withoutRepeatedRays (name :: seen) rest
      else
        (name, value) :: withoutRepeatedRays seen rest

/-- Two named entry points that only ray tracing can bring under one name. -/
def OnlyRaysShare (one other : EntryPoint × String × Value) : Prop :=
  one.2.1 = other.2.1 → one.1.stage.isRayTracing = true ∧ other.1.stage.isRayTracing = true

/-- Two named entry points that ray tracing does not bring under one name. -/
def NoRaysShare (one other : EntryPoint × String × Value) : Prop :=
  one.1.stage.isRayTracing = true → other.1.stage.isRayTracing = true → one.2.1 ≠ other.2.1

/-! ## Dropping every repeated name -/

theorem first_of_each_length {seen rays : List String} (among : rays ⊆ seen)
    (entries : List (EntryPoint × String × Value)) :
    (firstOfEachName seen (entries.map Prod.snd)).length ≤
      (withoutRepeatedRays rays entries).length := by
  induction entries generalizing seen rays with
  | nil => exact Nat.le_refl 0
  | cons first rest ih =>
      obtain ⟨entry, name, value⟩ := first
      simp only [List.map_cons, firstOfEachName, withoutRepeatedRays]
      by_cases known : name ∈ seen
      · rw [if_pos known]
        split
        next =>
          split
          next => exact ih among
          next =>
            have widened : name :: rays ⊆ seen := List.cons_subset.mpr ⟨known, among⟩
            exact Nat.le_succ_of_le (ih widened)
        next => exact Nat.le_succ_of_le (ih among)
      · rw [if_neg known]
        split
        next =>
          rw [if_neg fun old => known (among old)]
          exact Nat.succ_le_succ (ih (List.cons_subset_cons name among))
        next =>
          exact Nat.succ_le_succ (ih fun old isRay => List.mem_cons_of_mem name (among isRay))

/-- Ray tracing entry points share names with their kind only, also those in `seen`, of which `rays`
are the ones of ray tracing entry points. -/
structure Apart (seen rays : List String) (entries : List (EntryPoint × String × Value)) :
    Prop where
  shared : entries.Pairwise OnlyRaysShare
  known : ∀ one ∈ entries, one.2.1 ∈ seen → one.1.stage.isRayTracing = true ∧ one.2.1 ∈ rays

section Apart

variable {seen rays : List String} {first : EntryPoint × String × Value}
  {rest : List (EntryPoint × String × Value)}

theorem apart_known (ray : first.1.stage.isRayTracing = true) (known : first.2.1 ∈ seen)
    (old : first.2.1 ∈ rays) : Apart seen rays (first :: rest) ↔ Apart seen rays rest := by
  constructor
  · rintro ⟨shared, others⟩
    exact ⟨(List.pairwise_cons.mp shared).2, (List.forall_mem_cons.mp others).2⟩
  · rintro ⟨shared, others⟩
    refine ⟨List.pairwise_cons.mpr ⟨?_, shared⟩, List.forall_mem_cons.mpr ⟨?_, others⟩⟩
    · intro other present same
      exact ⟨ray, (others other present (same ▸ known)).1⟩
    · exact fun _ => ⟨ray, old⟩

theorem apart_ray (ray : first.1.stage.isRayTracing = true) (fresh : first.2.1 ∉ seen) :
    Apart seen rays (first :: rest) ↔ Apart (first.2.1 :: seen) (first.2.1 :: rays) rest := by
  constructor
  · rintro ⟨shared, others⟩
    obtain ⟨here, later⟩ := List.pairwise_cons.mp shared
    refine ⟨later, ?_⟩
    intro one present isSeen
    rcases List.mem_cons.mp isSeen with same | earlier
    · exact ⟨(here one present same.symm).2, List.mem_cons.mpr (.inl same)⟩
    · obtain ⟨isRay, old⟩ := (List.forall_mem_cons.mp others).2 one present earlier
      exact ⟨isRay, List.mem_cons_of_mem _ old⟩
  · rintro ⟨shared, others⟩
    refine ⟨List.pairwise_cons.mpr ⟨?_, shared⟩, List.forall_mem_cons.mpr ⟨?_, ?_⟩⟩
    · intro other present same
      exact ⟨ray, (others other present (List.mem_cons.mpr (.inl same.symm))).1⟩
    · exact fun known => absurd known fresh
    · intro one present earlier
      obtain ⟨isRay, old⟩ := others one present (List.mem_cons_of_mem _ earlier)
      rcases List.mem_cons.mp old with same | before
      · exact absurd (same ▸ earlier) fresh
      · exact ⟨isRay, before⟩

theorem apart_other (other : ¬ first.1.stage.isRayTracing = true) (among : rays ⊆ seen)
    (fresh : first.2.1 ∉ seen) :
    Apart seen rays (first :: rest) ↔ Apart (first.2.1 :: seen) rays rest := by
  constructor
  · rintro ⟨shared, others⟩
    obtain ⟨here, later⟩ := List.pairwise_cons.mp shared
    refine ⟨later, ?_⟩
    intro one present isSeen
    rcases List.mem_cons.mp isSeen with same | earlier
    · exact absurd (here one present same.symm).1 other
    · exact (List.forall_mem_cons.mp others).2 one present earlier
  · rintro ⟨shared, others⟩
    refine ⟨List.pairwise_cons.mpr ⟨?_, shared⟩, List.forall_mem_cons.mpr ⟨?_, ?_⟩⟩
    · intro one present same
      have old := (others one present (List.mem_cons.mpr (.inl same.symm))).2
      exact absurd (among (same ▸ old)) fresh
    · exact fun known => absurd known fresh
    · exact fun one present earlier => others one present (List.mem_cons_of_mem _ earlier)

end Apart

/-- Dropping every repeated name is right if ray tracing entry points share names with their kind
only. -/
theorem first_of_each_iff {seen rays : List String} (among : rays ⊆ seen)
    (entries : List (EntryPoint × String × Value)) :
    firstOfEachName seen (entries.map Prod.snd) = withoutRepeatedRays rays entries ↔
      Apart seen rays entries := by
  induction entries generalizing seen rays with
  | nil => exact ⟨fun _ => ⟨.nil, by simp⟩, fun _ => rfl⟩
  | cons first rest ih =>
      -- One that is kept where the other list has already dropped it leaves that list too short.
      have tooShort : ∀ {more}, more ⊆ seen →
          firstOfEachName seen (rest.map Prod.snd) ≠
            first.2 :: withoutRepeatedRays more rest := by
        intro more within same
        have shorter := first_of_each_length within rest
        rw [same, List.length_cons] at shorter
        omega
      simp only [List.map_cons, firstOfEachName, withoutRepeatedRays]
      by_cases known : first.2.1 ∈ seen
      · rw [if_pos known]
        by_cases ray : first.1.stage.isRayTracing = true
        · rw [if_pos ray]
          by_cases old : first.2.1 ∈ rays
          · rw [if_pos old, ih among, apart_known ray known old]
          · rw [if_neg old]
            have widened : first.2.1 :: rays ⊆ seen := List.cons_subset.mpr ⟨known, among⟩
            refine iff_of_false (tooShort widened) ?_
            exact fun apart => old (apart.known first List.mem_cons_self known).2
        · rw [if_neg ray]
          refine iff_of_false (tooShort among) ?_
          exact fun apart => ray (apart.known first List.mem_cons_self known).1
      · rw [if_neg known]
        by_cases ray : first.1.stage.isRayTracing = true
        · rw [if_pos ray, if_neg fun old => known (among old), List.cons.injEq,
            and_iff_right rfl, ih (List.cons_subset_cons _ among), apart_ray ray known]
        · rw [if_neg ray, List.cons.injEq, and_iff_right rfl,
            ih (List.subset_cons_of_subset _ among), apart_other ray among known]

/-! ## Dropping nothing -/

theorem without_repeated_length (seen : List String)
    (entries : List (EntryPoint × String × Value)) :
    (withoutRepeatedRays seen entries).length ≤ entries.length := by
  induction entries generalizing seen with
  | nil => exact Nat.le_refl 0
  | cons first rest ih =>
      simp only [withoutRepeatedRays]
      split
      next =>
        split
        next => exact Nat.le_succ_of_le (ih seen)
        next => exact Nat.succ_le_succ (ih _)
      next => exact Nat.succ_le_succ (ih seen)

/-- Dropping nothing is right if no two ray tracing entry points share a name. -/
theorem all_entries_iff (seen : List String) (entries : List (EntryPoint × String × Value)) :
    entries.map Prod.snd = withoutRepeatedRays seen entries ↔
      entries.Pairwise NoRaysShare ∧
        ∀ one ∈ entries, one.1.stage.isRayTracing = true → one.2.1 ∉ seen := by
  induction entries generalizing seen with
  | nil => simp [withoutRepeatedRays]
  | cons first rest ih =>
      simp only [List.map_cons, withoutRepeatedRays, List.pairwise_cons, List.forall_mem_cons]
      by_cases ray : first.1.stage.isRayTracing = true
      · rw [if_pos ray]
        by_cases known : first.2.1 ∈ seen
        · rw [if_pos known]
          refine iff_of_false ?_ fun right => right.2.1 ray known
          intro same
          have shorter := without_repeated_length seen rest
          rw [← same, List.length_cons, List.length_map] at shorter
          omega
        · rw [if_neg known, List.cons.injEq, and_iff_right rfl, ih]
          constructor
          · rintro ⟨shared, others⟩
            refine ⟨⟨?_, shared⟩, fun _ => known, ?_⟩
            · intro other present _ isRay same
              exact others other present isRay (List.mem_cons.mpr (.inl same.symm))
            · intro one present isRay earlier
              exact others one present isRay (List.mem_cons_of_mem _ earlier)
          · rintro ⟨⟨here, shared⟩, _, others⟩
            refine ⟨shared, ?_⟩
            intro one present isRay isSeen
            rcases List.mem_cons.mp isSeen with same | earlier
            · exact here one present ray isRay same.symm
            · exact others one present isRay earlier
      · rw [if_neg ray, List.cons.injEq, and_iff_right rfl, ih]
        constructor
        · rintro ⟨shared, others⟩
          exact ⟨⟨fun _ _ isRay => absurd isRay ray, shared⟩, fun isRay => absurd isRay ray, others⟩
        · rintro ⟨⟨_, shared⟩, _, others⟩
          exact ⟨shared, others⟩

/-! ## Programs -/

/-- The entry points that the device has to be given. -/
def wantedEntries (desc : ProgramDesc) (named : List (String × Value)) : List (String × Value) :=
  withoutRepeatedRays [] (desc.entryPoints.zip named)

/-- The entry points that are handed over are those that have to be, unless the kinds are mixed:
under a ray tracing entry point that is the first of all, another kind shares a name; or under a
first one of another kind, two ray tracing entry points do. -/
theorem device_entries_iff {desc : ProgramDesc} {named : List (String × B.Component)}
    (whole : named.length = desc.entryPoints.length) :
    deviceEntries desc named = wantedEntries desc named ↔
      (desc.entryPoints.zip named).Pairwise
        (if isRayTracing desc then OnlyRaysShare else NoRaysShare) := by
  have entries : (desc.entryPoints.zip named).map Prod.snd = named :=
    List.map_snd_zip (Nat.le_of_eq whole)
  unfold deviceEntries wantedEntries
  split
  next =>
    have iff := first_of_each_iff (List.Subset.refl []) (desc.entryPoints.zip named)
    rw [entries] at iff
    rw [iff]
    exact ⟨Apart.shared, fun shared => ⟨shared, by simp⟩⟩
  next =>
    have iff := all_entries_iff [] (desc.entryPoints.zip named)
    rw [entries] at iff
    rw [iff]
    exact and_iff_left (by simp)

/-- In a program of one kind it does not matter how many names coincide. -/
theorem device_entries_unmixed {desc : ProgramDesc} {named : List (String × B.Component)}
    (whole : named.length = desc.entryPoints.length)
    (unmixed : ∀ entry ∈ desc.entryPoints, entry.stage.isRayTracing = isRayTracing desc) :
    deviceEntries desc named = wantedEntries desc named := by
  rw [device_entries_iff whole]
  apply List.pairwise_of_forall_mem_list
  intro one isOne other isOther
  have kindOne := unmixed one.1 (List.of_mem_zip isOne).1
  have kindOther := unmixed other.1 (List.of_mem_zip isOther).1
  split
  next rays => exact fun _ => ⟨kindOne.trans rays, kindOther.trans rays⟩
  next others => exact fun isRay => absurd (kindOne.symm.trans isRay) others

end LinkedKernels

namespace Archive

open LinkedKernels (Assembles deviceEntries wantedEntries isRayTracing OnlyRaysShare NoRaysShare)

/-- Whoever is answered with kernels: the device was handed the entry points that it has to be
given exactly if, where the first entry point is for ray tracing, only such ones share a name, and
where it is not, no two such ones do. That is so in programs of one kind. -/
theorem device_entries_as_wanted_iff (files : FileTree) (managers : List (Manager B))
    (requests : List Request) {request : Request} {log : String} {kernels : Kernels B}
    (answered : ((opening files managers).run requests).respond request =
      .kernels log (.ok kernels)) :
    let archive := ((opening files managers).run requests).after request
    let linked := kernels.linked
    ∃ version found entries named,
      version ∈ archive.versions ∧ archive.world.program? version.program = some found ∧
      entries.flatten.map SpecializedEntry.entry = found.desc.entryPoints ∧
      Assembles found.desc linked.conformances version.linkInput entries named linked ∧
      (deviceEntries found.desc named = wantedEntries found.desc named ↔
        (found.desc.entryPoints.zip named).Pairwise
          (if isRayTracing found.desc then OnlyRaysShare else NoRaysShare)) ∧
      ((∀ entry ∈ found.desc.entryPoints,
          entry.stage.isRayTracing = isRayTracing found.desc) →
        deviceEntries found.desc named = wantedEntries found.desc named) := by
  intro archive linked
  have soundStart : (opening files managers).Sound := sound_opening files managers
  have kept := (kept_opening files managers).run soundStart requests
  obtain ⟨version, found, entries, named, held, present, _, _, assembles⟩ :=
    kept.answered_assembles (soundStart.run requests) answered
  have inOrder := LinkedKernels.entries_of_groups assembles.groups
  have whole : named.length = found.desc.entryPoints.length := by
    rw [← assembles.names.length_eq, ProgramDesc.entryPoints, ← inOrder, List.length_map]
  exact ⟨version, found, entries, named, held, present, inOrder, assembles,
    LinkedKernels.device_entries_iff whole, LinkedKernels.device_entries_unmixed whole⟩

/-- A ray tracing entry point and another one are wanted whatever their names are. -/
theorem wanted_of_mixed_pair {desc : ProgramDesc} {named : List (String × B.Component)}
    (stages : desc.entryPoints.map EntryPoint.stage = [.rayGeneration, .compute])
    (whole : named.length = desc.entryPoints.length) : (wantedEntries desc named).length = 2 := by
  obtain ⟨first, others, entries, ray, stages⟩ := List.map_eq_cons_iff.mp stages
  obtain ⟨second, none, rfl, compute, stages⟩ := List.map_eq_cons_iff.mp stages
  cases List.map_eq_nil_iff.mp stages
  rw [entries] at whole
  obtain ⟨one, two, rfl⟩ := List.length_eq_two.mp whole
  simp [wantedEntries, LinkedKernels.withoutRepeatedRays, entries, ray, compute,
    ShaderStage.isRayTracing]

/-- A compute shader is not handed over, since a ray tracing one of the same name comes first. -/
theorem device_entries_of_mixed_kinds :
    let group := fun stage : ShaderStage =>
      ({ shaderModule := 0, entryPoints := [⟨stage, "main", "main", none⟩] } : EntryPointGroup)
    let desc : ProgramDesc := {
      modules := [{}]
      groups := [group .rayGeneration, group .compute] }
    let archive := (opening {} [Manager.echo]).run [.operate (.newProgram 0 desc ∅)]
    let request : Request := .operate (.activeKernels 0)
    ∃ kernels, archive.respond request = .kernels "" (.ok kernels) ∧
      kernels.linked.deviceEntryPoints = ["main"] ∧
      ∃ found, ∃ named : List (String × Backend.echo.Component),
        (archive.after request).world.program? 0 = some found ∧
        found.desc.entryPoints.map EntryPoint.stage = [.rayGeneration, .compute] ∧
        kernels.linked.deviceEntryPoints = (deviceEntries found.desc named).map Prod.fst ∧
        (wantedEntries found.desc named).length = 2 ∧
        deviceEntries found.desc named ≠ wantedEntries found.desc named := by
  intro group desc archive request
  have links : (archive.world.activeKernels 0).map (fun answer => answer.1.toOption.map
      fun kernels => kernels.linked.deviceEntryPoints) = some (some ["main"]) := by
    decide +kernel
  have programs : (archive.after request).versions.map Version.program = [0] := by
    decide +kernel
  have stages : ((archive.after request).world.program? 0).map
      (fun found => found.desc.entryPoints.map EntryPoint.stage) =
      some [.rayGeneration, .compute] := by
    decide +kernel
  obtain ⟨⟨outcome, next⟩, called, contents⟩ := Option.map_eq_some_iff.mp links
  cases outcome with
  | error error => simp [Except.toOption] at contents
  | ok kernels =>
      have answered : archive.respond request = .kernels "" (.ok kernels) := by
        simp only [respond, request, World.serve, World.reply, called, World.respondWith]
      obtain ⟨version, found, entries, named, held, present, inOrder, assembles, _⟩ :=
        device_entries_as_wanted_iff {} [Manager.echo] _ answered
      have program : version.program = 0 := by
        have isProgram := List.mem_map_of_mem held (f := Version.program)
        rw [programs] at isProgram
        simpa using isProgram
      rw [program] at present
      have inStages : found.desc.entryPoints.map EntryPoint.stage = [.rayGeneration, .compute] := by
        rw [present] at stages
        exact Option.some.inj stages
      have whole : named.length = found.desc.entryPoints.length := by
        rw [← assembles.names.length_eq, ← inOrder, List.length_map]
      have wanted := wanted_of_mixed_pair inStages whole
      have handed : kernels.linked.deviceEntryPoints = ["main"] := Option.some.inj contents
      refine ⟨kernels, answered, handed, found, named, present, inStages, assembles.handed, wanted,
        ?_⟩
      intro same
      have count := congrArg List.length (assembles.handed.symm.trans handed)
      rw [same, List.length_map, wanted] at count
      simp at count

end Archive

end ShaderCache
