import ShaderCache.Proofs.DeviceEntries

/-!
# Names that the device knows

Linking names all specialized entry points and hands some of them to the device. What is handed
over stands among all of them at increasing positions, with the name of the one at that position.
The first entry point of each name is always there. In a ray tracing program there is no other one.
-/

set_option autoImplicit false

namespace ShaderCache

variable {B : Backend}

/-! ## Parts of lists -/

/-- The values are those of the list at the positions, in the order of the list. -/
structure StandAt {Value : Type} (whole : List Value) (positions : List Nat)
    (values : List Value) : Prop where
  increasing : positions.Pairwise (· < ·)
  values : List.Forall₂ (fun position value => whole[position]? = some value) positions values

namespace StandAt

variable {Value : Type} {first : Value} {rest values : List Value} {positions : List Nat}

theorem skip (stand : StandAt rest positions values) :
    StandAt (first :: rest) (positions.map Nat.succ) values := by
  constructor
  · exact List.pairwise_map.mpr (stand.increasing.imp Nat.succ_lt_succ)
  · exact List.forall₂_map_left_iff.mpr stand.values

theorem keep (stand : StandAt rest positions values) :
    StandAt (first :: rest) (0 :: positions.map Nat.succ) (first :: values) := by
  obtain ⟨increasing, shifted⟩ : StandAt (first :: rest) (positions.map Nat.succ) values :=
    stand.skip
  refine ⟨List.pairwise_cons.mpr ⟨?_, increasing⟩, .cons rfl shifted⟩
  intro position present
  obtain ⟨before, _, rfl⟩ := List.mem_map.mp present
  exact Nat.succ_pos before

theorem whole (list : List Value) : StandAt list (List.range list.length) list := by
  induction list with
  | nil => exact ⟨.nil, .nil⟩
  | cons first rest ih =>
      rw [List.length_cons, List.range_succ_eq_map]
      exact ih.keep

end StandAt

/-- At the position stands the first of its name, which is not among `seen`. -/
def FirstOutside (seen names : List String) (position : Nat) : Prop :=
  ∃ name, names[position]? = some name ∧ name ∉ seen ∧ names.idxOf name = position

theorem idx_of_cons_succ_iff {first name : String} {rest : List String} {position : Nat} :
    (first :: rest).idxOf name = position + 1 ↔ name ≠ first ∧ rest.idxOf name = position := by
  by_cases here : first = name
  · simp [here]
  · rw [List.idxOf_cons_ne _ here, Nat.succ_inj]
    simp [Ne.symm here]

theorem first_outside_cons_zero {seen rest : List String} {first : String} :
    FirstOutside seen (first :: rest) 0 ↔ first ∉ seen := by
  simp [FirstOutside]

theorem first_outside_cons_succ {seen rest : List String} {first : String} {position : Nat} :
    FirstOutside seen (first :: rest) (position + 1) ↔
      FirstOutside (first :: seen) rest position := by
  simp only [FirstOutside, List.getElem?_cons_succ, idx_of_cons_succ_iff, List.mem_cons, not_or]
  constructor
  · rintro ⟨name, isAt, unseen, other, isFirst⟩
    exact ⟨name, isAt, ⟨other, unseen⟩, isFirst⟩
  · rintro ⟨name, isAt, ⟨other, unseen⟩, isFirst⟩
    exact ⟨name, isAt, unseen, other, isFirst⟩

theorem first_outside_nil {names : List String} {position : Nat} :
    FirstOutside [] names position ↔ ∃ name ∈ names, names.idxOf name = position := by
  constructor
  · rintro ⟨name, isAt, _, isFirst⟩
    exact ⟨name, List.mem_of_getElem? isAt, isFirst⟩
  · rintro ⟨name, present, rfl⟩
    exact ⟨name, List.getElem?_idxOf present, List.not_mem_nil, rfl⟩

/-- A name that was seen before adds nothing. -/
theorem first_outside_seen {seen names : List String} {first : String} (known : first ∈ seen)
    {position : Nat} :
    FirstOutside (first :: seen) names position ↔ FirstOutside seen names position := by
  have same : ∀ name, name ∈ first :: seen ↔ name ∈ seen := by
    intro name
    rw [List.mem_cons]
    exact ⟨fun present => present.elim (fun here => here ▸ known) id, .inr⟩
  simp only [FirstOutside, same]

namespace LinkedKernels

variable {Value : Type}

/-- What is left when repeated names are dropped are the first ones. -/
theorem first_of_each_stand (seen : List String) (entries : List (String × Value)) :
    ∃ positions, StandAt entries positions (firstOfEachName seen entries) ∧
      ∀ position, position ∈ positions ↔
        FirstOutside seen (entries.map Prod.fst) position := by
  induction entries generalizing seen with
  | nil => exact ⟨[], ⟨.nil, .nil⟩, by simp [FirstOutside]⟩
  | cons first rest ih =>
      obtain ⟨name, value⟩ := first
      rw [firstOfEachName, List.map_cons]
      -- Either way what follows moves up by one. A new name stands first and is seen from here on.
      by_cases known : name ∈ seen
      · obtain ⟨positions, stand, firsts⟩ := ih seen
        refine ⟨positions.map Nat.succ, ?_, ?_⟩
        · rw [if_pos known]
          exact stand.skip
        · intro position
          cases position with
          | zero => simp [first_outside_cons_zero, known]
          | succ before =>
              rw [first_outside_cons_succ, first_outside_seen known, ← firsts]
              simp
      · obtain ⟨positions, stand, firsts⟩ := ih (name :: seen)
        refine ⟨0 :: positions.map Nat.succ, ?_, ?_⟩
        · rw [if_neg known]
          exact stand.keep
        · intro position
          cases position with
          | zero => simp [first_outside_cons_zero, known]
          | succ before =>
              rw [first_outside_cons_succ, ← firsts]
              simp

theorem first_of_each_distinct (seen : List String) (entries : List (String × Value)) :
    ((firstOfEachName seen entries).map Prod.fst).Nodup ∧
      ∀ name ∈ (firstOfEachName seen entries).map Prod.fst, name ∉ seen := by
  induction entries generalizing seen with
  | nil => simp [firstOfEachName]
  | cons first rest ih =>
      obtain ⟨name, value⟩ := first
      rw [firstOfEachName]
      by_cases known : name ∈ seen
      · rw [if_pos known]
        exact ih seen
      · rw [if_neg known, List.map_cons]
        obtain ⟨distinct, unseen⟩ := ih (name :: seen)
        refine ⟨List.nodup_cons.mpr ⟨?_, distinct⟩, List.forall_mem_cons.mpr ⟨known, ?_⟩⟩
        · exact fun again => unseen name again List.mem_cons_self
        · exact fun other present earlier =>
            unseen other present (List.mem_cons_of_mem name earlier)

/-- What is handed over are the named values at the positions, and each name goes with its value.
The first one of every name is among them. -/
structure HandsOver (named : List (String × Value)) (positions : List Nat) (names : List String)
    (values : List Value) : Prop where
  aligned : names.length = values.length
  stand : StandAt named positions (names.zip values)
  complete : ∀ name ∈ named.map Prod.fst,
    name ∈ names ∧ (named.map Prod.fst).idxOf name ∈ positions

/-- Every name is handed over once, with the first value that has it. -/
structure HandsOverOnce (named : List (String × Value)) (positions : List Nat)
    (names : List String) : Prop where
  once : ∀ name ∈ named.map Prod.fst, names.count name = 1
  first : ∀ position, position ∈ positions ↔
    ∃ name ∈ named.map Prod.fst, (named.map Prod.fst).idxOf name = position

section Handed

variable {named chosen : List (String × Value)} {positions : List Nat}

theorem hands_over_of_stand (stand : StandAt named positions chosen)
    (firsts : ∀ name ∈ named.map Prod.fst, (named.map Prod.fst).idxOf name ∈ positions) :
    HandsOver named positions (chosen.map Prod.fst) (chosen.map Prod.snd) := by
  refine ⟨by simp, ?_, fun name present => ⟨?_, firsts name present⟩⟩
  · have paired : chosen = (chosen.map Prod.fst).zip (chosen.map Prod.snd) :=
      List.zip_of_prod rfl rfl
    rwa [← paired]
  · obtain ⟨place, found⟩ := List.mem_iff_getElem?.mp (firsts name present)
    obtain ⟨entry, isChosen, isAt⟩ := related_at stand.values found
    have isNamed : (named.map Prod.fst)[(named.map Prod.fst).idxOf name]? = some entry.1 := by
      rw [List.getElem?_map, isAt, Option.map_some]
    rw [List.getElem?_idxOf present] at isNamed
    cases isNamed
    exact List.mem_map_of_mem (List.mem_of_getElem? isChosen)

end Handed

/-- Some entry points are handed over, and those that come first with their names always are. No
others are if the program is for ray tracing. -/
theorem device_entries_hand_over (desc : ProgramDesc) (named : List (String × B.Component)) :
    ∃ positions,
      HandsOver named positions ((deviceEntries desc named).map Prod.fst)
        ((deviceEntries desc named).map Prod.snd) ∧
      (named = [] ∨ isRayTracing desc = true →
        HandsOverOnce named positions ((deviceEntries desc named).map Prod.fst)) := by
  unfold deviceEntries
  split
  next =>
    obtain ⟨positions, stand, firsts⟩ := first_of_each_stand [] named
    have handed := hands_over_of_stand stand fun name present =>
      (firsts _).mpr (first_outside_nil.mpr ⟨name, present, rfl⟩)
    refine ⟨positions, handed, fun _ => ⟨?_, fun position => ?_⟩⟩
    · exact fun name present => List.count_eq_one_of_mem (first_of_each_distinct [] named).1
        (handed.complete name present).1
    · exact (firsts position).trans first_outside_nil
  next others =>
    have handed := hands_over_of_stand (StandAt.whole named) fun name present => by
      have bound := List.idxOf_lt_length_of_mem present
      rw [List.length_map] at bound
      exact List.mem_range.mpr bound
    refine ⟨List.range named.length, handed, fun rays => ?_⟩
    -- All entry points of ray tracing and yet no ray tracing program: there is no entry point.
    cases rays.resolve_right others
    exact ⟨by simp, by simp⟩

end LinkedKernels

namespace Archive

open LinkedKernels (LinksGroups NamedBy HandsOver HandsOverOnce)

/-- Whoever is answered with kernels: the specialized entry points of the program, group by group
and each under the name that the compiler gives it or else its export name, are the ones of which
the device was handed some, in their order and with their names. No name is lost, since the first
entry point of each is handed over, and no other one is if all of them are for ray tracing. -/
theorem device_entries_lose_no_name (files : FileTree) (managers : List (Manager B))
    (requests : List Request) {request : Request} {log : String} {kernels : Kernels B}
    (answered : ((opening files managers).run requests).respond request =
      .kernels log (.ok kernels)) :
    let archive := ((opening files managers).run requests).after request
    let linked := kernels.linked
    ∃ version found entries named parts positions,
      version ∈ archive.versions ∧ archive.world.program? version.program = some found ∧
      LinksGroups version.linkInput linked.conformances found.desc.groups entries ∧
      entries.flatten.map SpecializedEntry.entry = found.desc.entryPoints ∧
      List.Forall₂ NamedBy entries.flatten named ∧
      B.Executes version.compiled.globalScope parts linked.deviceProgram ∧
      HandsOver named positions linked.deviceEntryPoints parts ∧
      ((∀ entry ∈ found.desc.entryPoints, entry.stage.isRayTracing = true) →
        HandsOverOnce named positions linked.deviceEntryPoints) := by
  intro archive linked
  have soundStart : (opening files managers).Sound := sound_opening files managers
  have kept := (kept_opening files managers).run soundStart requests
  obtain ⟨version, found, entries, named, held, present, _, _, assembles⟩ :=
    kept.answered_assembles (soundStart.run requests) answered
  have inOrder := LinkedKernels.entries_of_groups assembles.groups
  obtain ⟨positions, handed, once⟩ :=
    LinkedKernels.device_entries_hand_over found.desc named
  rw [← assembles.handed] at handed once
  refine ⟨version, found, entries, named, _, positions, held, present, assembles.groups, inOrder,
    assembles.names, assembles.program, handed, fun rays => once ?_⟩
  cases listed : found.desc.entryPoints with
  | nil =>
      have none : entries.flatten = [] := List.map_eq_nil_iff.mp (inOrder.trans listed)
      have names := assembles.names
      rw [none] at names
      exact .inl (List.forall₂_nil_left_iff.mp names)
  | cons first rest =>
      have ray := rays first (by simp [listed])
      exact .inr (by simp [LinkedKernels.isRayTracing, listed, ray])

/-- The second hit group has its entry point from the first one. -/
theorem device_entries_of_shared_hit :
    let group := fun (stage : ShaderStage) (name : String) =>
      ({ shaderModule := 0, entryPoints := [⟨stage, name, name, none⟩] } : EntryPointGroup)
    let desc : ProgramDesc := {
      modules := [{}]
      groups := [group .rayGeneration "trace", group .closestHit "hit", group .closestHit "hit",
        group .miss "sky"] }
    let archive := (opening {} [Manager.echo]).run [.operate (.newProgram 0 desc ∅)]
    ∃ kernels, archive.respond (.operate (.activeKernels 0)) = .kernels "" (.ok kernels) ∧
      kernels.linked.deviceEntryPoints = ["trace", "hit", "sky"] ∧
      ∃ (named : List (String × Backend.echo.Component)) (parts : List Backend.echo.Component)
        (positions : List Nat), named.length = 4 ∧ parts.length = 3 ∧
        HandsOver named positions kernels.linked.deviceEntryPoints parts ∧
        HandsOverOnce named positions kernels.linked.deviceEntryPoints := by
  intro group desc archive
  have links : (archive.world.activeKernels 0).map (fun answer => answer.1.toOption.map
      fun kernels => kernels.linked.deviceEntryPoints) =
      some (some ["trace", "hit", "sky"]) := by
    decide +kernel
  have programs : (archive.after (.operate (.activeKernels 0))).versions.map Version.program =
      [0] := by
    decide +kernel
  have stages : ((archive.after (.operate (.activeKernels 0))).world.program? 0).map
      (fun found => found.desc.entryPoints.map EntryPoint.stage) =
      some [.rayGeneration, .closestHit, .closestHit, .miss] := by
    decide +kernel
  obtain ⟨kernels, answered, handed⟩ := answered_active links
  obtain ⟨version, found, entries, named, parts, positions, held, present, _, inOrder, names,
    _, hands, once⟩ := device_entries_lose_no_name {} [Manager.echo] _ answered
  have program : version.program = 0 := by
    have isProgram := List.mem_map_of_mem held (f := Version.program)
    rw [programs] at isProgram
    simpa using isProgram
  have inStages : found.desc.entryPoints.map EntryPoint.stage =
      [.rayGeneration, .closestHit, .closestHit, .miss] := by
    rw [program] at present
    rw [present] at stages
    exact Option.some.inj stages
  have rays : ∀ entry ∈ found.desc.entryPoints, entry.stage.isRayTracing = true := by
    intro entry isEntry
    have isStage := List.mem_map_of_mem isEntry (f := EntryPoint.stage)
    rw [inStages] at isStage
    generalize entry.stage = stage at isStage
    revert stage
    decide
  have whole : named.length = 4 := by
    have count := congrArg List.length inStages
    rw [← inOrder, List.length_map, List.length_map, names.length_eq] at count
    exact count
  have aligned := hands.aligned
  rw [handed] at aligned
  exact ⟨kernels, answered, handed, named, parts, positions, whole, aligned.symm, hands, once rays⟩

end Archive

end ShaderCache
