import Mathlib.Data.List.Dedup
import ShaderCache.Proofs.KeptKernels

/-!
# Cached and uncached linking

With a steady backend, asking a version for its kernels and linking it anew come to the same, in
every state that a run reaches and whatever the program was configured with in between.
-/

set_option autoImplicit false

namespace ShaderCache

variable {B : Backend}

namespace World

variable {world : World B}

theorem Links.outcome {manager : Nat} {program : Program B} {conformances : ConformanceList}
    {version : Version B} {log : String} {outcome : Except ProgramError (Kernels B)}
    {next : World B} (links : Links world manager program conformances version log outcome next) :
    ∃ work : Work B.State, work.log = log ∧
      linkOutcome program.desc program.description conformances version.linkInput work =
        outcome.map Kernels.linked := by
  cases links with
  | failed managed fails quiet ids => exact ⟨_, rfl, fails⟩
  | made managed makes quiet ids => exact ⟨_, rfl, makes⟩

end World

namespace Archive

open World (Supplies)

variable {archive : Archive B}

/-- What a call for kernels answers linking gave once, whether they were kept or not. -/
theorem Kept.supplied (kept : archive.Kept) (sound : archive.Sound) {version : Version B}
    (held : version ∈ archive.versions) {owner : Program B}
    (present : archive.world.program? version.program = some owner)
    {outcome : Except ProgramError (Kernels B)} {next : World B}
    (supplies : Supplies archive.world version owner outcome next) :
    ∃ work : Work B.State, work.log = "" ∧
      linkOutcome owner.desc owner.description owner.state.conformances version.linkInput work =
        outcome.map Kernels.linked := by
  cases supplies with
  | kept cached quiet ids =>
      obtain ⟨entry, isKept, serial, conformances, rfl⟩ := World.mem_of_cached cached
      have genuine := kept.found sound isKept held serial
      rw [← conformances]
      exact (genuine.linked_now present).linked
  | failed missing links => exact links.outcome
  | linked missing links quiet ids => exact links.outcome

/-- With a steady backend, a call for kernels answers what linking gives at any time. -/
theorem Kept.supplies (kept : archive.Kept) (sound : archive.Sound) (steady : B.Steady)
    {version : Version B} (held : version ∈ archive.versions) {owner : Program B}
    (present : archive.world.program? version.program = some owner)
    {outcome : Except ProgramError (Kernels B)} {next : World B}
    (supplies : Supplies archive.world version owner outcome next) {work : Work B.State}
    (empty : work.log = "") :
    linkOutcome owner.desc owner.description owner.state.conformances version.linkInput work =
      outcome.map Kernels.linked := by
  obtain ⟨other, noLog, outcomeEq⟩ := kept.supplied sound held present supplies
  exact (link_outcome_steady steady owner.desc owner.description owner.state.conformances
    version.linkInput (empty.trans noLog.symm)).trans outcomeEq

/-- In a program that is alive, a version answers with what any manager links it to. -/
theorem Kept.kernels_as_linked (kept : archive.Kept) (sound : archive.Sound) (steady : B.Steady)
    {version : Version B} (held : version ∈ archive.versions) {owner : Program B}
    (present : archive.world.program? version.program = some owner) :
    ∃ outcome next, archive.world.kernelsOf version = some (outcome, next) ∧
      ∀ manager, manager < archive.world.managers.length → ∃ logged later,
        archive.world.createKernels manager version.program version "" = some (logged, later) ∧
          outcome.map Kernels.linked = logged.outcome.map Kernels.linked := by
  have owned : archive.world.owner? version = some owner := (sound.owner held).trans present
  obtain ⟨setup, managed⟩ := setup_of_owner sound.world owned
  obtain ⟨outcome, next, answered, supplies⟩ := archive.world.kernels_of_supplies owned managed
  refine ⟨outcome, next, answered, ?_⟩
  intro manager inRange
  have setupAt := archive.world.setup_of_manager (List.getElem?_eq_getElem inRange)
  obtain ⟨logged, later, created, links⟩ :=
    World.create_kernels_links owned rfl setupAt ""
  obtain ⟨work, noLog, outcomeEq⟩ := links.outcome
  refine ⟨logged, later, created, ?_⟩
  rw [← kept.supplies sound steady held present supplies noLog, outcomeEq]

/-! ## Counting -/

/-- The lists of conformances in labels that name the version with the given serial number. -/
def conformancesOf (labels : List (Nat × ConformanceList)) (serial : Nat) :
    List ConformanceList :=
  (labels.filter fun label => label.1 = serial).map Prod.snd

theorem conformances_of_cached (world : World B) (version : Version B) :
    (world.cachedKernels version).map CachedKernels.conformances =
      conformancesOf (world.kernels.map CachedKernels.label) version.serial := by
  rw [conformancesOf, List.filter_map, List.map_map]
  rfl

theorem conformances_of_nodup {labels : List (Nat × ConformanceList)} (once : labels.Nodup)
    (serial : Nat) : (conformancesOf labels serial).Nodup := by
  apply List.Nodup.map_on _ (once.filter _)
  intro one isOne other isOther same
  have oneSerial : one.1 = serial := by simpa using (List.mem_filter.mp isOne).2
  have otherSerial : other.1 = serial := by simpa using (List.mem_filter.mp isOther).2
  exact Prod.ext (oneSerial.trans otherSerial.symm) same

/-- In every archive that a run reaches, for every version that was made, also one that its
program has forgotten: while the program is alive, asking for the kernels comes to the same as
linking the version anew, by any manager there is; kernels are kept under the conformances and
for the identifier they were linked for; what is kept stays, in its place; and there is one entry
for each list of conformances that calls for kernels linked the version for, and each such list
was linked once. Linking anew touches neither what is kept nor the programs. -/
theorem kernels_cache_transparent (steady : B.Steady) (files : FileTree)
    (managers : List (Manager B)) (requests : List Request) :
    let archive := (opening files managers).run requests
    let linked := (opening files managers).linkings requests
    linked.Nodup ∧
    (∀ version ∈ archive.versions,
      (∀ owner, archive.world.program? version.program = some owner →
        ∃ outcome next, archive.world.kernelsOf version = some (outcome, next) ∧
          owner.manager < archive.world.managers.length ∧
          ∀ manager, manager < archive.world.managers.length → ∃ logged later,
            archive.world.createKernels manager version.program version "" =
                some (logged, later) ∧
              outcome.map Kernels.linked = logged.outcome.map Kernels.linked) ∧
      (∀ entry ∈ archive.world.cachedKernels version,
        entry.kernels.linked.conformances = entry.conformances ∧
          entry.kernels.linked.versionId = version.id) ∧
      (∀ more, archive.world.cachedKernels version <+:
        (archive.run more).world.cachedKernels version) ∧
      (archive.world.cachedKernels version).length =
        (conformancesOf linked version.serial).dedup.length) ∧
    (∀ manager program version log logged later,
      archive.world.createKernels manager program version log = some (logged, later) →
        later.kernels = archive.world.kernels ∧
          ∀ other, later.program? other = archive.world.program? other) := by
  intro archive linked
  have sound : archive.Sound := sound_reached files managers requests
  have kept : archive.Kept :=
    (kept_opening files managers).run (sound_opening files managers) requests
  have labels : archive.world.kernels.map CachedKernels.label = linked :=
    (sound_opening files managers).kept_labels requests
  have once : linked.Nodup := labels ▸ kept.once
  refine ⟨once, ?_, ?_⟩
  · intro version held
    refine ⟨?_, ?_, ?_, ?_⟩
    · intro owner present
      obtain ⟨outcome, next, answered, agree⟩ :=
        kept.kernels_as_linked sound steady held present
      obtain ⟨setup, managed, _⟩ := sound.world.managed _ owner present
      obtain ⟨manager, lookup, _⟩ := archive.world.manager_of_setup managed
      exact ⟨outcome, next, answered, (List.getElem?_eq_some_iff.mp lookup).1, agree⟩
    · intro entry isCached
      obtain ⟨present, serial⟩ := List.mem_filter.mp isCached
      have genuine := kept.found sound present held (by simpa using serial)
      exact genuine.labels.symm
    · intro more
      exact (sound.follows_run more).kernels.filter _
    · have cached := conformances_of_cached archive.world version
      rw [labels] at cached
      rw [List.dedup_eq_self.mpr (conformances_of_nodup once version.serial), ← cached,
        List.length_map]
  · intro manager program version log logged later created
    have quiet := World.quiet_create_kernels created
    exact ⟨quiet.kernels, quiet.programs⟩

/-- A version is linked twice, its program forgets it, and it answers as before. -/
theorem kernels_cache_after_reset :
    let requests : List Request := [.operate (.newProgram 0 .oneKernel ∅),
      .operate (.activeVersion 0), .kernelsOf 0,
      .operate (.editProgram 0 (.addConformance "Lambert" "IMaterial" 1)), .kernelsOf 0,
      .kernelsOf 0, .operate (.resetProgram 0), .kernelsOf 0]
    let archive := (opening {} [Manager.echo]).run requests
    Backend.echo.Steady ∧ ∃ version ∈ archive.versions, ∃ owner,
      archive.world.program? 0 = some owner ∧ owner.state.versions.length = 0 ∧
      (archive.world.cachedKernels version).length = 2 ∧
      ∃ outcome next logged later, archive.world.kernelsOf version = some (outcome, next) ∧
        archive.world.createKernels 0 0 version "" = some (logged, later) ∧
        outcome.map Kernels.linked = logged.outcome.map Kernels.linked := by
  intro requests archive
  have serials : archive.versions.map (fun version => (version.serial, version.program)) =
      [(0, 0)] := by
    decide +kernel
  have forgotten : (archive.world.program? 0).map
      (fun owner => (owner.manager, owner.state.versions.length)) = some (0, 0) := by
    decide +kernel
  have twice : (conformancesOf ((opening {} [Manager.echo]).linkings requests) 0).dedup.length =
      2 := by
    decide +kernel
  obtain ⟨version, held, values⟩ : ∃ version ∈ archive.versions,
      (version.serial, version.program) = (0, 0) :=
    List.mem_map.mp (serials ▸ List.mem_singleton.mpr rfl)
  obtain ⟨serial, program⟩ := Prod.mk.inj values
  obtain ⟨owner, present, ownerValues⟩ := Option.map_eq_some_iff.mp forgotten
  obtain ⟨managedBy, without⟩ := Prod.mk.inj ownerValues
  obtain ⟨_, transparent, _⟩ := kernels_cache_transparent echo_steady {} [Manager.echo] requests
  obtain ⟨agree, _, _, count⟩ := transparent version held
  obtain ⟨outcome, next, answered, inRange, linked⟩ := agree owner (program ▸ present)
  obtain ⟨logged, later, created, same⟩ := linked 0 (managedBy ▸ inRange)
  rw [program] at created
  refine ⟨echo_steady, version, held, owner, present, without, ?_, outcome, next, logged, later,
    answered, created, same⟩
  rw [count, serial, twice]

end Archive

end ShaderCache
