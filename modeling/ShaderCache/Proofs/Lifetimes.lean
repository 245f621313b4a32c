import ShaderCache.Proofs.Echo
import ShaderCache.Proofs.Origins
import ShaderCache.Proofs.RequestEffects

/-!
# Lifetimes

A program is alive from the request that makes it to the one that drops it. As long as it is, all
of its versions can be linked, and when it is dropped all of them are orphaned for good, also those
that the program never kept. Nothing else orphans a version, and nothing changes one.
-/

set_option autoImplicit false

namespace ShaderCache

variable {B : Backend}

namespace Archive

variable {archive : Archive B}

/-! ## Programs that are alive -/

theorem Sound.alive_after (sound : archive.Sound) {program : Nat}
    (numbered : program < archive.world.programCount) (request : Request) :
    ((archive.after request).world.program? program).isSome = true ↔
      (archive.world.program? program).isSome = true ∧
        request ≠ .operate (.dropProgram program) := by
  have moves := sound.moves request
  generalize (archive.after request).world = next at moves ⊢
  cases moves with
  | created managed creates =>
      rw [creates.programs, if_neg (Nat.ne_of_lt numbered)]
      simp
  | @dropped dropped found _ present drops =>
      rw [drops.programs]
      by_cases here : program = dropped
      · simp [here]
      · simp [here, Ne.symm here]
  | searched => simp
  | configured alters =>
      rw [alters.programs, Option.isSome_map]
      exact (and_iff_left (by simp)).symm
  | altered undropped unsearched alters =>
      rw [alters.programs, Option.isSome_map]
      refine ⟨fun alive => ⟨alive, ?_⟩, And.left⟩
      rintro rfl
      change (archive.world.program? program).isSome = true at alive
      simp [undropped program rfl] at alive

/-- A program that was made is alive until it is dropped, by induction on the requests. -/
theorem Sound.alive_run {archive : Archive B} (sound : archive.Sound) {program : Nat}
    (numbered : program < archive.world.programCount) (requests : List Request) :
    ((archive.run requests).world.program? program).isSome = true ↔
      (archive.world.program? program).isSome = true ∧
        .operate (.dropProgram program) ∉ requests := by
  induction requests generalizing archive with
  | nil => simp [Archive.run]
  | cons request rest ih =>
      have later := Nat.lt_of_lt_of_le numbered (sound.advances request).programCount
      rw [Archive.run, ih (sound.after request) later, sound.alive_after numbered, and_assoc,
        List.mem_cons, not_or, ne_comm]

/-- At the moment at which a version is made its program is alive. -/
theorem Sound.alive_made (sound : archive.Sound) {request : Request} {version : Version B}
    (made : archive.world.made? request = some version) :
    ((archive.after request).world.program? version.program).isSome = true := by
  obtain ⟨found, facts⟩ := (sound.advances request).made version made
  have numbered := sound.world.numbered _ _ facts.present
  rw [sound.alive_after numbered, facts.present]
  refine ⟨rfl, ?_⟩
  rintro rfl
  have asked := (sound.world.originates made).asked
  simp [Request.compiles?, Request.activates?] at asked

/-! ## Versions that are orphaned -/

theorem Sound.orphaned_iff (sound : archive.Sound) {version : Version B}
    (held : version ∈ archive.versions) :
    archive.world.isOrphaned version = true ↔
      ¬ (archive.world.program? version.program).isSome = true := by
  rw [World.isOrphaned, sound.owner held]
  simp

end Archive

theorem link_outcome_mismatch {desc : ProgramDesc} {description : String}
    {conformances : ConformanceList} {input : LinkInput B} {work : Work B.State} :
    linkOutcome desc description conformances input work ≠ .error .versionMismatch := by
  unfold linkOutcome
  cases (LinkedKernels.job desc conformances input).run work with
  | mk outcome after =>
      cases outcome with
      | ok linked => simp
      | error stopped =>
          obtain ⟨cause, log⟩ := stopped
          cases cause <;> simp [LinkFailure.toError]

namespace World

variable {world : World B} {version : Version B}

/-- Nobody gets kernels from the version, whatever was kept for it. -/
structure CutOff (world : World B) (version : Version B) : Prop where
  kernels : world.kernelsOf version = some (.error .orphaned, world)
  linking : ∀ manager program log, (world.program? program).isSome = true →
    world.createKernels manager program version log = some (⟨log, .error .orphaned⟩, world)

theorem cut_off_of_orphaned (orphaned : world.isOrphaned version = true) :
    CutOff world version := by
  have unowned : world.owner? version = none := by simpa [isOrphaned] using orphaned
  constructor
  · simp only [kernelsOf, unowned]
  · intro manager program log alive
    obtain ⟨found, present⟩ := Option.isSome_iff_exists.mp alive
    simp only [createKernels, present, unowned, Option.bind_eq_bind, Option.bind_some]

/-- Only the program of a version can have it linked. -/
theorem create_kernels_mismatch {owner : Program B} (owned : world.owner? version = some owner)
    {manager program : Nat} (managed : manager < world.managers.length)
    (alive : (world.program? program).isSome = true) (log : String) :
    ∃ logged next, world.createKernels manager program version log = some (logged, next) ∧
      (logged.outcome = .error .versionMismatch ↔ program ≠ version.program) := by
  by_cases mine : version.program = program
  · have setup := world.setup_of_manager (List.getElem?_eq_getElem managed)
    obtain ⟨logged, next, created, links⟩ := create_kernels_links owned mine setup log
    refine ⟨logged, next, created, ?_⟩
    have matching : logged.outcome ≠ .error .versionMismatch := by
      intro mismatch
      rw [mismatch] at links
      cases links with
      | failed managedBy fails quiet ids => exact link_outcome_mismatch fails
    simp [matching, mine]
  · obtain ⟨found, present⟩ := Option.isSome_iff_exists.mp alive
    refine ⟨⟨log, .error .versionMismatch⟩, world, ?_, by simpa using Ne.symm mine⟩
    simp only [createKernels, present, owned, mine, ↓reduceIte, Option.bind_eq_bind,
      Option.bind_some]

end World

namespace Archive

variable {archive : Archive B}

/-- Sweeps, resets and drops leave the versions that there are, and the kernels that they have. -/
theorem Sound.versions_untouched (sound : archive.Sound) {operation : Operation}
    (forgets : operation.sweeping = true ∨ ∃ program, operation = .dropProgram program) :
    (archive.after (.operate operation)).versions = archive.versions ∧
      ∀ version, (archive.after (.operate operation)).world.cachedKernels version =
        archive.world.cachedKernels version := by
  have unmade : archive.world.made? (.operate operation) = none := by
    rcases forgets with sweeping | ⟨program, rfl⟩
    · exact made_of_sweeping sweeping
    · rfl
  have unasked : (Request.operate operation).asksKernels = false := by
    rcases forgets with sweeping | ⟨program, rfl⟩
    · cases operation with
      | activeKernels program => simp [Operation.sweeping] at sweeping
      | _ => rfl
    · rfl
  constructor
  · simp [Archive.after, unmade]
  · intro version
    simp only [World.cachedKernels, Archive.after, sound.kept_unless_asked unasked]

/-- A version that a request of a run made is orphaned after the run exactly when its program was
dropped since. It then stays so, and nobody gets kernels from it. Before that, any manager links it
for its program and no other one. It is the same version all the time, and has the kernels that it
had whatever is swept, reset or dropped. -/
theorem orphaned_iff_dropped (files : FileTree) (managers : List (Manager B))
    (earlier later : List Request) {request : Request} {version : Version B}
    (made : ((opening files managers).run earlier).world.made? request = some version) :
    let archive := (opening files managers).run (earlier ++ request :: later)
    let drop := Request.operate (.dropProgram version.program)
    request.compiles? = some version.program ∧
    archive.versions[version.serial]? = some version ∧
    (archive.world.isOrphaned version = true ↔ drop ∈ later) ∧
    (drop ∈ later → archive.world.CutOff version ∧
      ∀ more, (archive.run more).world.isOrphaned version = true) ∧
    (drop ∉ later → ∀ manager program log, manager < archive.world.managers.length →
      (archive.world.program? program).isSome = true →
      ∃ logged next, archive.world.createKernels manager program version log =
          some (logged, next) ∧
        (logged.outcome = .error .versionMismatch ↔ program ≠ version.program)) ∧
    ∀ operation, (operation.sweeping = true ∨ ∃ program, operation = .dropProgram program) →
      (archive.after (.operate operation)).versions = archive.versions ∧
      (archive.after (.operate operation)).world.cachedKernels version =
        archive.world.cachedKernels version := by
  intro archive drop
  let before := (opening files managers).run earlier
  have soundBefore : before.Sound := sound_reached files managers earlier
  have asked := (soundBefore.world.originates made).asked
  have archive_eq : archive = (before.after request).run later := run_append _ earlier _
  have sound : archive.Sound := sound_reached files managers _
  have soundMade := soundBefore.after request
  have heldMade : version ∈ (before.after request).versions :=
    List.mem_append_right _ (Option.mem_toList.mpr made)
  have numberedMade := soundMade.programs version heldMade
  have held : version ∈ archive.versions :=
    archive_eq ▸ (soundMade.follows_run later).versions version heldMade
  have alive : (archive.world.program? version.program).isSome = true ↔ drop ∉ later := by
    rw [archive_eq, soundMade.alive_run numberedMade]
    exact and_iff_right (soundBefore.alive_made made)
  have orphaned : archive.world.isOrphaned version = true ↔ drop ∈ later := by
    rw [sound.orphaned_iff held, alive, not_not]
  refine ⟨asked, sound.lookup held, orphaned, ?_, ?_, ?_⟩
  · intro dropped
    refine ⟨World.cut_off_of_orphaned (orphaned.mpr dropped), ?_⟩
    intro more
    have heldLater := (sound.follows_run more).versions version held
    rw [(sound.run more).orphaned_iff heldLater, sound.alive_run (sound.programs version held)]
    intro aliveLater
    exact alive.mp aliveLater.1 dropped
  · intro undropped manager program log managed programAlive
    obtain ⟨owner, present⟩ := Option.isSome_iff_exists.mp (alive.mpr undropped)
    exact World.create_kernels_mismatch ((sound.owner held).trans present) managed programAlive log
  · intro operation forgets
    obtain ⟨versions, kernels⟩ := sound.versions_untouched forgets
    exact ⟨versions, kernels version⟩

/-- The version of one of two programs has kernels, which another program cannot have linked. When
its program is dropped the kernels are still there, and nobody gets them. -/
theorem orphaned_iff_dropped_with_kernels :
    let start := opening {} [Manager.echo]
    let earlier : List Request := [.operate (.newProgram 0 .oneKernel ∅),
      .operate (.newProgram 0 .oneKernel ∅)]
    let request : Request := .operate (.activeVersion 0)
    let kept := start.run (earlier ++ request :: [.kernelsOf 0])
    let gone := start.run (earlier ++ request :: [.kernelsOf 0, .operate (.dropProgram 0)])
    ∃ version, (start.run earlier).world.made? request = some version ∧
      kept.world.isOrphaned version = false ∧ (kept.world.cachedKernels version).length = 1 ∧
      (∃ logged next, kept.world.createKernels 0 1 version "" = some (logged, next) ∧
        logged.outcome = .error .versionMismatch) ∧
      gone.world.isOrphaned version = true ∧ (gone.world.cachedKernels version).length = 1 ∧
      gone.world.CutOff version := by
  intro start earlier request kept gone
  have isMade : ((start.run earlier).world.made? request).map
      (fun version => (version.serial, version.program)) = some (0, 0) := by
    decide +kernel
  have kernelsKept : kept.versions[0]?.map
      (fun version => (kept.world.cachedKernels version).length) = some 1 := by
    decide +kernel
  have kernelsGone : gone.versions[0]?.map
      (fun version => (gone.world.cachedKernels version).length) = some 1 := by
    decide +kernel
  obtain ⟨version, made, numbers⟩ := Option.map_eq_some_iff.mp isMade
  obtain ⟨serial, program⟩ := Prod.mk.inj numbers
  have undropped : Request.operate (.dropProgram version.program) ∉ [.kernelsOf 0] := by simp
  have dropped : Request.operate (.dropProgram version.program) ∈
      [.kernelsOf 0, .operate (.dropProgram 0)] := by simp [program]
  obtain ⟨_, heldKept, orphanedKept, _, linking, _⟩ :=
    orphaned_iff_dropped {} [Manager.echo] earlier [.kernelsOf 0] made
  obtain ⟨_, heldGone, orphanedGone, cutOff, _, _⟩ := orphaned_iff_dropped {} [Manager.echo]
    earlier [.kernelsOf 0, .operate (.dropProgram 0)] made
  obtain ⟨logged, next, created, mismatch⟩ :=
    linking undropped 0 1 "" (by decide +kernel) (by decide +kernel)
  refine ⟨version, made, ?_, ?_, ⟨logged, next, created, ?_⟩, orphanedGone.mpr dropped, ?_,
    (cutOff dropped).1⟩
  · exact Bool.eq_false_iff.mpr fun orphaned => undropped (orphanedKept.mp orphaned)
  · rw [serial] at heldKept
    rw [heldKept] at kernelsKept
    exact Option.some.inj kernelsKept
  · rw [mismatch, program]
    decide
  · rw [serial] at heldGone
    rw [heldGone] at kernelsGone
    exact Option.some.inj kernelsGone

end Archive

end ShaderCache
