import ShaderCache.Proofs.KeptKernels

/-!
# Origins of versions

Every version that is there was made by one request of the run, and was compiled from what its
program and a manager were at that moment. The versions that a program keeps for its own use were
made by calls for its active version or for the kernels of it, with the manager of the program.
-/

set_option autoImplicit false

namespace ShaderCache

variable {B : Backend}

namespace Request

/-- The program whose active version a request asks for. -/
def activates? : Request → Option Nat
  | .operate (.activeVersion program) => some program
  | .operate (.activeKernels program) => some program
  | _ => none

/-- The program that a request may compile. -/
def compiles? : Request → Option Nat
  | .createVersion _ program _ => some program
  | request => request.activates?

end Request

namespace World

variable {world : World B}

/-- The manager that a request compiles with: a program compiles with its own for its own use. -/
def compiler? (world : World B) : Request → Option Nat
  | .createVersion manager _ _ => some manager
  | request => (request.activates?.bind world.program?).map Program.manager

theorem compiler_of_activates {request : Request} {program : Nat}
    (asked : request.activates? = some program) :
    world.compiler? request = (world.program? program).map Program.manager := by
  cases request with
  | createVersion manager other log => simp [Request.activates?] at asked
  | _ => simp [compiler?, asked]

/-- The version is what compiling its program came to in this world. -/
structure CompiledFrom (world : World B) (found : Program B) (compiler : Manager B) (log : String)
    (version : Version B) : Prop where
  present : world.program? version.program = some found
  serial : version.serial = world.versionCount
  name : version.name = found.description
  defines : version.defines = found.state.defines
  compiled : compileOutcome (compiler.context world.files) found.desc found.description
    found.state.defines (world.workOf compiler log) = .ok version.compiled

/-- How a request comes to make a version. -/
structure Originates (world : World B) (request : Request) (version : Version B) : Prop where
  asked : request.compiles? = some version.program
  compiled : ∃ manager compiler found log, world.compiler? request = some manager ∧
    world.managers[manager]? = some compiler ∧ world.CompiledFrom found compiler log version

theorem Sound.compiled_active (sound : world.Sound) {program : Nat} {version : Version B}
    (made : world.activeMade? program = some version) :
    version.program = program ∧ ∃ compiler found, world.managers[found.manager]? = some compiler ∧
      world.CompiledFrom found compiler "" version := by
  cases present : world.program? program with
  | none => simp [activeMade?, active_version_absent world present] at made
  | some found =>
      obtain ⟨outcome, next, answered, resolves⟩ := sound.active_version_resolves present
      have makes := sound.makes_active present answered resolves
      rw [made] at makes
      cases makes with
      | made managed makes quiet => exact ⟨rfl, _, found, managed, present, rfl, rfl, rfl, makes⟩

theorem compiled_separately {manager program : Nat} {log : String} {version : Version B}
    (made : world.made? (.createVersion manager program log) = some version) :
    version.program = program ∧ ∃ compiler found, world.managers[manager]? = some compiler ∧
      world.CompiledFrom found compiler log version := by
  simp only [made?] at made
  cases present : world.program? program with
  | none => simp [create_version_absent world log (.inl present)] at made
  | some found =>
      cases managed : world.setup? manager with
      | none => simp [create_version_absent world log (.inr managed)] at made
      | some setup =>
          obtain ⟨logged, next, created, compiles⟩ :=
            create_version_compiles world present managed log
          simp only [created, Option.bind_some] at made
          obtain ⟨kept, outcome⟩ := logged
          cases compiles with
          | failed managedBy fails quiet ids => simp [Except.toOption] at made
          | @made compiler compiled _ managedBy makes quiet id ids =>
              cases made
              rw [world.setup_of_manager managedBy] at managed
              cases managed
              exact ⟨rfl, compiler, found, managedBy, present, rfl, rfl, rfl, makes⟩

theorem Sound.originates (sound : world.Sound) {request : Request} {version : Version B}
    (made : world.made? request = some version) : Originates world request version := by
  cases request with
  | createVersion manager program log =>
      obtain ⟨rfl, compiler, found, managed, compiled⟩ := compiled_separately made
      exact ⟨rfl, manager, compiler, found, log, rfl, managed, compiled⟩
  | operate operation =>
      cases operation with
      | activeVersion program | activeKernels program =>
          obtain ⟨rfl, compiler, found, managed, compiled⟩ := sound.compiled_active made
          refine ⟨rfl, found.manager, compiler, found, "", ?_, managed, compiled⟩
          simp [compiler?, Request.activates?, compiled.present]
      | _ => simp [made?] at made
  | _ => simp [made?] at made

end World

namespace Archive

variable {archive : Archive B}

/-- A request of the run, after which the others came, made the version. -/
def MadeIn (archive : Archive B) (requests : List Request) (version : Version B) : Prop :=
  ∃ earlier request later, requests = earlier ++ request :: later ∧
    (archive.run earlier).world.made? request = some version

/-- What is there after a run was there before it or was made in it, by induction on the
requests. -/
theorem made_in_run {archive : Archive B} {requests : List Request} {version : Version B}
    (held : version ∈ (archive.run requests).versions) :
    version ∈ archive.versions ∨ archive.MadeIn requests version := by
  induction requests generalizing archive with
  | nil => exact .inl held
  | cons request rest ih =>
      rcases ih held with now | ⟨earlier, step, later, rfl, made⟩
      · rcases List.mem_append.mp now with before | last
        · exact .inl before
        · exact .inr ⟨[], request, rest, rfl, Option.mem_toList.mp last⟩
      · exact .inr ⟨request :: earlier, step, later, rfl, made⟩

/-! ## Programs -/

/-- A program that was made keeps its manager and its description, by induction on the requests. -/
theorem Sound.remains_run {archive : Archive B} (sound : archive.Sound) {program : Nat}
    (numbered : program < archive.world.programCount) {requests : List Request}
    {later : Program B} (present : (archive.run requests).world.program? program = some later) :
    ∃ former, archive.world.program? program = some former ∧ later.manager = former.manager ∧
      later.desc = former.desc ∧ later.description = former.description := by
  induction requests generalizing archive with
  | nil => exact ⟨later, present, rfl, rfl, rfl⟩
  | cons request rest ih =>
      have advances := sound.advances request
      obtain ⟨between, betweenPresent, manager, desc, description⟩ :=
        ih (sound.after request) (Nat.lt_of_lt_of_le numbered advances.programCount) present
      cases advances.programs program between betweenPresent with
      | newborn number => exact absurd number (Nat.not_le_of_lt numbered)
      | @remaining former formerPresent remains =>
          exact ⟨former, formerPresent, manager.trans remains.manager, desc.trans remains.desc,
            description.trans remains.description⟩

/-- A version came of compiling the description of its program. -/
theorem compiled_of_held (files : FileTree) (managers : List (Manager B))
    {requests : List Request} {version : Version B} {found : Program B}
    (held : version ∈ ((opening files managers).run requests).versions)
    (present : ((opening files managers).run requests).world.program? version.program =
      some found) :
    ∃ (context : CompileContext) (defines : DefineList) (work : Work B.State),
      compileOutcome context found.desc found.description defines work = .ok version.compiled := by
  rcases made_in_run held with before | ⟨earlier, request, later, rfl, made⟩
  · simp [opening] at before
  · have sound := sound_reached files managers earlier
    obtain ⟨_, compiler, compiledOf, log, _, _, compiled⟩ := (sound.world.originates made).compiled
    rw [run_append] at present
    obtain ⟨former, formerPresent, _, desc, description⟩ :=
      sound.remains_run (sound.world.numbered _ _ compiled.present) present
    cases compiled.present.symm.trans formerPresent
    rw [desc, description]
    exact ⟨_, _, _, compiled.compiled⟩

/-! ## Versions that a program keeps -/

theorem Sound.programs_separately (sound : archive.Sound) (manager program : Nat) (log : String)
    (other : Nat) :
    (archive.after (.createVersion manager program log)).world.program? other =
      archive.world.program? other := by
  have serves := archive.serves sound.world (.createVersion manager program log)
  unfold Archive.after
  generalize (archive.world.serve archive.versions (.createVersion manager program log)).2 = next
    at serves ⊢
  generalize archive.world.made? (.createVersion manager program log) = made at serves
  cases serves with
  | compiled present compiles =>
      cases compiles with
      | failed managed fails quiet ids => exact quiet.programs other
      | made managed makes quiet id ids => exact quiet.programs other
  | passed quiet => exact quiet.programs other

/-- What a program keeps after a request it kept before, or the request asked for it. -/
theorem Sound.produced_after (sound : archive.Sound) {request : Request} {program : Nat}
    {later : Program B} (present : (archive.after request).world.program? program = some later)
    {version : Version B} (isProduced : version ∈ later.state.produced) :
    ∃ former, archive.world.program? program = some former ∧ later.manager = former.manager ∧
      (version ∈ former.state.produced ∨
        request.activates? = some program ∧ archive.world.made? request = some version) := by
  have owner := ((sound.after request).world.owned program later present version isProduced).1
  cases (sound.advances request).programs program later present with
  | newborn number indexed unproduced => simp [unproduced] at isProduced
  | @remaining former formerPresent remains =>
      refine ⟨former, formerPresent, remains.manager, ?_⟩
      rcases remains.produced version isProduced with before | made
      · exact .inl before
      · have asked := (sound.world.originates made).asked
        rw [owner] at asked
        cases request with
        | createVersion manager compiled log =>
            rw [sound.programs_separately, formerPresent] at present
            cases present
            exact .inl isProduced
        | _ => exact .inr ⟨asked, made⟩

/-- What a program keeps after a run it kept before, or a request of the run asked for it, and its
manager compiled it. By induction on the requests. -/
theorem Sound.produced_in_run {archive : Archive B} (sound : archive.Sound)
    {requests : List Request} {program : Nat} {later : Program B}
    (present : (archive.run requests).world.program? program = some later)
    {version : Version B} (isProduced : version ∈ later.state.produced) :
    (∃ former, archive.world.program? program = some former ∧ later.manager = former.manager ∧
        version ∈ former.state.produced) ∨
      ∃ earlier request rest, requests = earlier ++ request :: rest ∧
        request.activates? = some program ∧
        (archive.run earlier).world.made? request = some version ∧
        (archive.run earlier).world.compiler? request = some later.manager := by
  induction requests generalizing archive with
  | nil => exact .inl ⟨later, present, rfl, isProduced⟩
  | cons request rest ih =>
      rcases ih (sound.after request) present with
        ⟨between, betweenPresent, manager, kept⟩ | ⟨earlier, step, others, rfl, found⟩
      · obtain ⟨former, formerPresent, sameManager, kept | ⟨asked, made⟩⟩ :=
          sound.produced_after betweenPresent kept
        · exact .inl ⟨former, formerPresent, manager.trans sameManager, kept⟩
        · refine .inr ⟨[], request, rest, rfl, asked, made, ?_⟩
          simp only [Archive.run, World.compiler_of_activates asked, formerPresent, Option.map_some,
            manager, sameManager]
      · exact .inr ⟨request :: earlier, step, others, rfl, found⟩

end Archive

end ShaderCache
