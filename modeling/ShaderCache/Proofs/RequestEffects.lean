import ShaderCache.Proofs.ArchiveInvariant

/-!
# What requests do to programs and managers

There are few things that a request can do to which programs there are and to how their managers
are set up: a program comes or goes, a manager gets settings or a search directory. All others
change the states of programs at most.
-/

set_option autoImplicit false

namespace ShaderCache

variable {B : Backend}

namespace World

variable {world next : World B}

/-- What a request does, whatever it does to states of programs and to what is kept. -/
inductive Moves (world : World B) : Request → World B → Prop where
  | created {manager : Nat} {found : Manager B} {desc : ProgramDesc} {defines : DefineList}
      {next : World B} (managed : world.managers[manager]? = some found)
      (creates : Creates manager found (world.newbornOf manager found desc defines) world next) :
      Moves world (.operate (.newProgram manager desc defines)) next
  | dropped {program : Nat} {found : Program B} {next : World B}
      (present : world.program? program = some found) (drops : Drops program found world next) :
      Moves world (.operate (.dropProgram program)) next
  | searched {manager : Nat} {path : Path} :
      Moves world (.addSearchPath manager path) (world.addSearchPath manager path).2
  | configured {manager : Nat} {edit : SettingsEdit} {next : World B}
      {change : Nat → ProgramState B → ProgramState B}
      (alters : Alters (world.written (.editSettings manager edit)) next change) :
      Moves world (.operate (.editSettings manager edit)) next
  | altered {request : Request} {next : World B} {kernels : List (CachedKernels B)}
      {versionCount : Nat} {change : Nat → ProgramState B → ProgramState B}
      (undropped : ∀ program, request = .operate (.dropProgram program) →
        world.program? program = none)
      (unsearched : ∀ manager path, request ≠ .addSearchPath manager path)
      (alters : Alters { world with kernels := kernels, versionCount := versionCount } next change) :
      Moves world request next

@[simp]
theorem program_search (world : World B) (manager : Nat) (path : Path) (program : Nat) :
    (world.addSearchPath manager path).2.program? program = world.program? program := by
  unfold addSearchPath
  split <;> rfl

theorem MakesActive.alters {program : Nat} {found : Program B} {made : Option (Version B)}
    (makes : MakesActive world program found made next) :
    ∃ versionCount change, Alters { world with versionCount := versionCount } next change := by
  cases makes with
  | unmade alters produced => exact ⟨_, _, alters⟩
  | made managed makes quiet => exact ⟨_, _, (alters_modify_state _ _ _).followed quiet⟩

theorem Alters.supplied {between : World B} {change : Nat → ProgramState B → ProgramState B}
    (alters : Alters world between change) {version : Version B} {owner : Program B}
    {outcome : Except ProgramError (Kernels B)}
    (supplies : Supplies between version owner outcome next) :
    ∃ kernels, Alters { world with kernels := kernels } next change := by
  obtain ⟨kernels, quiet, _⟩ := supplies.quiet
  have rekept : Alters { world with kernels := kernels } { between with kernels := kernels }
      change :=
    ⟨alters.files, alters.setups, alters.programs, rfl, alters.orphans, alters.programCount,
      alters.versionCount⟩
  exact ⟨kernels, rekept.followed quiet⟩

theorem moves_of_operation {operation : Operation} {kernels : List (CachedKernels B)}
    {versionCount : Nat} {change : Nat → ProgramState B → ProgramState B}
    (undropped : ∀ program, operation = .dropProgram program → world.program? program = none)
    (alters : Alters { world with kernels := kernels, versionCount := versionCount } next change) :
    Moves world (.operate operation) next :=
  .altered (fun program same => undropped program (Request.operate.inj same)) (by simp) alters

theorem moves_of_performs (sound : world.Sound) {operation : Operation} {answer : Answer B}
    (performs : Performs world operation answer next) : Moves world (.operate operation) next := by
  cases performs with
  | unmanaged absent => exact moves_of_operation (by simp) (Quiet.refl world).alters
  | untargeted target absent =>
      refine moves_of_operation ?_ (Quiet.refl world).alters
      rintro program rfl
      cases target
      exact absent
  | created managed creates => exact .created managed creates
  | dropped present drops => exact .dropped present drops
  | edited present alters ids => exact moves_of_operation (by simp) alters
  | swept sweeping alters ids =>
      cases operation with
      | editSettings manager edit => exact .configured alters
      | resetProgram program => exact moves_of_operation (by simp) alters
      | reload manager force => exact moves_of_operation (by simp) alters
      | _ => simp [Operation.sweeping] at sweeping
  | resolved present answered resolves =>
      obtain ⟨_, _, alters⟩ := (sound.makes_active present answered resolves).alters
      exact moves_of_operation (by simp) alters
  | provided present provides =>
      cases provides with
      | unresolved answered resolves =>
          obtain ⟨_, _, alters⟩ := (sound.makes_active present answered resolves).alters
          exact moves_of_operation (by simp) alters
      | resolved answered resolves settled supplies =>
          obtain ⟨_, _, alters⟩ := (sound.makes_active present answered resolves).alters
          obtain ⟨_, supplied⟩ := alters.supplied supplies
          exact moves_of_operation (by simp) supplied

end World

namespace Archive

open World (Moves Quiet)

variable {archive : Archive B}

theorem Sound.moves (sound : archive.Sound) (request : Request) :
    Moves archive.world request (archive.after request).world := by
  by_cases isOperation : ∃ operation, request = .operate operation
  · obtain ⟨operation, rfl⟩ := isOperation
    exact World.moves_of_performs sound.world (sound.world.performs operation)
  by_cases isSearch : ∃ manager path, request = .addSearchPath manager path
  · obtain ⟨manager, path, rfl⟩ := isSearch
    exact .searched
  have undropped : ∀ program, request = .operate (.dropProgram program) →
      archive.world.program? program = none :=
    fun program same => absurd ⟨_, same⟩ isOperation
  have unsearched : ∀ manager path, request ≠ .addSearchPath manager path :=
    fun manager path same => isSearch ⟨manager, path, same⟩
  have serves := archive.serves sound.world request
  unfold Archive.after
  generalize (archive.world.serve archive.versions request).2 = next at serves ⊢
  generalize archive.world.made? request = made at serves
  cases serves with
  | operated performs => exact absurd ⟨_, rfl⟩ isOperation
  | compiled present compiles =>
      cases compiles with
      | failed managed fails quiet ids => exact .altered undropped unsearched quiet.alters
      | made managed makes quiet id ids => exact .altered undropped unsearched quiet.alters
  | supplied lookup owned answered supplies =>
      obtain ⟨_, alters⟩ := (Quiet.refl archive.world).alters.supplied supplies
      exact .altered undropped unsearched alters
  | searched => exact .searched
  | passed quiet => exact .altered undropped unsearched quiet.alters

end Archive

end ShaderCache
