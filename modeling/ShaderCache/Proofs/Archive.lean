import ShaderCache.Proofs.RunInvariant
import ShaderCache.Proofs.Renumbering

/-!
# Archives

What a client can ask for, one request after the other, and the versions that are made on the
way. A client may hold on to a version that its program has forgotten, so an archive has them
all, by serial number.
-/

set_option autoImplicit false

namespace ShaderCache

variable {B : Backend}

inductive Request where
  | operate (operation : Operation)
  /-- Compiles a program whatever versions it keeps. -/
  | createVersion (manager program : Nat) (log : String)
  | kernelsOf (version : Nat)
  /-- Links a version whatever kernels it keeps. -/
  | createKernels (manager program version : Nat) (log : String)
  | addSearchPath (manager : Nat) (path : Path)
  | findFile (manager : Nat) (path : Path)
  | resetCounts (manager : Nat)
  | inspectManager (manager : Nat)
  | inspectProgram (program : Nat)
  | inspectVersion (version : Nat)

structure ManagerView where
  settings : Settings
  searchPaths : List Path
  registered : Nat
  counts : CompilationCounts

structure ProgramView where
  id : UInt64
  manager : Nat
  description : String
  key : ProgramKey
  dirty : Bool
  kept : Nat

structure VersionView (B : Backend) where
  version : Version B
  orphaned : Bool
  kept : Nat

inductive Response (B : Backend) where
  | silence
  | flag (value : Bool)
  | number (program : Nat)
  | file (outcome : Except SourceError Path)
  | version (log : String) (outcome : Except ProgramError (Version B))
  | kernels (log : String) (outcome : Except ProgramError (Kernels B))
  | managerView (view : ManagerView)
  | programView (view : ProgramView)
  | versionView (view : VersionView B)

namespace Manager

def view (manager : Manager B) : ManagerView :=
  ⟨manager.settings, manager.resolver.searchPaths, manager.registry.length, manager.counts⟩

end Manager

namespace Program

def view (program : Program B) : ProgramView :=
  ⟨program.id, program.manager, program.description, program.state.key, program.state.dirty,
    program.state.versions.length⟩

end Program

namespace World

def versionView (world : World B) (version : Version B) : VersionView B :=
  ⟨version, world.isOrphaned version, (world.cachedKernels version).length⟩

/-- The response and the world after a call, or silence if the call had nobody to go to. -/
def respondWith {Value : Type} (world : World B) (response : Value → Response B) :
    Option (Value × World B) → Response B × World B
  | some (value, next) => (response value, next)
  | none => (.silence, world)

def reply (world : World B) : Operation → Response B
  | .newProgram manager desc defines =>
      (world.respondWith .number (world.newProgram manager desc defines)).1
  | .dropProgram program => .flag (world.dropProgram program).isSome
  | .editProgram program edit => (world.respondWith .flag (world.editProgram program edit)).1
  | .resetProgram _ => .silence
  | .editSettings _ _ => .silence
  | .reload manager force => .flag (world.reload manager force).1
  | .activeVersion program =>
      (world.respondWith (.version "") (world.activeVersion program)).1
  | .activeKernels program =>
      (world.respondWith (.kernels "") (world.activeKernels program)).1

/-- What is asked of a version goes to the one with that serial number, if there is one. -/
def serve (world : World B) (versions : List (Version B)) : Request → Response B × World B
  | .operate operation => (world.reply operation, (world.perform operation).2)
  | .createVersion manager program log =>
      world.respondWith (fun logged => .version logged.log logged.outcome)
        (world.createVersion manager program log)
  | .kernelsOf serial =>
      world.respondWith (.kernels "")
        (versions[serial]?.bind fun version => world.kernelsOf version)
  | .createKernels manager program serial log =>
      world.respondWith (fun logged => .kernels logged.log logged.outcome)
        (versions[serial]?.bind fun version => world.createKernels manager program version log)
  | .addSearchPath manager path =>
      (.flag (world.addSearchPath manager path).1, (world.addSearchPath manager path).2)
  | .findFile manager path => (.file (world.findFile manager path), world)
  | .resetCounts manager => (.silence, world.resetCounts manager)
  | .inspectManager manager =>
      ((world.managers[manager]?).elim .silence fun found => .managerView found.view, world)
  | .inspectProgram program =>
      ((world.program? program).elim .silence fun found => .programView found.view, world)
  | .inspectVersion serial =>
      ((versions[serial]?).elim .silence fun version =>
        .versionView (world.versionView version), world)

/-- The version that a call for the active version of a program makes. -/
def activeMade? (world : World B) (program : Nat) : Option (Version B) :=
  match world.activeVersion program with
  | some (.ok version, _) => if version.serial = world.versionCount then some version else none
  | _ => none

/-- The version that a request makes, if it makes one. -/
def made? (world : World B) : Request → Option (Version B)
  | .operate (.activeVersion program) => world.activeMade? program
  | .operate (.activeKernels program) => world.activeMade? program
  | .createVersion manager program log =>
      (world.createVersion manager program log).bind fun answer => answer.1.outcome.toOption
  | _ => none

end World

structure Archive (B : Backend) where
  world : World B
  /-- Every version that was made, at the place of its serial number. -/
  versions : List (Version B) := []

namespace Archive

def opening (files : FileTree) (managers : List (Manager B)) : Archive B :=
  { world := World.opening files managers }

def after (archive : Archive B) (request : Request) : Archive B :=
  ⟨(archive.world.serve archive.versions request).2,
    archive.versions ++ (archive.world.made? request).toList⟩

def respond (archive : Archive B) (request : Request) : Response B :=
  (archive.world.serve archive.versions request).1

def run (archive : Archive B) : List Request → Archive B
  | [] => archive
  | request :: rest => (archive.after request).run rest

def responses (archive : Archive B) : List Request → List (Response B)
  | [] => []
  | request :: rest => archive.respond request :: (archive.after request).responses rest

theorem run_append (archive : Archive B) (requests more : List Request) :
    archive.run (requests ++ more) = (archive.run requests).run more := by
  induction requests generalizing archive with
  | nil => rfl
  | cons request rest ih => exact ih (archive.after request)

end Archive

namespace World

/-! ## Calls for versions -/

variable (world : World B)

/-- A call for the active version of a program makes none or one. -/
inductive MakesActive (program : Nat) (found : Program B) :
    Option (Version B) → World B → Prop where
  | unmade {change : ProgramState B → ProgramState B} {next : World B}
      (alters : Alters world next (changeOf program change))
      (produced : ∀ state, (change state).produced = state.produced) :
      MakesActive program found none next
  | made {manager : Manager B} {compiled : CompiledVersion B} {next : World B}
      (managed : world.managers[found.manager]? = some manager)
      (makes : compileOutcome (manager.context world.files) found.desc found.description
        found.state.defines (world.workOf manager "") = .ok compiled)
      (quiet : Quiet
        ({ world with versionCount := world.versionCount + 1 }.modifyState program fun state =>
          state.commit found.state.key (world.freshVersion program found compiled)) next) :
      MakesActive program found (some (world.freshVersion program found compiled)) next

/-- Whether a call makes a version shows in its serial number. -/
theorem Sound.makes_active {world next : World B} (sound : world.Sound) {program : Nat}
    {found : Program B} {outcome : Except ProgramError (Version B)}
    (present : world.program? program = some found)
    (answered : world.activeVersion program = some (outcome, next))
    (resolves : Resolves world program found outcome next) :
    MakesActive world program found (world.activeMade? program) next := by
  have coherent := sound.coherent program found present
  have old : ∀ version, (found.state.key, version) ∈ found.state.versions →
      version.serial ≠ world.versionCount := by
    intro version kept
    have isProduced := sound.produced program found present _ kept
    exact Nat.ne_of_lt (sound.owned program found present version isProduced).2.1
  have idle : ∀ {later : World B}, Quiet world later →
      Alters world later (changeOf program fun state => state) := by
    intro later quiet
    have alters := quiet.alters
    exact { alters with programs := fun other => by simp [alters.programs, changeOf] }
  cases resolves with
  | @current version clean =>
      have none : world.activeMade? program = none := by
        simp [activeMade?, answered, old version (coherent.current_cached clean)]
      rw [none]
      exact .unmade (idle (Quiet.refl world)) fun _ => rfl
  | @adopted version _ unclean cached quiet ids =>
      have none : world.activeMade? program = none := by
        simp [activeMade?, answered, old version ((coherent.cached_iff _ _).mp cached)]
      rw [none]
      exact .unmade ((alters_modify_state world program _).followed quiet) fun _ => rfl
  | compiled unclean missing managed compiles =>
      cases compiles with
      | failed managedBy fails quiet ids =>
          have none : world.activeMade? program = none := by simp [activeMade?, answered]
          rw [none]
          exact .unmade (idle quiet) fun _ => rfl
      | @made manager compiled _ managedBy makes quiet id ids =>
          have some : world.activeMade? program =
              some (world.freshVersion program found compiled) := by
            simp [activeMade?, answered, freshVersion]
          rw [world.setup_of_manager managedBy] at managed
          cases managed
          rw [some]
          exact .made managedBy makes quiet

theorem create_version_compiles {manager program : Nat} {found : Program B}
    {setup : ManagerSetup} (present : world.program? program = some found)
    (managed : world.setup? manager = some setup) (log : String) :
    ∃ logged next, world.createVersion manager program log = some (logged, next) ∧
      Compiles world setup.settings manager program found found.state.defines log logged.outcome
        next := by
  obtain ⟨managedBy, lookup, rfl⟩ := world.manager_of_setup managed
  refine ⟨_, _, ?_, world.compile_in_compiles managedBy.settings program found
    found.state.defines log lookup⟩
  simp only [createVersion, present, settings?, lookup, compileUnder, Option.map_some,
    Option.bind_eq_bind, Option.bind_some]

theorem create_version_absent {manager program : Nat} (log : String)
    (absent : world.program? program = none ∨ world.setup? manager = none) :
    world.createVersion manager program log = none := by
  rcases absent with noProgram | noManager
  · simp [createVersion, noProgram]
  · have noSettings : world.settings? manager = none := by
      rw [settings_of_setup, noManager]
      rfl
    simp [createVersion, noSettings]

/-! ## Calls for kernels -/

variable {world}

theorem program_of_owner {version : Version B} {owner : Program B}
    (owned : world.owner? version = some owner) :
    world.program? version.program = some owner := by
  unfold owner? at owned
  split at owned
  next => simp at owned
  next => exact owned

/-- A version is linked for what its program is configured with, by any manager. -/
theorem create_kernels_links {manager program : Nat} {owner : Program B} {setup : ManagerSetup}
    {version : Version B} (owned : world.owner? version = some owner)
    (mine : version.program = program) (managed : world.setup? manager = some setup)
    (log : String) :
    ∃ logged next, world.createKernels manager program version log = some (logged, next) ∧
      Links world manager owner owner.state.conformances version log logged.outcome next := by
  obtain ⟨managedBy, lookup, rfl⟩ := world.manager_of_setup managed
  have present : world.program? program = some owner := mine ▸ program_of_owner owned
  refine ⟨_, _, ?_, world.link_in_links owner owner.state.conformances version log lookup⟩
  simp only [createKernels, present, owned, mine, link, lookup, ↓reduceIte, Option.bind_eq_bind,
    Option.bind_some]

/-- The call fails before anything is linked, or it links the version for what its program is
configured with. -/
theorem create_kernels_ends {manager program : Nat} {version : Version B} {log : String}
    {logged : Logged (Kernels B)} {next : World B}
    (created : world.createKernels manager program version log = some (logged, next)) :
    (next = world ∧ ∃ error, logged.outcome = .error error) ∨
      ∃ owner, world.owner? version = some owner ∧
        Links world manager owner owner.state.conformances version log logged.outcome next := by
  cases present : world.program? program with
  | none => simp [createKernels, present] at created
  | some found =>
      simp only [createKernels, present, Option.bind_eq_bind, Option.bind_some] at created
      cases owned : world.owner? version with
      | none =>
          simp only [owned, Option.some.injEq, Prod.mk.injEq] at created
          exact .inl ⟨created.2.symm, .orphaned, created.1 ▸ rfl⟩
      | some owner =>
          simp only [owned] at created
          split at created
          next =>
            cases lookup : world.managers[manager]? with
            | none => simp [link, lookup] at created
            | some managedBy =>
                have links := world.link_in_links owner owner.state.conformances version log lookup
                simp only [link, lookup, Option.bind_eq_bind, Option.bind_some,
                  Option.some.injEq] at created
                rw [created] at links
                exact .inr ⟨owner, rfl, links⟩
          next =>
            simp only [Option.some.injEq, Prod.mk.injEq] at created
            exact .inl ⟨created.2.symm, .versionMismatch, created.1 ▸ rfl⟩

theorem quiet_create_kernels {manager program : Nat} {version : Version B} {log : String}
    {logged : Logged (Kernels B)} {next : World B}
    (created : world.createKernels manager program version log = some (logged, next)) :
    Quiet world next := by
  rcases create_kernels_ends created with ⟨rfl, _⟩ | ⟨owner, _, links⟩
  · exact Quiet.refl _
  · exact links.quiet

theorem quiet_respond {Value : Type} {response : Value → Response B}
    {answer : Option (Value × World B)}
    (quiet : ∀ value next, answer = some (value, next) → Quiet world next) :
    Quiet world (world.respondWith response answer).2 := by
  cases answer with
  | none => exact Quiet.refl world
  | some pair => exact quiet pair.1 pair.2 rfl

end World

namespace Archive

open World (Compiles Links Performs Provides Quiet Resolves Supplies)

variable {archive : Archive B}

/-! ## Requests -/

theorem after_active_version {program : Nat} {outcome : Except ProgramError (Version B)}
    {next : World B} (answered : archive.world.activeVersion program = some (outcome, next)) :
    archive.after (.operate (.activeVersion program)) =
      ⟨next, archive.versions ++ (archive.world.activeMade? program).toList⟩ := by
  simp only [after, World.serve, World.perform, answered, World.conclude, World.made?]

theorem after_active_kernels {program : Nat} {outcome : Except ProgramError (Kernels B)}
    {next : World B} (answered : archive.world.activeKernels program = some (outcome, next)) :
    archive.after (.operate (.activeKernels program)) =
      ⟨next, archive.versions ++ (archive.world.activeMade? program).toList⟩ := by
  simp only [after, World.serve, World.perform, answered, World.conclude, World.made?]

theorem after_kernels_of {serial : Nat} {version : Version B}
    {outcome : Except ProgramError (Kernels B)} {next : World B}
    (lookup : archive.versions[serial]? = some version)
    (answered : archive.world.kernelsOf version = some (outcome, next)) :
    archive.after (.kernelsOf serial) = ⟨next, archive.versions⟩ := by
  simp only [after, World.serve, lookup, Option.bind_some, answered, World.respondWith,
    World.made?, Option.toList_none, List.append_nil]

/-- The ways in which a request can go, with the version that it makes. -/
inductive Serves (archive : Archive B) : Request → World B → Option (Version B) → Prop where
  | operated {operation : Operation} {answer : Answer B} {next : World B}
      (performs : Performs archive.world operation answer next) :
      Serves archive (.operate operation) next (archive.world.made? (.operate operation))
  | compiled {manager program : Nat} {log : String} {found : Program B} {settings : Settings}
      {outcome : Except ProgramError (Version B)} {next : World B}
      (present : archive.world.program? program = some found)
      (compiles : Compiles archive.world settings manager program found found.state.defines log
        outcome next) :
      Serves archive (.createVersion manager program log) next outcome.toOption
  | supplied {serial : Nat} {version : Version B} {owner : Program B}
      {outcome : Except ProgramError (Kernels B)} {next : World B}
      (lookup : archive.versions[serial]? = some version)
      (owned : archive.world.owner? version = some owner)
      (answered : archive.world.kernelsOf version = some (outcome, next))
      (supplies : Supplies archive.world version owner outcome next) :
      Serves archive (.kernelsOf serial) next none
  | searched {manager : Nat} {path : Path} :
      Serves archive (.addSearchPath manager path)
        (archive.world.addSearchPath manager path).2 none
  /-- The request changes no more than states of backends and counts. -/
  | passed {request : Request} {next : World B} (quiet : Quiet archive.world next) :
      Serves archive request next none

theorem setup_of_owner (sound : archive.world.Sound) {version : Version B} {owner : Program B}
    (owned : archive.world.owner? version = some owner) :
    ∃ setup, archive.world.setup? owner.manager = some setup := by
  have present := World.program_of_owner owned
  obtain ⟨setup, managed, _⟩ := sound.managed version.program owner present
  exact ⟨setup, managed⟩

theorem serves_kernels (sound : archive.world.Sound) (serial : Nat) :
    Serves archive (.kernelsOf serial)
      (archive.world.serve archive.versions (.kernelsOf serial)).2 none := by
  simp only [World.serve]
  cases lookup : archive.versions[serial]? with
  | none => exact .passed (Quiet.refl _)
  | some version =>
      cases owned : archive.world.owner? version with
      | none =>
          simp only [Option.bind_some, World.kernelsOf, owned, World.respondWith]
          exact .passed (Quiet.refl _)
      | some owner =>
          obtain ⟨setup, managed⟩ := setup_of_owner sound owned
          obtain ⟨outcome, next, kernels_eq, supplies⟩ :=
            archive.world.kernels_of_supplies owned managed
          simp only [Option.bind_some, kernels_eq, World.respondWith]
          exact .supplied lookup owned kernels_eq supplies

theorem serves_linking (archive : Archive B) (manager program serial : Nat) (log : String) :
    Serves archive (.createKernels manager program serial log)
      (archive.world.serve archive.versions (.createKernels manager program serial log)).2
      none := by
  apply Serves.passed
  apply World.quiet_respond
  intro logged next answered
  obtain ⟨version, _, created⟩ := Option.bind_eq_some_iff.mp answered
  exact World.quiet_create_kernels created

/-- In a sound world every request goes in one of the ways listed. -/
theorem serves (sound : archive.world.Sound) (request : Request) :
    Serves archive request (archive.world.serve archive.versions request).2
      (archive.world.made? request) := by
  cases request with
  | operate operation => exact .operated (sound.performs operation)
  | createVersion manager program log =>
      simp only [World.serve, World.made?]
      cases present : archive.world.program? program with
      | none =>
          rw [World.create_version_absent _ log (.inl present)]
          exact .passed (Quiet.refl _)
      | some found =>
          cases managed : archive.world.setup? manager with
          | none =>
              rw [World.create_version_absent _ log (.inr managed)]
              exact .passed (Quiet.refl _)
          | some setup =>
              obtain ⟨logged, next, created_eq, compiles⟩ :=
                World.create_version_compiles _ present managed log
              rw [created_eq]
              exact .compiled present compiles
  | kernelsOf serial => exact serves_kernels sound serial
  | createKernels manager program serial log => exact serves_linking _ manager program serial log
  | addSearchPath manager path => exact .searched
  | resetCounts manager =>
      exact .passed (World.quiet_modify_manager archive.world (fun found =>
        { found with counts := {} }) (fun _ => rfl) manager)
  | _ => exact .passed (Quiet.refl _)

end Archive

end ShaderCache
