import ShaderCache.Proofs.Freshness

/-!
# Without caches

An implementation that keeps nothing: it compiles and links anew at every call, with the settings
and the configuration of the moment. With a steady backend it answers every operation of a run as
the one with caches does, up to the identifiers of versions and to which objects are the same.
-/

set_option autoImplicit false

namespace ShaderCache

variable {B : Backend}

namespace ProgramKey

/-- Makes a change of the configuration, with no regard to what is kept for it. -/
def edit (key : ProgramKey) : ProgramState.Edit → ProgramKey
  | .addDefine name value => { key with defines := (key.defines.add name value).2 }
  | .addDefines defines => { key with defines := (key.defines.addAll defines).2 }
  | .removeDefine name => { key with defines := (key.defines.remove name).2 }
  | .removeDefines defines => { key with defines := (key.defines.removeAll defines).2 }
  | .removeDefinesMatching position length text =>
      { key with defines := (key.defines.removeMatching position length text).2 }
  | .setDefines defines => { key with defines := defines }
  | .addConformance typeName interfaceName id =>
      if key.conformances.contains ⟨typeName, interfaceName⟩ then key
      else { key with conformances := key.conformances.add typeName interfaceName id }
  | .removeConformance typeName interfaceName =>
      { key with conformances := (key.conformances.remove typeName interfaceName).2 }
  | .setConformances conformances => { key with conformances := conformances }

end ProgramKey

theorem ProgramState.key_edit (state : ProgramState B) (edit : Edit) :
    (state.edit edit).2.key = state.key.edit edit := by
  cases edit with
  | addConformance typeName interfaceName id =>
      by_cases present : state.conformances.contains ⟨typeName, interfaceName⟩
      · simp [ProgramState.edit, addConformance, ProgramKey.edit, key, present]
      · simp [ProgramState.edit, addConformance, ProgramKey.edit, key, present, withConformances]
  | _ => rfl

/-- A program without anything that is kept for it. -/
structure PlainProgram where
  manager : Nat
  desc : ProgramDesc
  description : String
  key : ProgramKey

def Program.plain (found : Program B) : PlainProgram :=
  ⟨found.manager, found.desc, found.description, found.state.key⟩

/-- What the answer to an operation tells, up to identifiers of versions and identities of
objects. -/
inductive Content (B : Backend) where
  | silence
  | version (outcome : Except ProgramError (World.VersionContent B))
  | kernels (outcome : Except ProgramError (LinkedKernels B))

def Answer.content : Answer B → Content B
  | .silence => .silence
  | .version outcome => .version (outcome.map Version.content)
  | .kernels outcome => .kernels (outcome.map Kernels.content)

/-- The managers with their settings, and the programs that are alive, and nothing else. Backends
stay in the states that they are in at first. -/
structure Uncached (B : Backend) where
  files : FileTree
  managers : List (Manager B)
  programs : SortedMap Nat PlainProgram := ∅
  programCount : Nat := 0

namespace Uncached

variable (plain : Uncached B)

def opening (files : FileTree) (managers : List (Manager B)) : Uncached B :=
  { files, managers }

def workOf (manager : Manager B) : Work B.State :=
  ⟨manager.service, "", .initial⟩

def compile (manager : Manager B) (program : PlainProgram) :
    Except ProgramError (CompiledVersion B) :=
  compileContent (manager.context plain.files) program.desc program.description
    program.key.defines (workOf manager)

/-- Links what was compiled for a program, for its conformances of now. -/
def link (manager : Manager B) (program : PlainProgram) (compiled : CompiledVersion B) :
    Except ProgramError (LinkedKernels B) :=
  linkContent program.desc program.description program.key.conformances
    ⟨program.description, compiled.id, compiled.globalScope, compiled.entryPoints⟩
    (workOf manager)

def activeVersion (serial : Nat) :
    Option (Except ProgramError (World.VersionContent B)) := do
  let program ← plain.programs.get? serial
  let manager ← plain.managers[program.manager]?
  some ((plain.compile manager program).map fun compiled =>
    ⟨serial, program.description, program.key.defines, compiled⟩)

def activeKernels (serial : Nat) : Option (Except ProgramError (LinkedKernels B)) := do
  let program ← plain.programs.get? serial
  let manager ← plain.managers[program.manager]?
  some ((plain.compile manager program).bind (link manager program))

def newProgram (manager : Nat) (desc : ProgramDesc) (defines : DefineList) : Uncached B :=
  match plain.managers[manager]? with
  | some found =>
      let completed := found.complete desc
      { plain with
        programs := plain.programs.insert plain.programCount
          ⟨manager, completed, completed.describe, ⟨defines, completed.conformances⟩⟩
        programCount := plain.programCount + 1 }
  | none => plain

def editProgram (serial : Nat) (edit : ProgramState.Edit) : Uncached B :=
  match plain.programs.get? serial with
  | some program =>
      { plain with
        programs := plain.programs.insert serial { program with key := program.key.edit edit } }
  | none => plain

def editSettings (manager : Nat) (edit : World.SettingsEdit) : Uncached B :=
  { plain with managers := plain.managers.modify manager fun found =>
      { found with settings := edit.apply found.settings } }

/-- There is nothing to reset. -/
def perform : Operation → Content B × Uncached B
  | .newProgram manager desc defines => (.silence, plain.newProgram manager desc defines)
  | .dropProgram program =>
      (.silence, { plain with programs := plain.programs.erase program })
  | .editProgram program edit => (.silence, plain.editProgram program edit)
  | .resetProgram _ => (.silence, plain)
  | .editSettings manager edit => (.silence, plain.editSettings manager edit)
  | .reload _ _ => (.silence, plain)
  | .activeVersion program =>
      (((plain.activeVersion program).map Content.version).getD .silence, plain)
  | .activeKernels program =>
      (((plain.activeKernels program).map Content.kernels).getD .silence, plain)

def answers (plain : Uncached B) : List Operation → List (Content B)
  | [] => []
  | operation :: rest =>
      let (answer, next) := plain.perform operation
      answer :: next.answers rest

def context? (manager : Nat) : Option CompileContext :=
  plain.managers[manager]?.map fun found => found.context plain.files

end Uncached

namespace World

/-! ## The simulation -/

/-- The world is what the plain implementation is in, with caches. -/
structure Mirrors (world : World B) (plain : Uncached B) : Prop where
  contexts : ∀ manager, world.context? manager = plain.context? manager
  programs : ∀ program, (world.program? program).map Program.plain = plain.programs.get? program
  programCount : world.programCount = plain.programCount

namespace Mirrors

variable {world next : World B} {plain : Uncached B} (mirrors : Mirrors world plain)

include mirrors

theorem altered {change : Nat → ProgramState B → ProgramState B}
    (alters : Alters world next change)
    (keys : ∀ program state, (change program state).key = state.key) : Mirrors next plain where
  contexts manager := by
    rw [← mirrors.contexts]
    simp only [context?, alters.setups, alters.files]
  programs program := by
    rw [← mirrors.programs, alters.programs, Option.map_map]
    refine congrArg (fun view => (world.program? program).map view) (funext ?_)
    intro found
    simp [Program.plain, keys]
  programCount := alters.programCount.trans mirrors.programCount

theorem quiet (quiet : Quiet world next) : Mirrors next plain :=
  mirrors.altered quiet.alters fun _ _ => rfl

/-- Managers with the same context complete descriptions in the same way. -/
theorem complete_eq {manager : Nat} {found other : Manager B}
    (managed : world.managers[manager]? = some found)
    (lookup : plain.managers[manager]? = some other) (desc : ProgramDesc) :
    found.complete desc = other.complete desc := by
  have contexts := mirrors.contexts manager
  simp only [context?, world.setup_of_manager managed, Uncached.context?, lookup,
    Option.map_some, Option.some.injEq] at contexts
  have devices : found.device = other.device := congrArg CompileContext.device contexts
  have settings : found.settings = other.settings := congrArg CompileContext.settings contexts
  simp only [Manager.complete, Manager.defaultModel, devices, settings]

theorem managed_iff (manager : Nat) :
    world.managers[manager]? = none ↔ plain.managers[manager]? = none := by
  have contexts := congrArg Option.isNone (mirrors.contexts manager)
  simp only [context?, setup?, Uncached.context?, Option.isNone_map] at contexts
  rw [← Option.isNone_iff_eq_none, ← Option.isNone_iff_eq_none, contexts]

theorem created {manager : Nat} {found : Manager B} {desc : ProgramDesc} {defines : DefineList}
    (managed : world.managers[manager]? = some found)
    (creates : Creates manager found (world.newbornOf manager found desc defines) world next) :
    Mirrors next (plain.newProgram manager desc defines) := by
  cases lookup : plain.managers[manager]? with
  | none =>
      have absent := (mirrors.managed_iff manager).mpr lookup
      simp [absent] at managed
  | some other =>
      simp only [Uncached.newProgram, lookup]
      refine ⟨?_, ?_, ?_⟩
      · intro one
        exact (creates.context managed one).trans (mirrors.contexts one)
      · intro program
        rw [creates.programs, SortedMap.get_insert, ← mirrors.programCount, ← mirrors.programs]
        split
        next =>
          rw [← mirrors.complete_eq managed lookup]
          rfl
        next => rfl
      · rw [creates.programCount, mirrors.programCount]

theorem dropped {program : Nat} {found : Program B} (drops : Drops program found world next) :
    Mirrors next { plain with programs := plain.programs.erase program } where
  contexts manager := (drops.context manager).trans (mirrors.contexts manager)
  programs other := by
    rw [drops.programs, SortedMap.get_erase, ← mirrors.programs]
    split <;> rfl
  programCount := drops.programCount.trans mirrors.programCount

theorem edited {program : Nat} {found : Program B} {edit : ProgramState.Edit}
    (present : world.program? program = some found)
    (alters : Alters world next (changeOf program fun state => (state.edit edit).2)) :
    Mirrors next (plain.editProgram program edit) := by
  have lookup : plain.programs.get? program = some found.plain := by
    rw [← mirrors.programs, present]
    rfl
  simp only [Uncached.editProgram, lookup]
  refine ⟨?_, ?_, alters.programCount.trans mirrors.programCount⟩
  · intro manager
    refine Eq.trans ?_ (mirrors.contexts manager)
    simp only [context?, alters.setups, alters.files]
  · intro other
    rw [alters.programs, SortedMap.get_insert, ← mirrors.programs]
    by_cases here : other = program
    · simp [here, present, changeOf, Program.plain, ProgramState.key_edit]
    · simp [here, changeOf]

theorem configured (manager : Nat) (edit : SettingsEdit) :
    Mirrors (world.configure manager fun current => edit.apply current)
      (plain.editSettings manager edit) where
  contexts other := by
    rw [context_configure, mirrors.contexts, mirrors.contexts]
    simp only [Uncached.context?, Uncached.editSettings, List.getElem?_modify]
    by_cases here : other = manager
    · subst here
      simp only [↓reduceIte]
      cases plain.managers[other]? <;> rfl
    · simp [here, Ne.symm here]
  programs := mirrors.programs
  programCount := mirrors.programCount

/-- Where there is no program, nothing is done. -/
theorem untargeted {operation : Operation} {program : Nat}
    (target : operation.target? = some program) (absent : world.program? program = none) :
    (plain.perform operation).1 = .silence ∧ Mirrors world (plain.perform operation).2 := by
  have lookup : plain.programs.get? program = none := by
    rw [← mirrors.programs, absent]
    rfl
  cases operation with
  | dropProgram dropped =>
      cases target
      refine ⟨rfl, mirrors.contexts, ?_, mirrors.programCount⟩
      intro other
      rw [mirrors.programs]
      simp only [Uncached.perform, SortedMap.get_erase]
      split
      next here => rw [here, lookup]
      next => rfl
  | editProgram edited edit =>
      cases target
      have idle : plain.editProgram program edit = plain := by
        simp [Uncached.editProgram, lookup]
      refine ⟨rfl, ?_⟩
      simp only [Uncached.perform, idle]
      exact mirrors
  | activeVersion called =>
      cases target
      refine ⟨?_, mirrors⟩
      simp [Uncached.perform, Uncached.activeVersion, lookup]
  | activeKernels called =>
      cases target
      refine ⟨?_, mirrors⟩
      simp [Uncached.perform, Uncached.activeKernels, lookup]
  | _ => cases target

/-- Both implementations find a program and its manager in the same place. -/
theorem located (sound : world.Sound) {program : Nat} {found : Program B}
    (present : world.program? program = some found) :
    ∃ manager, plain.programs.get? program = some found.plain ∧
      plain.managers[found.manager]? = some manager ∧
      world.context? found.manager = some (manager.context plain.files) := by
  obtain ⟨setup, managed, _⟩ := sound.managed program found present
  have contexts := mirrors.contexts found.manager
  have inContext : world.context? found.manager = some (setup.context world.files) := by
    simp only [context?, managed, Option.map_some]
  rw [inContext] at contexts
  obtain ⟨manager, lookup, same⟩ := Option.map_eq_some_iff.mp contexts.symm
  refine ⟨manager, ?_, lookup, inContext.trans (congrArg some same.symm)⟩
  rw [← mirrors.programs, present]
  rfl

theorem resolved {program : Nat} {found : Program B}
    {outcome : Except ProgramError (Version B)}
    (resolves : Resolves world program found outcome next) : Mirrors next plain := by
  cases resolves with
  | current clean => exact mirrors
  | @adopted version _ unclean cached quiet ids =>
      have alters := (alters_modify_state world program
        fun state => state.adopt version).followed quiet
      exact mirrors.altered alters (change_of_keeps ProgramState.key program fun _ => rfl)
  | compiled unclean missing managed compiles =>
      cases compiles with
      | failed managedBy fails quiet ids => exact mirrors.quiet quiet
      | @made manager compiled _ managedBy makes quiet id ids =>
          have counted : Mirrors { world with versionCount := world.versionCount + 1 } plain :=
            ⟨mirrors.contexts, mirrors.programs, mirrors.programCount⟩
          have alters := (alters_modify_state
            { world with versionCount := world.versionCount + 1 } program fun state =>
              state.commit found.state.key (world.freshVersion program found compiled)).followed
            quiet
          exact counted.altered alters (change_of_keeps ProgramState.key program fun _ => rfl)

theorem supplied {version : Version B} {owner : Program B}
    {outcome : Except ProgramError (Kernels B)}
    (supplies : Supplies world version owner outcome next) : Mirrors next plain := by
  obtain ⟨kernels, quiet, _⟩ := supplies.quiet
  have kept : Mirrors { world with kernels := kernels } plain :=
    ⟨mirrors.contexts, mirrors.programs, mirrors.programCount⟩
  exact kept.quiet quiet

theorem provided {program : Nat} {found : Program B}
    {outcome : Except ProgramError (Kernels B)}
    (provides : Provides world program found outcome next) : Mirrors next plain := by
  cases provides with
  | unresolved answered resolves => exact mirrors.resolved resolves
  | resolved answered resolves settled supplies =>
      exact (mirrors.resolved resolves).supplied supplies

end Mirrors

/-! ## Equal answers -/

section Answers

variable {world next : World B} {plain : Uncached B}

theorem version_answer (steady : B.Steady) (sound : world.Sound) (fresh : world.Fresh)
    (mirrors : Mirrors world plain) {program : Nat} {found : Program B}
    {outcome : Except ProgramError (Version B)} (present : world.program? program = some found)
    (resolves : Resolves world program found outcome next) :
    plain.activeVersion program = some (outcome.map Version.content) := by
  obtain ⟨manager, lookup, managed, inContext⟩ := mirrors.located sound present
  have content := fresh.resolved_content steady sound present resolves inContext
    (Uncached.workOf manager) rfl
  have managedPlain : plain.managers[found.plain.manager]? = some manager := managed
  simp only [Uncached.activeVersion, lookup, managedPlain, Option.bind_eq_bind, Option.bind_some,
    content]
  rfl

/-- Kernels are linked from the content of the active version, which is the same in both. -/
theorem kernels_answer (steady : B.Steady) (sound : world.Sound) (fresh : world.Fresh)
    (mirrors : Mirrors world plain) {program : Nat} {found : Program B}
    {outcome : Except ProgramError (Kernels B)} (present : world.program? program = some found)
    (provides : Provides world program found outcome next) :
    plain.activeKernels program = some (outcome.map Kernels.content) := by
  obtain ⟨manager, lookup, managed, inContext⟩ := mirrors.located sound present
  have managedPlain : plain.managers[found.plain.manager]? = some manager := managed
  have kernels_eq : plain.activeKernels program = some
      ((plain.compile manager found.plain).bind (Uncached.link manager found.plain)) := by
    simp only [Uncached.activeKernels, lookup, managedPlain, Option.bind_eq_bind,
      Option.bind_some]
  rw [kernels_eq]
  cases provides with
  | unresolved answered resolves =>
      have content := fresh.resolved_content steady sound present resolves inContext
        (Uncached.workOf manager) rfl
      cases compiled : plain.compile manager found.plain with
      | error error =>
          have same := content.trans (congrArg (Except.map (contentOf program found)) compiled)
          cases same
          rfl
      | ok made =>
          have same := content.trans (congrArg (Except.map (contentOf program found)) compiled)
          cases same
  | @resolved version state between _ _ answered resolves settled supplies =>
      have content := fresh.resolved_content steady sound present resolves inContext
        (Uncached.workOf manager) rfl
      have freshBetween := fresh.resolves steady sound present resolves
      have contextBetween : between.context? found.manager =
          some (manager.context plain.files) := by
        rw [(mirrors.resolved resolves).contexts, ← mirrors.contexts]
        exact inContext
      have linked := freshBetween.supplied_content steady settled.present contextBetween
        settled.kept supplies (Uncached.workOf manager) rfl
      have upToDate := freshBetween.versions program _ settled.present _ contextBetween _ _
        settled.kept
      have conformances : state.conformances = found.state.conformances :=
        congrArg ProgramKey.conformances settled.key
      cases compiled : plain.compile manager found.plain with
      | error error =>
          have same := content.trans (congrArg (Except.map (contentOf program found)) compiled)
          cases same
      | ok made =>
          have same := content.trans (congrArg (Except.map (contentOf program found)) compiled)
          have made_eq : version.compiled.unnumbered = made :=
            congrArg VersionContent.compiled (Except.ok.inj same)
          have entries : made.entryPoints.length = found.desc.entryPoints.length :=
            compile_content_entries compiled
          have indexed := freshBetween.indexed program _ settled.present
          have input_eq : Uncached.link manager found.plain made =
              linkContent found.desc found.description state.conformances
                (version.linkInput.renumbered 0) (Uncached.workOf manager) := by
            rw [← made_eq, conformances]
            simp only [Version.linkInput, LinkInput.renumbered, upToDate.name]
            rfl
          have sizes : version.linkInput.entryPoints.length = found.desc.entryPoints.length := by
            rw [← entries, ← made_eq]
            rfl
          have unnumbered := link_content_renumbered found.description state.conformances 0
            (fun group present entry entryPresent =>
              sizes ▸ indexed group present entry entryPresent) (Uncached.workOf manager)
          exact congrArg some (input_eq.trans (unnumbered.trans linked.symm))

end Answers

/-- What holds between the implementation with caches and the one without. -/
structure Simulates (world : World B) (plain : Uncached B) : Prop where
  sound : world.Sound
  fresh : world.Fresh
  mirrors : Mirrors world plain

/-- One operation is answered alike, and leaves both implementations alike. -/
theorem Simulates.perform {world : World B} {plain : Uncached B} (steady : B.Steady)
    (simulates : Simulates world plain) (operation : Operation) :
    (world.perform operation).1.content = (plain.perform operation).1 ∧
      Simulates (world.perform operation).2 (plain.perform operation).2 := by
  obtain ⟨sound, fresh, mirrors⟩ := simulates
  have soundNext := sound.perform operation
  have performs := sound.performs operation
  generalize (world.perform operation).1 = answer at performs
  generalize (world.perform operation).2 = next at performs soundNext
  cases performs with
  | @unmanaged manager desc defines absent =>
      have lookup := (mirrors.managed_iff manager).mp absent
      have idle : plain.newProgram manager desc defines = plain := by
        simp [Uncached.newProgram, lookup]
      simp only [Uncached.perform, idle]
      exact ⟨rfl, sound, fresh, mirrors⟩
  | untargeted target absent =>
      have ⟨silent, mirrorsNext⟩ := mirrors.untargeted target absent
      exact ⟨silent.symm, sound, fresh, mirrorsNext⟩
  | created managed creates =>
      exact ⟨rfl, soundNext, fresh.created managed creates, mirrors.created managed creates⟩
  | dropped present drops =>
      exact ⟨rfl, soundNext, fresh.dropped drops, mirrors.dropped drops⟩
  | @edited _ edit _ _ present alters ids =>
      refine ⟨rfl, soundNext, fresh.altered alters ?_, mirrors.edited present alters⟩
      exact change_of_keeps ProgramState.versions _ fun state =>
        (ProgramState.edited_from state edit).versions
  | swept sweeping alters ids =>
      have freshNext := fresh.swept sound alters
      have keys := reset_due_keeps (B := B) ProgramState.key (fun _ => rfl)
        (world.resets operation)
      cases operation with
      | resetProgram program => exact ⟨rfl, soundNext, freshNext, mirrors.altered alters keys⟩
      | reload manager force => exact ⟨rfl, soundNext, freshNext, mirrors.altered alters keys⟩
      | editSettings manager edit =>
          exact ⟨rfl, soundNext, freshNext, (mirrors.configured manager edit).altered alters keys⟩
      | _ => simp [Operation.sweeping] at sweeping
  | resolved present answered resolves =>
      refine ⟨?_, soundNext, fresh.resolves steady sound present resolves,
        mirrors.resolved resolves⟩
      simp only [Uncached.perform, version_answer steady sound fresh mirrors present resolves]
      rfl
  | provided present provides =>
      refine ⟨?_, soundNext, fresh.provides steady sound present provides,
        mirrors.provided provides⟩
      simp only [Uncached.perform, kernels_answer steady sound fresh mirrors present provides]
      rfl

theorem simulates_opening (files : FileTree) (managers : List (Manager B)) :
    Simulates (opening files managers) (Uncached.opening files managers) where
  sound := sound_opening files managers
  fresh := ⟨fun program found present => by simp [program_opening] at present,
    fun program found present => by simp [program_opening] at present⟩
  mirrors := by
    refine ⟨?_, fun _ => rfl, rfl⟩
    intro manager
    simp only [context?, setup?, opening, Uncached.context?, Uncached.opening, List.getElem?_map,
      Option.map_map]
    rfl

theorem Simulates.answers {world : World B} {plain : Uncached B} (steady : B.Steady)
    (simulates : Simulates world plain) (operations : List Operation) :
    (world.answers operations).map Answer.content = plain.answers operations := by
  induction operations generalizing world plain with
  | nil => rfl
  | cons operation rest ih =>
      have ⟨sameAnswer, simulatesNext⟩ := simulates.perform steady operation
      simp only [World.answers, Uncached.answers, List.map_cons, sameAnswer, ih simulatesNext]

/-- With a steady backend, caching cannot be observed: every operation of a run is answered with
what an implementation without caches answers. -/
theorem caching_unobservable (steady : B.Steady) (files : FileTree) (managers : List (Manager B))
    (operations : List Operation) :
    ((opening files managers).answers operations).map Answer.content =
      (Uncached.opening files managers).answers operations :=
  (simulates_opening files managers).answers steady operations

/-- Versions, kernels and a failure, before and after changes of settings. -/
theorem caching_unobservable_echo :
    let operations : List Operation := [.newProgram 0 .oneKernel ∅, .activeKernels 0,
      .editProgram 0 (.addDefine "BROKEN" "1"), .activeVersion 0,
      .editSettings 0 (.setDebugInfo true), .editProgram 0 (.removeDefine "BROKEN"),
      .activeKernels 0, .editSettings 0 (.setDebugInfo true), .activeVersion 0]
    Backend.echo.Steady ∧
      ((opening {} [Manager.echo]).answers operations).map Answer.content =
        (Uncached.opening {} [Manager.echo]).answers operations := by
  intro operations
  exact ⟨echo_steady, caching_unobservable echo_steady {} [Manager.echo] operations⟩

end World

end ShaderCache
