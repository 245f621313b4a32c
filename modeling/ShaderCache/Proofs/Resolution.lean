import ShaderCache.Proofs.JobRules
import ShaderCache.Proofs.WorldEffects

/-!
# How programs come to versions and kernels

The ways in which a call can end, each with what it answers and the world it leaves behind. A
call on a program that is alive and has its manager always ends in one of them.
-/

set_option autoImplicit false

namespace ShaderCache

variable {B : Backend}

/-! ## Answers -/

/-- What compiling answers when the backend, the log and the identifiers are at `work`. -/
def compileOutcome (context : CompileContext) (desc : ProgramDesc) (description : String)
    (defines : DefineList) (work : Work B.State) : Except ProgramError (CompiledVersion B) :=
  match context.request desc defines with
  | .error error => .error (.configuration error (work.log ++ error.message ++ "\n"))
  | .ok request =>
      match (CompiledVersion.job desc request).run work with
      | (.error ⟨.rejected, written⟩, _) => .error (.compilation description written)
      | (.ok compiled, _) => .ok compiled

/-- What linking answers when the backend, the log and the identifiers are at `work`. -/
def linkOutcome (desc : ProgramDesc) (description : String) (conformances : ConformanceList)
    (input : LinkInput B) (work : Work B.State) : Except ProgramError (LinkedKernels B) :=
  match (LinkedKernels.job desc conformances input).run work with
  | (.error ⟨failure, written⟩, _) => .error (failure.toError description written)
  | (.ok linked, _) => .ok linked

namespace World

variable (world : World B)

/-- The backend's state at a manager, with a fresh log. -/
def workOf (manager : Manager B) (log : String) : Work B.State :=
  ⟨manager.service, log, world.versionIds⟩

/-! ## Compiling -/

/-- The ways in which compiling a program under given settings can end. -/
inductive Compiles (settings : Settings) (manager serial : Nat) (program : Program B)
    (defines : DefineList) (log : String) :
    Except ProgramError (Version B) → World B → Prop where
  | failed {found : Manager B} {error : ProgramError} {next : World B}
      (managed : world.managers[manager]? = some found)
      (fails : compileOutcome { found.context world.files with settings := settings }
        program.desc program.description defines (world.workOf found log) = .error error)
      (quiet : Quiet world next) (ids : world.versionIds.OneDraw next.versionIds) :
      Compiles settings manager serial program defines log (.error error) next
  | made {found : Manager B} {compiled : CompiledVersion B} {next : World B}
      (managed : world.managers[manager]? = some found)
      (makes : compileOutcome { found.context world.files with settings := settings }
        program.desc program.description defines (world.workOf found log) = .ok compiled)
      (quiet : Quiet { world with versionCount := world.versionCount + 1 } next)
      (id : compiled.id = world.versionIds.upcoming)
      (ids : next.versionIds = world.versionIds.draw.2) :
      Compiles settings manager serial program defines log
        (.ok ⟨world.versionCount, serial, program.description, defines, compiled⟩) next

theorem quiet_record_version (manager serial : Nat) (program : Program B) (defines : DefineList)
    (compiled : CompiledVersion B) :
    Quiet { world with versionCount := world.versionCount + 1 }
      (world.recordVersion manager serial program defines compiled).2 :=
  (quiet_modify_manager { world with versionCount := world.versionCount + 1 }
    (fun found => { found with
      counts := { found.counts with versions := found.counts.versions + 1 } })
    (fun _ => rfl) manager).trans (quiet_emit _ _)

theorem Quiet.count_version {before after : World B} (quiet : Quiet before after) :
    Quiet { before with versionCount := before.versionCount + 1 }
      { after with versionCount := after.versionCount + 1 } :=
  ⟨quiet.files, quiet.setups, quiet.programs, quiet.kernels, quiet.orphans, quiet.programCount,
    congrArg (· + 1) quiet.versionCount⟩

theorem compile_in_compiles (settings : Settings) {manager : Nat} (serial : Nat)
    (program : Program B) (defines : DefineList) (log : String) {found : Manager B}
    (managed : world.managers[manager]? = some found) :
    let result := world.compileIn { found.context world.files with settings := settings }
      found.service manager serial program defines log
    Compiles world settings manager serial program defines log result.1.outcome result.2 := by
  intro result
  let context := { found.context world.files with settings := settings }
  let warned := world.emitAll (context.warnings program.desc)
  have warnedQuiet : Quiet world warned := quiet_emit_all world _
  have result_eq : result = world.compileIn context found.service manager serial program defines
    log := rfl
  rw [result_eq]
  unfold compileIn
  cases requested : context.request program.desc defines with
  | error error =>
      refine .failed managed ?_ warnedQuiet (.inl rfl)
      simp [compileOutcome, context, requested, workOf]
  | ok request =>
      have draws := CompiledVersion.job_draws program.desc request (world.workOf found log)
      cases reached : (CompiledVersion.job program.desc request).run (world.workOf found log) with
      | mk outcome after =>
          have outcome_eq : compileOutcome context program.desc program.description defines
              (world.workOf found log) = match outcome with
                | .error ⟨.rejected, written⟩ =>
                    .error (.compilation program.description written)
                | .ok compiled => .ok compiled := by
            simp only [compileOutcome, requested, reached]
            cases outcome <;> rfl
          simp only [Job.Ends, reached] at draws
          simp only [workOf] at reached
          simp only [reached]
          have absorbedQuiet : Quiet world (warned.absorb manager after) :=
            warnedQuiet.trans (quiet_absorb warned manager after)
          cases outcome with
          | error stopped => exact .failed managed outcome_eq absorbedQuiet draws
          | ok compiled =>
              have recordedQuiet := absorbedQuiet.count_version.trans
                (quiet_record_version _ manager serial program defines compiled)
              exact .made managed outcome_eq recordedQuiet draws.1 draws.2

/-! ## The active version -/

def freshVersion (program : Nat) (found : Program B) (compiled : CompiledVersion B) : Version B :=
  ⟨world.versionCount, program, found.description, found.state.defines, compiled⟩

/-- The ways in which compiling a program for its own use can end. -/
inductive CompilesActive (settings : Settings) (program : Nat) (found : Program B) :
    Except ProgramError (Version B) → World B → Prop where
  | failed {manager : Manager B} {error : ProgramError} {next : World B}
      (managed : world.managers[found.manager]? = some manager)
      (fails : compileOutcome { manager.context world.files with settings := settings }
        found.desc found.description found.state.defines (world.workOf manager "") = .error error)
      (quiet : Quiet world next) (ids : world.versionIds.OneDraw next.versionIds) :
      CompilesActive settings program found (.error error) next
  | made {manager : Manager B} {compiled : CompiledVersion B} {next : World B}
      (managed : world.managers[found.manager]? = some manager)
      (makes : compileOutcome { manager.context world.files with settings := settings }
        found.desc found.description found.state.defines (world.workOf manager "") = .ok compiled)
      (quiet : Quiet
        ({ world with versionCount := world.versionCount + 1 }.modifyState program fun state =>
          state.commit found.state.key (world.freshVersion program found compiled)) next)
      (id : compiled.id = world.versionIds.upcoming)
      (ids : next.versionIds = world.versionIds.draw.2) :
      CompilesActive settings program found (.ok (world.freshVersion program found compiled)) next

theorem compile_active_compiles (settings : Settings) (program : Nat) {found : Program B}
    {manager : Manager B} (managed : world.managers[found.manager]? = some manager) :
    ∃ outcome next, world.compileActive settings program found = some (outcome, next) ∧
      CompilesActive world settings program found outcome next := by
  have compiles := world.compile_in_compiles settings program found found.state.defines "" managed
  cases reached : world.compileIn { manager.context world.files with settings := settings }
      manager.service found.manager program found found.state.defines "" with
  | mk logged done =>
      have under_eq : world.compileUnder settings found.manager program found found.state.defines
          "" = some (logged, done) := by
        simp only [compileUnder, managed, Option.bind_eq_bind, Option.bind_some, reached]
      obtain ⟨log, outcome⟩ := logged
      rw [reached] at compiles
      cases compiles with
      | @failed _ error _ managed fails quiet ids =>
          refine ⟨_, _, ?_, .failed managed fails
            (quiet.trans (quiet_emit _ (.versionFailed found.id error))) ids⟩
          simp only [compileActive, ProgramState.key, under_eq]
          rfl
      | made managed makes quiet id ids =>
          have warnedQuiet := quiet.trans (quiet_emit_if done (!Text.allBlank log)
            (.versionWarnings found.description log))
          refine ⟨_, _, ?_, .made managed makes (warnedQuiet.modify_state program _) id ?_⟩
          · simp only [compileActive, ProgramState.key, under_eq]
            rfl
          · rw [version_ids_modify_state, version_ids_emit_if]
            exact ids

/-- The ways in which a call for the active version of a program can end. -/
inductive Resolves (program : Nat) (found : Program B) :
    Except ProgramError (Version B) → World B → Prop where
  | current {version : Version B} (clean : found.state.current? = some version) :
      Resolves program found (.ok version) world
  | adopted {version : Version B} {next : World B} (unclean : found.state.current? = none)
      (cached : found.state.cached? found.state.key = some version)
      (quiet : Quiet (world.modifyState program fun state => state.adopt version) next)
      (ids : next.versionIds = world.versionIds) :
      Resolves program found (.ok version) next
  | compiled {setup : ManagerSetup} {outcome : Except ProgramError (Version B)} {next : World B}
      (unclean : found.state.current? = none)
      (missing : found.state.cached? found.state.key = none)
      (managed : world.setup? found.manager = some setup)
      (compiles : CompilesActive world setup.settings program found outcome next) :
      Resolves program found outcome next

theorem active_version_absent {program : Nat} (absent : world.program? program = none) :
    world.activeVersion program = none := by
  simp only [activeVersion, absent]
  rfl

/-- A call on a program that is alive and has its manager ends. -/
theorem active_version_resolves {program : Nat} {found : Program B} {setup : ManagerSetup}
    (present : world.program? program = some found)
    (managed : world.setup? found.manager = some setup) :
    ∃ outcome next, world.activeVersion program = some (outcome, next) ∧
      Resolves world program found outcome next := by
  obtain ⟨manager, managedBy, rfl⟩ := world.manager_of_setup managed
  cases clean : found.state.current? with
  | some version =>
      have active_eq : world.activeVersion program = some (.ok version, world) := by
        simp only [activeVersion, present, clean, Option.bind_eq_bind, Option.bind_some]
      exact ⟨_, _, active_eq, .current clean⟩
  | none =>
      cases cached : found.state.cached? found.state.key with
      | some version =>
          let adopted := world.modifyState program fun state => state.adopt version
          have active_eq : world.activeVersion program = some (.ok version, adopted.emit
              (.versionAdopted found.id version.id found.state.key)) := by
            simp only [activeVersion, present, clean, cached, Option.bind_eq_bind,
              Option.bind_some, adopted]
          refine ⟨_, _, active_eq, .adopted clean cached (quiet_emit _ _) ?_⟩
          exact version_ids_modify_state world program _
      | none =>
          have active_eq : world.activeVersion program =
              world.compileActive manager.settings program found := by
            simp only [activeVersion, present, clean, cached, settings?, managedBy,
              Option.map_some, Option.bind_eq_bind, Option.bind_some]
          obtain ⟨outcome, next, compiled_eq, compiles⟩ :=
            world.compile_active_compiles manager.settings program managedBy
          exact ⟨outcome, next, active_eq.trans compiled_eq,
            .compiled clean cached managed compiles⟩

/-! ## Kernels -/

theorem quiet_record_kernels (manager : Nat) (linked : LinkedKernels B) :
    Quiet world (world.recordKernels manager linked).2 := by
  have counted := quiet_modify_manager { world with kernelsCount := world.kernelsCount + 1 }
    (fun found => { found with
      counts := { found.counts with kernels := found.counts.kernels + 1 } })
    (fun _ => rfl) manager
  have recounted : Quiet world { world with kernelsCount := world.kernelsCount + 1 } :=
    ⟨rfl, fun _ => rfl, fun _ => rfl, rfl, rfl, rfl, rfl⟩
  exact (recounted.trans counted).trans (quiet_emit _ _)

/-- The ways in which linking a version for given conformances can end. -/
inductive Links (manager : Nat) (program : Program B) (conformances : ConformanceList)
    (version : Version B) (log : String) : Except ProgramError (Kernels B) → World B → Prop where
  | failed {found : Manager B} {error : ProgramError} {next : World B}
      (managed : world.managers[manager]? = some found)
      (fails : linkOutcome program.desc program.description conformances version.linkInput
        (world.workOf found log) = .error error)
      (quiet : Quiet world next) (ids : next.versionIds = world.versionIds) :
      Links manager program conformances version log (.error error) next
  | made {found : Manager B} {linked : LinkedKernels B} {next : World B}
      (managed : world.managers[manager]? = some found)
      (makes : linkOutcome program.desc program.description conformances version.linkInput
        (world.workOf found log) = .ok linked)
      (quiet : Quiet world next) (ids : next.versionIds = world.versionIds) :
      Links manager program conformances version log (.ok ⟨world.kernelsCount, linked⟩) next

theorem link_in_links {manager : Nat} (program : Program B) (conformances : ConformanceList)
    (version : Version B) (log : String) {found : Manager B}
    (managed : world.managers[manager]? = some found) :
    let result := world.linkIn found.service manager program conformances version log
    Links world manager program conformances version log result.1.outcome result.2 := by
  intro result
  have draws := Job.closed_draws_nothing.link program.desc conformances version.linkInput
    (world.workOf found log)
  have result_eq : result = world.linkIn found.service manager program conformances version log :=
    rfl
  rw [result_eq]
  unfold linkIn
  cases reached : (LinkedKernels.job program.desc conformances version.linkInput).run
      (world.workOf found log) with
  | mk outcome after =>
      have outcome_eq : linkOutcome program.desc program.description conformances
          version.linkInput (world.workOf found log) = match outcome with
            | .error ⟨failure, written⟩ =>
                .error (failure.toError program.description written)
            | .ok linked => .ok linked := by
        simp only [linkOutcome, reached]
        cases outcome <;> rfl
      rw [reached] at draws
      simp only [workOf] at reached
      simp only [reached]
      have absorbedQuiet := quiet_absorb world manager after
      cases outcome with
      | error stopped => exact .failed managed outcome_eq absorbedQuiet draws
      | ok linked =>
          exact .made managed outcome_eq
            (absorbedQuiet.trans (quiet_record_kernels _ manager linked)) draws

theorem Quiet.cached_kernels {before after : World B} (quiet : Quiet before after)
    (version : Version B) (conformances : ConformanceList) :
    after.cachedKernels? version conformances = before.cachedKernels? version conformances := by
  simp only [cachedKernels?, cachedKernels, quiet.kernels]

theorem Quiet.keep {before after : World B} (quiet : Quiet before after)
    (entry : CachedKernels B) :
    Quiet { before with kernels := before.kernels ++ [entry] }
      { after with kernels := after.kernels ++ [entry] } :=
  ⟨quiet.files, quiet.setups, quiet.programs, congrArg (· ++ [entry]) quiet.kernels,
    quiet.orphans, quiet.programCount, quiet.versionCount⟩

theorem keep_kernels_missing {version : Version B} {conformances : ConformanceList}
    (kernels : Kernels B) (missing : world.cachedKernels? version conformances = none) :
    world.keepKernels version conformances kernels =
      (kernels, { world with kernels :=
        world.kernels ++ [⟨version.serial, conformances, kernels⟩] }) := by
  simp only [keepKernels, missing]

/-- The ways in which a call for the kernels of a version that has its owner can end. -/
inductive Supplies (version : Version B) (owner : Program B) :
    Except ProgramError (Kernels B) → World B → Prop where
  | kept {kernels : Kernels B} {next : World B}
      (cached : world.cachedKernels? version owner.state.conformances = some kernels)
      (quiet : Quiet world next) (ids : next.versionIds = world.versionIds) :
      Supplies version owner (.ok kernels) next
  | failed {error : ProgramError} {next : World B}
      (missing : world.cachedKernels? version owner.state.conformances = none)
      (links : Links world owner.manager owner owner.state.conformances version ""
        (.error error) next) :
      Supplies version owner (.error error) next
  | linked {kernels : Kernels B} {linkedIn next : World B}
      (missing : world.cachedKernels? version owner.state.conformances = none)
      (links : Links world owner.manager owner owner.state.conformances version ""
        (.ok kernels) linkedIn)
      (quiet : Quiet
        { linkedIn with kernels := linkedIn.kernels ++
            [⟨version.serial, owner.state.conformances, kernels⟩] } next)
      (ids : next.versionIds = linkedIn.versionIds) :
      Supplies version owner (.ok kernels) next

theorem Links.quiet {world : World B} {manager : Nat} {program : Program B}
    {conformances : ConformanceList} {version : Version B} {log : String}
    {outcome : Except ProgramError (Kernels B)} {next : World B}
    (links : Links world manager program conformances version log outcome next) :
    Quiet world next := by
  cases links with
  | failed _ _ quiet _ => exact quiet
  | made _ _ quiet _ => exact quiet

theorem Links.ids {world : World B} {manager : Nat} {program : Program B}
    {conformances : ConformanceList} {version : Version B} {log : String}
    {outcome : Except ProgramError (Kernels B)} {next : World B}
    (links : Links world manager program conformances version log outcome next) :
    next.versionIds = world.versionIds := by
  cases links with
  | failed _ _ _ ids => exact ids
  | made _ _ _ ids => exact ids

/-- A call for kernels touches only the kernels that are kept. -/
theorem Supplies.quiet {world : World B} {version : Version B} {owner : Program B}
    {outcome : Except ProgramError (Kernels B)} {next : World B}
    (supplies : Supplies world version owner outcome next) :
    ∃ kernels, Quiet { world with kernels := kernels } next ∧
      next.versionIds = world.versionIds := by
  cases supplies with
  | kept cached quiet ids => exact ⟨world.kernels, quiet, ids⟩
  | failed missing links => exact ⟨world.kernels, links.quiet, links.ids⟩
  | @linked kernels linkedIn _ missing links quiet ids =>
      let entry : CachedKernels B := ⟨version.serial, owner.state.conformances, kernels⟩
      exact ⟨world.kernels ++ [entry], (links.quiet.keep entry).trans quiet, ids.trans links.ids⟩

theorem kernels_of_supplies {version : Version B} {owner : Program B} {setup : ManagerSetup}
    (owned : world.owner? version = some owner)
    (managed : world.setup? owner.manager = some setup) :
    ∃ outcome next, world.kernelsOf version = some (outcome, next) ∧
      Supplies world version owner outcome next := by
  obtain ⟨manager, managedBy, rfl⟩ := world.manager_of_setup managed
  let conformances := owner.state.conformances
  cases cached : world.cachedKernels? version conformances with
  | some kernels =>
      have kernels_eq : world.kernelsOf version =
          some (.ok kernels, world.emit (.kernelsReused version.id conformances)) := by
        simp only [kernelsOf, owned, conformances, cached]
      exact ⟨_, _, kernels_eq, .kept cached (quiet_emit world _) rfl⟩
  | none =>
      have links := world.link_in_links owner conformances version "" managedBy
      cases reached : world.linkIn manager.service owner.manager owner conformances version ""
        with
      | mk logged done =>
          obtain ⟨log, outcome⟩ := logged
          rw [reached] at links
          cases outcome with
          | error error =>
              have kernels_eq : world.kernelsOf version = some (.error error, done) := by
                simp only [kernelsOf, owned, conformances, cached, linkKeeping, link, managedBy,
                  reached, Option.bind_eq_bind, Option.bind_some]
              exact ⟨_, _, kernels_eq, .failed cached links⟩
          | ok kernels =>
              let warned := done.emitIf (!Text.allBlank log) (.kernelsWarnings version.name log)
              have warnedQuiet : Quiet done warned := quiet_emit_if done _ _
              have missing : warned.cachedKernels? version conformances = none :=
                ((links.quiet.trans warnedQuiet).cached_kernels version conformances).trans cached
              have kept_eq := warned.keep_kernels_missing kernels missing
              have kernels_eq : world.kernelsOf version = some (.ok kernels, { warned with
                  kernels := warned.kernels ++ [⟨version.serial, conformances, kernels⟩] }) := by
                simp only [warned, conformances] at kept_eq
                simp only [kernelsOf, owned, conformances, cached, linkKeeping, link, managedBy,
                  reached, kept_eq, warned, Option.bind_eq_bind, Option.bind_some]
              exact ⟨.ok kernels, _, kernels_eq, .linked cached links (warnedQuiet.keep _)
                (version_ids_emit_if done _ _)⟩

end World

end ShaderCache
