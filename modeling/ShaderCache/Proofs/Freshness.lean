import ShaderCache.Proofs.Renumbering
import ShaderCache.Proofs.RunInvariant

/-!
# Fresh caches

With a steady backend, what is kept is what would be made now: a kept version is what compiling
gives under the settings of the moment, and kept kernels are what linking gives. A change of the
settings that spares a program has not changed what it is compiled with.
-/

set_option autoImplicit false

namespace ShaderCache

variable {B : Backend}

namespace World

variable (world : World B)

/-- What programs of a manager are compiled with now. -/
def context? (manager : Nat) : Option CompileContext :=
  (world.setup? manager).map fun setup => setup.context world.files

/-! ## Settings that stay as they are -/

theorem SettingsEdit.apply_of_not_sweeps {settings : Settings} {edit : SettingsEdit}
    (quiet : edit.sweeps settings = false) : edit.apply settings = settings := by
  cases edit with
  | addDefines => simp [sweeps] at quiet
  | removeDefines => simp [sweeps] at quiet
  | setForcedFlags => simp [sweeps] at quiet
  | setArguments arguments =>
      have same : settings.arguments = arguments := by simpa [sweeps] using quiet
      simp [apply, ← same]
  | setDebugInfo enabled =>
      have same : settings.debugInfo = enabled := by simpa [sweeps] using quiet
      simp [apply, ← same]
  | setSpirvDirect enabled =>
      have same : settings.spirvDirect = enabled := by simpa [sweeps] using quiet
      simp [apply, ← same]

theorem context_configure (manager other : Nat) (change : Settings → Settings) :
    (world.configure manager change).context? other =
      if other = manager then
        (world.context? manager).map fun context =>
          { context with settings := change context.settings }
      else world.context? other := by
  simp only [context?, setup_configure]
  split
  next => cases world.setup? manager <;> rfl
  next => rfl

theorem registered_of_setup {manager : Nat} {setup : ManagerSetup} {program : Nat}
    {found : Program B} (managed : world.setup? manager = some setup)
    (present : world.program? program = some found) (listed : program ∈ setup.registry) :
    program ∈ world.registered manager := by
  have registry_eq : world.registry manager = setup.registry := by
    rw [registry_of_setup, managed, Option.map_some, Option.getD_some]
  exact List.mem_filter.mpr ⟨registry_eq ▸ listed, by simp [present]⟩

/-- A program that an operation does not reset is compiled as before. -/
theorem Sound.context_of_spared {world : World B} (sound : world.Sound) {operation : Operation}
    {program : Nat} {found : Program B} (present : world.program? program = some found)
    (spared : program ∉ world.resets operation) :
    (world.written operation).context? found.manager = world.context? found.manager := by
  cases operation with
  | editSettings manager edit =>
      simp only [World.written]
      rw [context_configure]
      split
      next here =>
        obtain ⟨setup, managed, listed⟩ := sound.managed program found present
        rw [here] at managed
        have isRegistered := world.registered_of_setup managed present listed
        have settings : world.settings? manager = some setup.settings := by
          rw [settings_of_setup, managed]
          rfl
        have quiet : edit.sweeps setup.settings = false := by
          by_contra sweeps
          simp [resets, settings, sweeps, isRegistered] at spared
        simp [context?, here, managed, ManagerSetup.context,
          SettingsEdit.apply_of_not_sweeps quiet]
      next => rfl
  | _ => rfl

theorem Creates.context {world next : World B} {manager : Nat} {found : Manager B}
    {program : Program B} (creates : Creates manager found program world next)
    (managed : world.managers[manager]? = some found) (other : Nat) :
    next.context? other = world.context? other := by
  simp only [context?, creates.setups, creates.files]
  split
  next here =>
    rw [here, world.setup_of_manager managed]
    rfl
  next => rfl

theorem Drops.context {world next : World B} {program : Nat} {found : Program B}
    (drops : Drops program found world next) (other : Nat) :
    next.context? other = world.context? other := by
  simp only [context?, drops.files]
  cases managed : world.setup? other with
  | none => rw [drops.unmanaged managed]
  | some setup =>
      obtain ⟨registry, managedAfter, _⟩ := drops.keeps managed
      rw [managedAfter]
      rfl

/-! ## Freshness -/

/-- A version that is kept under `key` is what compiling gives, and kernels that are kept for it
are what linking gives. -/
structure UpToDate (kernels : List (CachedKernels B)) (context : CompileContext)
    (found : Program B) (key : ProgramKey) (version : Version B) : Prop where
  name : version.name = found.description
  compiled : ∀ work : Work B.State, work.log = "" →
    compileContent context found.desc found.description key.defines work =
      .ok version.compiled.unnumbered
  linked : ∀ entry ∈ kernels, entry.version = version.serial →
    ∀ work : Work B.State, work.log = "" →
      linkContent found.desc found.description entry.conformances version.linkInput work =
        .ok entry.kernels.linked.unnumbered

structure Fresh : Prop where
  indexed : ∀ program found, world.program? program = some found → found.desc.Indexed
  versions : ∀ program found, world.program? program = some found →
    ∀ context, world.context? found.manager = some context →
    ∀ key version, (key, version) ∈ found.state.versions →
      UpToDate world.kernels context found key version

namespace Fresh

variable {world next : World B} (fresh : world.Fresh)

include fresh

/-- Freshness is kept where no version comes in and no context changes under a version. -/
theorem carried (kernels : next.kernels = world.kernels)
    (old : ∀ program later, next.program? program = some later → later.desc.Indexed ∧
      (later.state.versions = [] ∨ ∃ found, world.program? program = some found ∧
        later = { found with state := later.state } ∧
        later.state.versions = found.state.versions ∧
        next.context? found.manager = world.context? found.manager)) : next.Fresh := by
  refine ⟨fun program later present => (old program later present).1, ?_⟩
  intro program later present context managed key version kept
  rcases (old program later present).2 with none | ⟨found, former, same, versions, contexts⟩
  · simp [none] at kept
  · have manager_eq : later.manager = found.manager := by rw [same]
    rw [manager_eq, contexts] at managed
    rw [versions] at kept
    have upToDate := fresh.versions program found former context managed key version kept
    rw [kernels, same]
    exact ⟨upToDate.name, upToDate.compiled, upToDate.linked⟩

theorem altered {change : Nat → ProgramState B → ProgramState B}
    (alters : Alters world next change)
    (keeps : ∀ program state, (change program state).versions = state.versions) :
    next.Fresh := by
  apply fresh.carried alters.kernels
  intro program later present
  obtain ⟨former, formerPresent, rfl⟩ := alters.program present
  refine ⟨fresh.indexed program former formerPresent, .inr ⟨former, formerPresent, rfl,
    keeps program former.state, ?_⟩⟩
  simp only [context?, alters.setups, alters.files]

theorem quiet (quiet : Quiet world next) : next.Fresh :=
  fresh.altered quiet.alters fun _ _ => rfl

theorem swept (sound : world.Sound) {operation : Operation}
    (alters : Alters (world.written operation) next (resetDue (world.resets operation))) :
    next.Fresh := by
  have kernels : next.kernels = world.kernels := by
    rw [alters.kernels]
    cases operation <;> rfl
  apply fresh.carried kernels
  intro program later present
  obtain ⟨former, formerWritten, rfl⟩ := alters.program present
  have formerPresent : world.program? program = some former := by
    cases operation <;> exact formerWritten
  refine ⟨fresh.indexed program former formerPresent, ?_⟩
  by_cases due : program ∈ world.resets operation
  · exact .inl (by simp [resetDue, due, ProgramState.reset])
  · refine .inr ⟨former, formerPresent, rfl, by simp [resetDue, due], ?_⟩
    rw [← sound.context_of_spared formerPresent due]
    simp only [context?, alters.setups, alters.files]

theorem created {manager : Nat} {found : Manager B} {desc : ProgramDesc} {defines : DefineList}
    (managed : world.managers[manager]? = some found)
    (creates : Creates manager found (world.newbornOf manager found desc defines) world next) :
    next.Fresh := by
  apply fresh.carried creates.kernels
  intro program later present
  rw [creates.programs] at present
  split at present
  next =>
    cases present
    exact ⟨ProgramDesc.indexed_finalize desc, .inl rfl⟩
  next =>
    exact ⟨fresh.indexed program later present, .inr ⟨later, present, rfl, rfl,
      creates.context managed later.manager⟩⟩

theorem dropped {program : Nat} {found : Program B} (drops : Drops program found world next) :
    next.Fresh := by
  apply fresh.carried drops.kernels
  intro other later present
  rw [drops.programs] at present
  split at present
  next => simp at present
  next =>
    exact ⟨fresh.indexed other later present, .inr ⟨later, present, rfl, rfl,
      drops.context later.manager⟩⟩

end Fresh

/-! ## Calls for versions -/

structure VersionContent (B : Backend) where
  program : Nat
  name : String
  defines : DefineList
  compiled : CompiledVersion B

end World

open World

def Version.content (version : Version B) : VersionContent B :=
  ⟨version.program, version.name, version.defines, version.compiled.unnumbered⟩

def Kernels.content (kernels : Kernels B) : LinkedKernels B :=
  kernels.linked.unnumbered

namespace World

variable {world next : World B}

/-- The content that a compilation gives to a version of the program. -/
def contentOf (program : Nat) (found : Program B) (compiled : CompiledVersion B) :
    VersionContent B :=
  ⟨program, found.description, found.state.defines, compiled⟩

theorem context_of_manager {manager : Nat} {managedBy : Manager B} {setup : ManagerSetup}
    {context : CompileContext} (managed : world.setup? manager = some setup)
    (lookup : world.managers[manager]? = some managedBy)
    (inContext : world.context? manager = some context) :
    { managedBy.context world.files with settings := setup.settings } = context := by
  rw [world.setup_of_manager lookup] at managed
  cases managed
  simp only [context?, world.setup_of_manager lookup, Option.map_some, Option.some.injEq]
    at inContext
  exact inContext

/-- A call for a version answers what compiling would answer now, whether it compiles or not. -/
theorem Fresh.resolved_content (fresh : world.Fresh) (steady : B.Steady) (sound : world.Sound)
    {program : Nat} {found : Program B} {outcome : Except ProgramError (Version B)}
    (present : world.program? program = some found)
    (resolves : Resolves world program found outcome next) {context : CompileContext}
    (inContext : world.context? found.manager = some context) (work : Work B.State)
    (logless : work.log = "") :
    outcome.map Version.content =
      (compileContent context found.desc found.description found.state.defines work).map
        (contentOf program found) := by
  have coherent := sound.coherent program found present
  have known : ∀ version, (found.state.key, version) ∈ found.state.versions →
      Except.map Version.content (.ok version : Except ProgramError (Version B)) =
        (compileContent context found.desc found.description found.state.defines work).map
          (contentOf program found) := by
    intro version kept
    have upToDate := fresh.versions program found present context inContext _ version kept
    have compiled := upToDate.compiled work logless
    have isProduced := sound.produced program found present _ kept
    have owner := (sound.owned program found present version isProduced).1
    have defines : version.defines = found.state.defines := coherent.defines _ version kept
    simp only [ProgramState.key] at compiled
    simp only [compiled, Except.map, Version.content, contentOf, owner, upToDate.name, defines]
  cases resolves with
  | current clean => exact known _ (coherent.current_cached clean)
  | adopted unclean cached quiet ids => exact known _ ((coherent.cached_iff _ _).mp cached)
  | compiled unclean missing managed compiles =>
      cases compiles with
      | failed managedBy fails quiet ids =>
          rw [context_of_manager managed managedBy inContext] at fails
          rw [compile_content_of_outcome steady logless.symm fails]
          rfl
      | made managedBy makes quiet id ids =>
          rw [context_of_manager managed managedBy inContext] at makes
          rw [compile_content_of_outcome steady logless.symm makes]
          rfl

/-- A committed version is what compiling gave, and there are no kernels for it yet. -/
theorem Fresh.resolves (fresh : world.Fresh) (steady : B.Steady) (sound : world.Sound)
    {program : Nat} {found : Program B} {outcome : Except ProgramError (Version B)}
    (present : world.program? program = some found)
    (resolves : Resolves world program found outcome next) : next.Fresh := by
  cases resolves with
  | current clean => exact fresh
  | @adopted version _ unclean cached quiet ids =>
      have alters := (alters_modify_state world program
        fun state => state.adopt version).followed quiet
      exact fresh.altered alters (change_of_keeps ProgramState.versions program fun _ => rfl)
  | compiled unclean missing managed compiles =>
      cases compiles with
      | failed managedBy fails quiet ids => exact fresh.quiet quiet
      | @made _ compiled _ managedBy makes quiet id ids =>
          have alters := (alters_modify_state
            { world with versionCount := world.versionCount + 1 } program fun state =>
              state.commit found.state.key (world.freshVersion program found compiled)).followed
            quiet
          have contexts : ∀ other, next.context? other = world.context? other := fun other => by
            simp only [context?, alters.setups, alters.files]
            rfl
          constructor
          · intro other later laterPresent
            obtain ⟨former, formerPresent, rfl⟩ := alters.program laterPresent
            exact fresh.indexed other former formerPresent
          · intro other later laterPresent context inContext key version kept
            obtain ⟨former, formerPresent, rfl⟩ := alters.program laterPresent
            rw [contexts] at inContext
            rw [alters.kernels]
            have old : (key, version) ∈ former.state.versions →
                UpToDate world.kernels context former key version :=
              fresh.versions other former formerPresent context inContext key version
            rcases mem_versions_committed kept with earlier | ⟨here, last⟩
            · exact ⟨(old earlier).name, (old earlier).compiled, (old earlier).linked⟩
            · cases last
              subst here
              cases present.symm.trans formerPresent
              refine ⟨rfl, ?_, ?_⟩
              · intro work logless
                rw [context_of_manager managed managedBy inContext] at makes
                exact compile_content_of_outcome steady logless.symm makes
              · intro entry listed same
                have below := sound.kernels entry listed
                have serial : entry.version = world.versionCount := same
                omega

/-! ## Calls for kernels -/

theorem kept_of_cached {version : Version B} {conformances : ConformanceList}
    {kernels : Kernels B}
    (cached : world.cachedKernels? version conformances = some kernels) :
    ∃ entry ∈ world.kernels, entry.version = version.serial ∧
      entry.conformances = conformances ∧ entry.kernels = kernels := by
  obtain ⟨entry, isFound, kernelsEq⟩ := Option.map_eq_some_iff.mp cached
  have ⟨listed, serial⟩ := List.mem_filter.mp (List.mem_of_find?_eq_some isFound)
  have sameConformances : entry.conformances = conformances := by
    simpa using List.find?_some isFound
  exact ⟨entry, listed, of_decide_eq_true serial, sameConformances, kernelsEq⟩

theorem link_content_of_links (steady : B.Steady) {manager : Nat} {program : Program B}
    {conformances : ConformanceList} {version : Version B}
    {outcome : Except ProgramError (Kernels B)}
    (links : Links world manager program conformances version "" outcome next)
    {work : Work B.State} (logless : work.log = "") :
    outcome.map Kernels.content =
      linkContent program.desc program.description conformances version.linkInput work := by
  cases links with
  | failed lookup fails quiet ids =>
      exact (link_content_of_outcome steady logless.symm fails).symm
  | made lookup makes quiet ids =>
      exact (link_content_of_outcome steady logless.symm makes).symm

/-- A call for kernels answers what linking would answer now, whether it links or not. -/
theorem Fresh.supplied_content (fresh : world.Fresh) (steady : B.Steady) {program : Nat}
    {found : Program B} {key : ProgramKey} {version : Version B}
    {outcome : Except ProgramError (Kernels B)} {context : CompileContext}
    (present : world.program? program = some found)
    (inContext : world.context? found.manager = some context)
    (kept : (key, version) ∈ found.state.versions)
    (supplies : Supplies world version found outcome next) (work : Work B.State)
    (logless : work.log = "") :
    outcome.map Kernels.content =
      linkContent found.desc found.description found.state.conformances version.linkInput
        work := by
  cases supplies with
  | @kept kernels _ cached quiet ids =>
      obtain ⟨entry, listed, serial, conformances, rfl⟩ := kept_of_cached cached
      have upToDate := fresh.versions program found present context inContext key version kept
      have linked := upToDate.linked entry listed serial work logless
      rw [conformances] at linked
      exact linked.symm
  | failed missing links => exact link_content_of_links steady links logless
  | linked missing links quiet ids => exact link_content_of_links steady links logless

/-- Kernels that are kept are what linking gave. -/
theorem Fresh.supplies (fresh : world.Fresh) (steady : B.Steady) (sound : world.Sound)
    {program : Nat} {found : Program B} {key : ProgramKey} {version : Version B}
    {outcome : Except ProgramError (Kernels B)}
    (present : world.program? program = some found)
    (kept : (key, version) ∈ found.state.versions)
    (supplies : Supplies world version found outcome next) : next.Fresh := by
  cases supplies with
  | kept cached quiet ids => exact fresh.quiet quiet
  | failed missing links => exact fresh.quiet links.quiet
  | @linked kernels linkedIn _ missing links quiet ids =>
      have linkedFresh : linkedIn.Fresh := fresh.quiet links.quiet
      refine Fresh.quiet ?_ quiet
      refine ⟨linkedFresh.indexed, ?_⟩
      intro other later laterPresent context inContext otherKey rival rivalKept
      have upToDate := linkedFresh.versions other later laterPresent context inContext otherKey
        rival rivalKept
      refine ⟨upToDate.name, upToDate.compiled, ?_⟩
      intro entry listed serial work logless
      rcases List.mem_append.mp listed with earlier | last
      · exact upToDate.linked entry earlier serial work logless
      · cases List.mem_singleton.mp last
        have laterBefore := (links.quiet.programs other).symm.trans laterPresent
        -- The kernels are for this version, so it is one of the same program.
        have isProduced := sound.produced program found present _ kept
        have rivalProduced := sound.produced other later laterBefore _ rivalKept
        have rivalEq := sound.distinct program found other later present laterBefore version
          isProduced rival rivalProduced serial
        cases rivalEq
        have owner := (sound.owned program found present version isProduced).1
        have otherOwner := (sound.owned other later laterBefore version rivalProduced).1
        cases otherOwner.symm.trans owner
        cases present.symm.trans laterBefore
        exact (link_content_of_links steady links logless).symm

theorem Fresh.provides (fresh : world.Fresh) (steady : B.Steady) (sound : world.Sound)
    {program : Nat} {found : Program B} {outcome : Except ProgramError (Kernels B)}
    (present : world.program? program = some found)
    (provides : Provides world program found outcome next) : next.Fresh := by
  cases provides with
  | unresolved answered resolves => exact fresh.resolves steady sound present resolves
  | resolved answered resolves settled supplies =>
      have soundBetween := sound.resolves present resolves
      have freshBetween := fresh.resolves steady sound present resolves
      exact freshBetween.supplies steady soundBetween settled.present settled.kept supplies

end World

end ShaderCache
