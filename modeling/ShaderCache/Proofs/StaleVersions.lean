import ShaderCache.Proofs.Echo
import ShaderCache.Proofs.Interleaving

/-!
# No stale versions

Whatever the interleaving, a version that was compiled under other settings than those of now
belongs to a program that a setter is still going to reset. So when no setter is on its way, every
version is of now.
-/

set_option autoImplicit false

namespace ShaderCache

variable {B : Backend}

namespace Interleaved

/-! ## What is still going to be reset -/

/-- The setter is going to reset the program: it has not listed the programs of its manager yet,
or has listed this one and not come to it. -/
def Covers (manager program : Nat) : Sweep → Prop
  | .written sweeper => sweeper = manager
  | .resetting sweeper due _ => sweeper = manager ∧ program ∈ due

theorem covers_manager {manager program : Nat} {sweep : Sweep}
    (covers : Covers manager program sweep) : sweep.manager = manager := by
  cases sweep with
  | written sweeper => exact covers
  | resetting sweeper due count => exact covers.1

def Pending (sweeps : List Sweep) (manager program : Nat) : Prop :=
  ∃ sweep ∈ sweeps, Covers manager program sweep

/-- The settings are those of now, or a setter is going to reset the program. -/
def Upheld (state : Interleaved B) (manager program : Nat) (settings : Settings) : Prop :=
  state.world.settings? manager = some settings ∨ Pending state.sweeps manager program

theorem Pending.append {sweeps : List Sweep} {manager program : Nat}
    (pending : Pending sweeps manager program) (more : List Sweep) :
    Pending (sweeps ++ more) manager program := by
  obtain ⟨sweep, present, covers⟩ := pending
  exact ⟨sweep, List.mem_append_left more present, covers⟩

/-- A setter may go on to something that covers the program as well. -/
theorem Pending.advance {before after : List Sweep} {sweep : Sweep} {manager program : Nat}
    (pending : Pending (before ++ sweep :: after) manager program) (middle : List Sweep)
    (covered : Covers manager program sweep → Pending middle manager program) :
    Pending (before ++ (middle ++ after)) manager program := by
  obtain ⟨other, present, covers⟩ := pending
  rcases List.mem_append.mp present with early | late
  · exact ⟨other, List.mem_append_left _ early, covers⟩
  · rcases List.mem_cons.mp late with rfl | later
    · obtain ⟨next, isNext, nextCovers⟩ := covered covers
      exact ⟨next, List.mem_append_right _ (List.mem_append_left _ isNext), nextCovers⟩
    · exact ⟨other, List.mem_append_right _ (List.mem_append_right _ later), covers⟩

/-! ## The invariant -/

/-- A kept version with what it was compiled with: what compiling in that context gave, and a
context of now or of a program that is going to be reset. -/
structure Traced (state : Interleaved B) (program : Nat) (found : Program B) (key : ProgramKey)
    (version : Version B) (context : CompileContext) : Prop where
  recorded : state.origins[version.serial]? = some context
  compiled : ∃ work : Work B.State,
    compileOutcome context found.desc found.description key.defines work = .ok version.compiled
  upheld : Upheld state found.manager program context.settings
  frame : (state.world.context? found.manager).map (·.under context.settings) = some context

structure Guarded (state : Interleaved B) : Prop where
  sound : state.world.Sound
  counted : state.origins.length = state.world.versionCount
  /-- A lock has one holder. -/
  exclusive : (state.calls.map Call.program).Nodup
  /-- A program stays alive, and without a version for its configuration, while a call holds its
  lock. -/
  waiting : ∀ call ∈ state.calls, ∃ found, state.world.program? call.program = some found ∧
    found.state.cached? found.state.key = none
  reading : ∀ call ∈ state.calls, ∀ settings, call.settings = some settings →
    ∀ found, state.world.program? call.program = some found →
      Upheld state found.manager call.program settings
  traced : ∀ program found, state.world.program? program = some found →
    ∀ key version, (key, version) ∈ found.state.versions →
      ∃ context, Traced state program found key version context

/-- Steps that neither compile nor take or read anything for a call: the programs under lock stay
as they are, and every other program keeps its versions or loses them all. -/
theorem Guarded.carried {state : Interleaved B} (guarded : Guarded state) {world : World B}
    {sweeps : List Sweep} (sound : world.Sound)
    (count : world.versionCount = state.world.versionCount)
    (contexts : ∀ manager settings, (world.context? manager).map (·.under settings) =
      (state.world.context? manager).map (·.under settings))
    (locked : ∀ call ∈ state.calls,
      world.program? call.program = state.world.program? call.program)
    (programs : ∀ program later, world.program? program = some later →
      (later.state.versions = [] ∧ state.Free program) ∨
      ∃ found, state.world.program? program = some found ∧
        later = { found with state := later.state } ∧
        later.state.versions = found.state.versions ∧
        ∀ settings, Upheld state found.manager program settings →
          Upheld { state with world := world, sweeps := sweeps } found.manager program settings) :
    Guarded { state with world := world, sweeps := sweeps } where
  sound := sound
  counted := guarded.counted.trans count.symm
  exclusive := guarded.exclusive
  waiting call isCall := by
    obtain ⟨found, present, missing⟩ := guarded.waiting call isCall
    exact ⟨found, (locked call isCall).trans present, missing⟩
  reading call isCall settings read later present := by
    rcases programs call.program later present with ⟨_, free⟩ | ⟨found, former, same, _, upheld⟩
    · exact absurd rfl (free call isCall)
    · rw [same]
      exact upheld settings (guarded.reading call isCall settings read found former)
  traced program later present key version kept := by
    rcases programs program later present with ⟨none, _⟩ | ⟨found, former, same, versions, upheld⟩
    · simp [none] at kept
    · rw [versions] at kept
      obtain ⟨context, traced⟩ := guarded.traced program found former key version kept
      rw [same]
      exact ⟨context, traced.recorded, traced.compiled, upheld _ traced.upheld,
        (contexts _ _).trans traced.frame⟩

/-! ## Steps -/

variable {state : Interleaved B} (guarded : Guarded state)

include guarded

/-- The states between steps differ for no program. -/
theorem Guarded.same_world {sweeps : List Sweep}
    (pending : ∀ program found, state.world.program? program = some found →
      Pending state.sweeps found.manager program → Pending sweeps found.manager program) :
    Guarded { state with sweeps := sweeps } := by
  apply guarded.carried guarded.sound rfl (fun _ _ => rfl) (fun _ _ => rfl)
  intro program later present
  refine .inr ⟨later, present, rfl, rfl, ?_⟩
  intro settings upheld
  exact upheld.imp_right (pending program later present)

/-- A write that changes something is followed by a sweep that has not listed anybody yet. -/
theorem Guarded.write {manager : Nat} {settings : Settings} (edit : World.SettingsEdit)
    (managed : state.world.settings? manager = some settings) :
    Guarded { state with
      world := state.world.configure manager fun current => edit.apply current
      sweeps := state.sweeps ++ if edit.sweeps settings then [.written manager] else [] } := by
  refine guarded.carried (guarded.sound.configure manager _) rfl ?_ (fun _ _ => rfl) ?_
  · intro other under
    rw [World.context_configure]
    split
    next here =>
      rw [here]
      cases state.world.context? manager <;> rfl
    next => rfl
  · intro program later present
    refine .inr ⟨later, present, rfl, rfl, ?_⟩
    intro old upheld
    rcases upheld with current | pending
    · by_cases here : later.manager = manager
      · rw [here, managed] at current
        cases current
        cases sweeping : edit.sweeps settings with
        | true =>
            exact .inr ⟨.written manager, List.mem_append_right _ (by simp), here.symm⟩
        | false =>
            left
            rw [World.settings_of_setup, World.setup_configure, if_pos here]
            rw [World.settings_of_setup] at managed
            obtain ⟨setup, setupManaged, rfl⟩ := Option.map_eq_some_iff.mp managed
            rw [setupManaged]
            simp only [Option.map_some, World.SettingsEdit.apply_of_not_sweeps sweeping]
      · left
        rw [World.settings_of_setup, World.setup_configure, if_neg here,
          ← World.settings_of_setup]
        exact current
    · exact .inr (pending.append _)

/-- Every program that is alive is registered, so no snapshot misses one. -/
theorem Guarded.snapshot {before after : List Sweep} {manager : Nat} {due : List Nat}
    (next : state.sweeps = before ++ .written manager :: after)
    (listed : due.Perm (state.world.registered manager)) :
    Guarded { state with sweeps := before ++ .resetting manager due due.length :: after } := by
  apply guarded.same_world
  intro program found present pending
  rw [next] at pending
  apply pending.advance [.resetting manager due due.length]
  intro covers
  obtain ⟨setup, managed, registered⟩ := guarded.sound.managed program found present
  have same : manager = found.manager := covers
  have isRegistered := state.world.registered_of_setup managed present registered
  exact ⟨_, List.mem_singleton.mpr rfl, same, listed.mem_iff.mpr (same ▸ isRegistered)⟩

/-- A program that has been reset keeps nothing that could be stale, and no call is at it. -/
theorem Guarded.reset {before after : List Sweep} {manager program count : Nat} {due : List Nat}
    (next : state.sweeps = before ++ .resetting manager (program :: due) count :: after)
    (free : state.Free program) :
    Guarded { state with
      world := state.world.resetProgram program
      sweeps := before ++ .resetting manager due count :: after } := by
  have alters := World.alters_modify_state state.world program ProgramState.reset
  have sound : (state.world.resetProgram program).Sound :=
    guarded.sound.modify_state fun found _ => World.tame_reset found.state
  apply guarded.carried sound alters.versionCount
  · intro other under
    simp only [World.context?, World.resetProgram, alters.setups, alters.files]
  · intro call isCall
    rw [World.resetProgram, World.program_modify_state, if_neg (free call isCall)]
  · intro other later present
    obtain ⟨former, formerPresent, rfl⟩ := alters.program present
    by_cases here : other = program
    · refine .inl ⟨by simp [World.changeOf, here, ProgramState.reset], here ▸ free⟩
    · refine .inr ⟨former, formerPresent, rfl, by simp [World.changeOf, here], ?_⟩
      intro settings upheld
      rcases upheld with current | pending
      · left
        simp only [World.settings_of_setup, World.resetProgram, alters.setups]
        rw [← World.settings_of_setup]
        exact current
      · rw [next] at pending
        refine .inr (pending.advance [.resetting manager due count] ?_)
        intro covers
        obtain ⟨same, isDue⟩ := covers
        have stillDue : other ∈ due := (List.mem_cons.mp isDue).resolve_left here
        exact ⟨_, List.mem_singleton.mpr rfl, same, stillDue⟩

theorem Guarded.finish {before after : List Sweep} {manager count : Nat}
    (next : state.sweeps = before ++ .resetting manager [] count :: after) :
    Guarded { state with
      world := state.world.emit (.programsReloaded count)
      sweeps := before ++ after } := by
  have quiet := World.quiet_emit state.world (.programsReloaded count)
  apply guarded.carried (guarded.sound.quiet quiet) rfl (fun _ _ => rfl) (fun _ _ => rfl)
  intro program later present
  refine .inr ⟨later, present, rfl, rfl, fun settings upheld => upheld.imp_right ?_⟩
  intro pending
  rw [next] at pending
  apply pending.advance []
  intro covers
  simp [Covers] at covers

/-- Operations that leave the sweeps alone, and the programs under lock. -/
theorem Guarded.quietly {world : World B} (sound : world.Sound)
    (count : world.versionCount = state.world.versionCount)
    (contexts : ∀ manager, world.context? manager = state.world.context? manager)
    (locked : ∀ call ∈ state.calls,
      world.program? call.program = state.world.program? call.program)
    (programs : ∀ program later, world.program? program = some later →
      (later.state.versions = [] ∧ state.Free program) ∨
      ∃ found, state.world.program? program = some found ∧
        later = { found with state := later.state } ∧
        later.state.versions = found.state.versions) :
    Guarded { state with world := world } := by
  have settings : ∀ manager, world.settings? manager = state.world.settings? manager := by
    intro manager
    have same := congrArg (Option.map CompileContext.settings) (contexts manager)
    simp only [World.context?, Option.map_map] at same
    rw [World.settings_of_setup, World.settings_of_setup]
    exact same
  apply guarded.carried sound count (fun manager under => by rw [contexts]) locked
  intro program later present
  rcases programs program later present with lost | ⟨found, former, same, versions⟩
  · exact .inl lost
  · refine .inr ⟨found, former, same, versions, fun under upheld => upheld.imp_left ?_⟩
    intro current
    exact (settings found.manager).trans current

theorem Guarded.create (manager : Nat) (desc : ProgramDesc) (defines : DefineList) :
    Guarded { state with
      world := (state.world.perform (.newProgram manager desc defines)).2 } := by
  have soundNext := guarded.sound.perform (.newProgram manager desc defines)
  have performs := guarded.sound.performs (.newProgram manager desc defines)
  generalize (state.world.perform (.newProgram manager desc defines)).1 = answer at performs
  generalize (state.world.perform (.newProgram manager desc defines)).2 = next
    at performs soundNext
  cases performs with
  | unmanaged absent => exact guarded
  | untargeted target => simp [Operation.target?] at target
  | swept sweeping => simp [Operation.sweeping] at sweeping
  | created managed creates =>
      -- The serial number of the new program is none of those that are in use.
      have free : state.Free state.world.programCount := by
        intro call isCall here
        obtain ⟨held, heldPresent, _⟩ := guarded.waiting call isCall
        have numbered := guarded.sound.numbered call.program held heldPresent
        omega
      apply guarded.quietly soundNext creates.versionCount (creates.context managed)
      · intro call isCall
        rw [creates.programs, if_neg (free call isCall)]
      · intro program later present
        rw [creates.programs] at present
        split at present
        next here =>
          cases present
          exact .inl ⟨rfl, here ▸ free⟩
        next => exact .inr ⟨later, present, rfl, rfl⟩

theorem Guarded.operate {operation : Operation} {program : Nat}
    (locks : operation.locked? = some program) (free : state.Free program) :
    Guarded { state with world := (state.world.perform operation).2 } := by
  have soundNext := guarded.sound.perform operation
  have performs := guarded.sound.performs operation
  generalize (state.world.perform operation).1 = answer at performs
  generalize (state.world.perform operation).2 = next at performs soundNext
  cases performs with
  | unmanaged absent => exact guarded
  | untargeted target absent => exact guarded
  | created => simp [Operation.locked?] at locks
  | resolved => simp [Operation.locked?] at locks
  | provided => simp [Operation.locked?] at locks
  | dropped present drops =>
      cases locks
      apply guarded.quietly soundNext drops.versionCount drops.context
      · intro call isCall
        rw [drops.programs, if_neg (free call isCall)]
      · intro other later laterPresent
        rw [drops.programs] at laterPresent
        split at laterPresent
        next => simp at laterPresent
        next => exact .inr ⟨later, laterPresent, rfl, rfl⟩
  | @edited _ edit _ _ present alters ids =>
      cases locks
      apply guarded.quietly soundNext alters.versionCount
      · intro manager
        simp only [World.context?, alters.setups, alters.files]
      · intro call isCall
        rw [alters.programs]
        simp [World.changeOf, free call isCall]
      · intro other later laterPresent
        obtain ⟨former, formerPresent, rfl⟩ := alters.program laterPresent
        exact .inr ⟨former, formerPresent, rfl, World.change_of_keeps ProgramState.versions _
          (fun kept => (ProgramState.edited_from kept edit).versions) other former.state⟩
  | swept sweeping alters ids =>
      cases operation with
      | resetProgram reset =>
          cases locks
          apply guarded.quietly soundNext alters.versionCount
          · intro manager
            simp only [World.context?, alters.setups, alters.files]
            rfl
          · intro call isCall
            rw [alters.programs]
            have spared : call.program ∉ state.world.resets (.resetProgram program) := by
              simpa [World.resets] using free call isCall
            simp only [World.resetDue, spared, ↓reduceIte]
            simp [World.written]
          · intro other later laterPresent
            obtain ⟨former, formerPresent, rfl⟩ := alters.program laterPresent
            by_cases here : other = program
            · refine .inl ⟨?_, here ▸ free⟩
              simp [World.resetDue, World.resets, here, ProgramState.reset]
            · refine .inr ⟨former, formerPresent, rfl, ?_⟩
              simp [World.resetDue, World.resets, here]
      | _ => simp [Operation.locked?, Operation.sweeping] at locks sweeping

/-- A call that finds a version makes none. -/
theorem Guarded.answer {program : Nat} {found : Program B}
    {outcome : Except ProgramError (Version B)} {next : World B} (free : state.Free program)
    (present : state.world.program? program = some found) (ready : Ready found)
    (answered : state.world.activeVersion program = some (outcome, next)) :
    Guarded { state with world := next } := by
  obtain ⟨other, last, answer, resolves⟩ := guarded.sound.active_version_resolves present
  cases answered.symm.trans answer
  have soundNext := guarded.sound.resolves present resolves
  cases resolves with
  | current clean => exact guarded
  | @adopted version _ unclean cached quiet ids =>
      have alters := (World.alters_modify_state state.world program
        fun kept => kept.adopt version).followed quiet
      apply guarded.quietly soundNext alters.versionCount
      · intro manager
        simp only [World.context?, alters.setups, alters.files]
      · intro call isCall
        rw [alters.programs]
        simp [World.changeOf, free call isCall]
      · intro one later laterPresent
        obtain ⟨former, formerPresent, rfl⟩ := alters.program laterPresent
        have versions := World.change_of_keeps ProgramState.versions program
          (show ∀ kept, (ProgramState.adopt kept version).versions = kept.versions from
            fun _ => rfl) one former.state
        exact .inr ⟨former, formerPresent, rfl, versions⟩
  | compiled unclean missing managed compiles =>
      rcases ready with ⟨version, clean⟩ | ⟨version, cached⟩
      · simp [clean] at unclean
      · simp [cached] at missing

/-! ## Calls under way -/

theorem Guarded.lock {program : Nat} {found : Program B} (free : state.Free program)
    (present : state.world.program? program = some found) (unready : ¬ Ready found) :
    Guarded { state with calls := state.calls ++ [{ program := program }] } where
  sound := guarded.sound
  counted := guarded.counted
  exclusive := by
    rw [List.map_append, List.nodup_append]
    refine ⟨guarded.exclusive, List.nodup_singleton _, ?_⟩
    intro other isHeld last isLast same
    obtain ⟨call, isCall, rfl⟩ := List.mem_map.mp isHeld
    have lastEq : last = program := List.mem_singleton.mp isLast
    exact free call isCall (same.trans lastEq)
  waiting call isCall := by
    rcases List.mem_append.mp isCall with earlier | last
    · exact guarded.waiting call earlier
    · rw [List.mem_singleton.mp last]
      refine ⟨found, present, ?_⟩
      by_contra cached
      exact unready (.inr (Option.ne_none_iff_exists'.mp cached))
  reading call isCall settings read other otherPresent := by
    rcases List.mem_append.mp isCall with earlier | last
    · exact guarded.reading call earlier settings read other otherPresent
    · rw [List.mem_singleton.mp last] at read
      simp at read
  traced program found present key version kept := by
    obtain ⟨context, traced⟩ := guarded.traced program found present key version kept
    exact ⟨context, traced.recorded, traced.compiled, traced.upheld, traced.frame⟩

/-- What is read is of now. -/
theorem Guarded.read {before after : List Call} {program : Nat} {found : Program B}
    {settings : Settings} (next : state.calls = before ++ ⟨program, none⟩ :: after)
    (present : state.world.program? program = some found)
    (managed : state.world.settings? found.manager = some settings) :
    Guarded { state with calls := before ++ ⟨program, some settings⟩ :: after } := by
  have former : ∀ call ∈ before ++ ⟨program, some settings⟩ :: after,
      call = ⟨program, some settings⟩ ∨ call ∈ state.calls := by
    intro call isCall
    rw [next]
    simp only [List.mem_append, List.mem_cons] at isCall ⊢
    tauto
  have held : (⟨program, none⟩ : Call) ∈ state.calls := by simp [next]
  refine ⟨guarded.sound, guarded.counted, ?_, ?_, ?_, ?_⟩
  · have exclusive := guarded.exclusive
    rw [next] at exclusive
    simpa using exclusive
  · intro call isCall
    rcases former call isCall with rfl | earlier
    · obtain ⟨kept, keptPresent, missing⟩ := guarded.waiting _ held
      exact ⟨kept, keptPresent, missing⟩
    · exact guarded.waiting call earlier
  · intro call isCall other read one onePresent
    rcases former call isCall with rfl | earlier
    · cases read
      cases present.symm.trans onePresent
      exact .inl managed
    · exact guarded.reading call earlier other read one onePresent
  · intro one found present key version kept
    obtain ⟨context, traced⟩ := guarded.traced one found present key version kept
    exact ⟨context, traced.recorded, traced.compiled, traced.upheld, traced.frame⟩

theorem Guarded.release {before after : List Call} {call : Call}
    (held : state.calls = before ++ call :: after) :
    Guarded { state with calls := before ++ after } ∧
      Free { state with calls := before ++ after } call.program := by
  have kept : ∀ other ∈ before ++ after, other ∈ state.calls := by
    intro other isCall
    rw [held]
    simp only [List.mem_append, List.mem_cons] at isCall ⊢
    tauto
  have exclusive := guarded.exclusive
  rw [held, List.map_append, List.map_cons, List.nodup_middle, List.nodup_cons,
    ← List.map_append] at exclusive
  refine ⟨⟨guarded.sound, guarded.counted, exclusive.2, ?_, ?_, ?_⟩, ?_⟩
  · intro other isCall
    exact guarded.waiting other (kept other isCall)
  · intro other isCall
    exact guarded.reading other (kept other isCall)
  · intro program found present key version isKept
    obtain ⟨context, traced⟩ := guarded.traced program found present key version isKept
    exact ⟨context, traced.recorded, traced.compiled, traced.upheld, traced.frame⟩
  · intro other isCall same
    exact exclusive.1 (List.mem_map.mpr ⟨other, isCall, same⟩)

/-- A version is committed with what its call has read, under whatever settings are in force by
now. -/
theorem Guarded.keep {program : Nat} {found : Program B} {settings : Settings}
    {context : CompileContext} {manager : Manager B} {compiled : CompiledVersion B}
    {next : World B} (free : state.Free program)
    (present : state.world.program? program = some found)
    (inContext : state.world.context? found.manager = some context)
    (upheld : Upheld state found.manager program settings)
    (makes : compileOutcome (context.under settings) found.desc found.description
      found.state.defines (state.world.workOf manager "") = .ok compiled)
    (soundNext : next.Sound)
    (alters : World.Alters { state.world with versionCount := state.world.versionCount + 1 } next
      (World.changeOf program fun kept =>
        kept.commit found.state.key (state.world.freshVersion program found compiled))) :
    Guarded { state with
      world := next
      origins := state.origins ++ [context.under settings] } := by
  have contexts : ∀ manager, next.context? manager = state.world.context? manager := by
    intro manager
    simp only [World.context?, alters.setups, alters.files]
    rfl
  have sameSettings : ∀ manager, next.settings? manager = state.world.settings? manager := by
    intro manager
    rw [World.settings_of_setup, World.settings_of_setup, alters.setups]
    rfl
  have locked : ∀ call ∈ state.calls,
      next.program? call.program = state.world.program? call.program := by
    intro call isCall
    rw [alters.programs]
    simp only [World.changeOf, free call isCall, ↓reduceIte, Option.map_id']
    rfl
  refine ⟨soundNext, ?_, guarded.exclusive, ?_, ?_, ?_⟩
  · simp [guarded.counted, alters.versionCount]
  · intro call isCall
    obtain ⟨held, heldPresent, heldMissing⟩ := guarded.waiting call isCall
    exact ⟨held, (locked call isCall).trans heldPresent, heldMissing⟩
  · intro call isCall old read later laterPresent
    rw [locked call isCall] at laterPresent
    apply (guarded.reading call isCall old read later laterPresent).imp_left
    intro current
    exact (sameSettings later.manager).trans current
  · intro other later laterPresent key version kept
    obtain ⟨former, formerPresent, rfl⟩ := alters.program laterPresent
    have formerBefore : state.world.program? other = some former := formerPresent
    have old : (key, version) ∈ former.state.versions → ∃ origin, Traced
        { state with world := next, origins := state.origins ++ [context.under settings] }
        other former key version origin := by
      intro earlier
      obtain ⟨origin, traced⟩ := guarded.traced other former formerBefore key version earlier
      obtain ⟨bound, _⟩ := List.getElem?_eq_some_iff.mp traced.recorded
      refine ⟨origin, ?_, traced.compiled, traced.upheld.imp_left ?_, ?_⟩
      · exact (List.getElem?_append_left bound).trans traced.recorded
      · intro current
        exact (sameSettings former.manager).trans current
      · exact (congrArg _ (contexts former.manager)).trans traced.frame
    rcases World.mem_versions_committed kept with earlier | ⟨here, last⟩
    · obtain ⟨origin, traced⟩ := old earlier
      exact ⟨origin, traced.recorded, traced.compiled, traced.upheld, traced.frame⟩
    · cases last
      subst here
      cases present.symm.trans formerBefore
      refine ⟨context.under settings, ?_, ⟨_, makes⟩, ?_, ?_⟩
      · have serial : (state.world.freshVersion other found compiled).serial =
            state.origins.length := guarded.counted.symm
        rw [serial]
        exact List.getElem?_concat_length
      · exact upheld.imp_left fun current => (sameSettings found.manager).trans current
      · simp only [contexts, inContext, Option.map_some]
        rfl

theorem Guarded.commit {before after : List Call} {program : Nat} {found : Program B}
    {settings : Settings} {context : CompileContext} {outcome : Except ProgramError (Version B)}
    {next : World B} (compiling : state.calls = before ++ ⟨program, some settings⟩ :: after)
    (present : state.world.program? program = some found)
    (inContext : state.world.context? found.manager = some context)
    (compiled : state.world.compileActive settings program found = some (outcome, next)) :
    Guarded { state with
      world := next
      calls := before ++ after
      origins := recorded state.origins (context.under settings) outcome } := by
  have held : (⟨program, some settings⟩ : Call) ∈ state.calls := by simp [compiling]
  obtain ⟨setup, managed, sameContext⟩ := Option.map_eq_some_iff.mp inContext
  obtain ⟨manager, managedBy, sameSetup⟩ := state.world.manager_of_setup managed
  have contextEq : { manager.context state.world.files with settings := settings } =
      context.under settings := by
    rw [← sameContext, ← sameSetup]
    rfl
  obtain ⟨other, last, compiledTo, compiles⟩ :=
    state.world.compile_active_compiles settings program managedBy
  cases compiled.symm.trans compiledTo
  obtain ⟨kept, keptPresent, missing⟩ := guarded.waiting _ held
  cases present.symm.trans keptPresent
  have upheld := guarded.reading _ held settings rfl found present
  have soundNext := guarded.sound.compiles_active present missing compiles
  obtain ⟨released, free⟩ := guarded.release compiling
  cases compiles with
  | failed managedByOther fails quiet ids =>
      refine released.quietly soundNext quiet.versionCount ?_
        (fun call _ => quiet.programs call.program) ?_
      · intro manager
        simp only [World.context?, quiet.setups, quiet.files]
      · intro one later laterPresent
        rw [quiet.programs] at laterPresent
        exact .inr ⟨later, laterPresent, rfl, rfl⟩
  | made managedByOther makes quiet id ids =>
      cases managedBy.symm.trans managedByOther
      rw [contextEq] at makes
      exact released.keep free present inContext upheld makes soundNext
        ((World.alters_modify_state _ program _).followed quiet)

theorem Guarded.step {next : Interleaved B} (step : Step state next) : Guarded next := by
  cases step with
  | write edit managed => exact guarded.write edit managed
  | snapshot next listed => exact guarded.snapshot next listed
  | reset next free => exact guarded.reset next free
  | finish next => exact guarded.finish next
  | create manager desc defines => exact guarded.create manager desc defines
  | operate locks free => exact guarded.operate locks free
  | answer free present ready answered => exact guarded.answer free present ready answered
  | lock free present unready => exact guarded.lock free present unready
  | read next present managed => exact guarded.read next present managed
  | commit compiling present inContext compiled =>
      exact guarded.commit compiling present inContext compiled

omit guarded

theorem guarded_start (files : FileTree) (managers : List (Manager B)) :
    Guarded (start files managers) where
  sound := World.sound_opening files managers
  counted := rfl
  exclusive := List.nodup_nil
  waiting call isCall := by simp [start] at isCall
  reading call isCall := by simp [start] at isCall
  traced program found present := by simp [start, World.program_opening] at present

theorem guarded_reachable {files : FileTree} {managers : List (Manager B)}
    (reachable : Reachable files managers state) : Guarded state := by
  induction reachable with
  | refl => exact guarded_start files managers
  | tail _ step guarded => exact guarded.step step

/-- In every state that an interleaving reaches: if no setter of a program's manager is between
its write and the end of its sweep, then every version that the program keeps was compiled with
the manager's settings of now, and is what compiling the program with them for the defines of its
configuration gives. -/
theorem no_stale_version {files : FileTree} {managers : List (Manager B)}
    (reachable : Reachable files managers state) {program : Nat} {found : Program B}
    (present : state.world.program? program = some found)
    (settled : ∀ sweep ∈ state.sweeps, sweep.manager ≠ found.manager) :
    ∃ context, state.world.context? found.manager = some context ∧
      ∀ key version, (key, version) ∈ found.state.versions →
        state.origins[version.serial]? = some context ∧
        ∃ work : Work B.State,
          compileOutcome context found.desc found.description key.defines work =
            .ok version.compiled := by
  have guarded := guarded_reachable reachable
  obtain ⟨setup, managed, _⟩ := guarded.sound.managed program found present
  have inContext : state.world.context? found.manager =
      some (setup.context state.world.files) := by
    simp only [World.context?, managed, Option.map_some]
  refine ⟨setup.context state.world.files, inContext, ?_⟩
  intro key version kept
  obtain ⟨context, traced⟩ := guarded.traced program found present key version kept
  have current : state.world.settings? found.manager = some context.settings := by
    apply traced.upheld.resolve_right
    rintro ⟨sweep, isSweep, covers⟩
    exact settled sweep isSweep (covers_manager covers)
  have same : setup.context state.world.files = context := by
    have frame := traced.frame
    rw [inContext, Option.map_some, Option.some.injEq] at frame
    rw [World.settings_of_setup, managed, Option.map_some, Option.some.injEq] at current
    rw [← frame, ← current]
    rfl
  rw [same]
  exact ⟨traced.recorded, traced.compiled⟩

/-- A version is compiled, the settings change, and another one is compiled. -/
theorem no_stale_version_after_setter :
    ∃ (state : Interleaved Backend.echo) (found : Program Backend.echo),
      Reachable {} [Manager.echo] state ∧ state.world.program? 0 = some found ∧
      found.state.versions.length = 1 ∧
      ∃ context, state.world.context? found.manager = some context ∧
        context.settings.debugInfo = true ∧
        ∀ key version, (key, version) ∈ found.state.versions →
          state.origins[version.serial]? = some context := by
  let made := ((World.opening {} [Manager.echo]).perform (.newProgram 0 .oneKernel ∅)).2
  let swept := (made.perform (.activeVersion 0)).2.editSettings 0 (.setDebugInfo true)
  have firstAnswer : (made.activeVersion 0).isSome = true := by decide +kernel
  have lastAnswer : ((swept.activeVersion 0).bind fun answer =>
      (answer.2.program? 0).map fun found => (found.manager, found.state.versions.length)) =
        some (0, 1) := by
    decide +kernel
  have settings : ((swept.activeVersion 0).bind fun answer =>
      (answer.2.context? 0).map fun context => context.settings.debugInfo) = some true := by
    decide +kernel
  obtain ⟨⟨outcome, compiled⟩, first⟩ := Option.isSome_iff_exists.mp firstAnswer
  have compiledEq : (made.perform (.activeVersion 0)).2 = compiled := by
    simp [World.perform, first, World.conclude]
  obtain ⟨⟨lastOutcome, last⟩, second, evaluated⟩ := Option.bind_eq_some_iff.mp lastAnswer
  obtain ⟨found, present, values⟩ := Option.map_eq_some_iff.mp evaluated
  obtain ⟨managedBy, oneVersion⟩ := Prod.mk.inj values
  rw [second, Option.bind_some] at settings
  obtain ⟨context, inContext, debugInfo⟩ := Option.map_eq_some_iff.mp settings
  have created : Step (start {} [Manager.echo]) ⟨made, [], [], []⟩ :=
    .create 0 .oneKernel ∅
  obtain ⟨origins, firstSteps⟩ := steps_active_version [] [] first
  have setterSteps := steps_edit_settings compiled [] origins 0 (.setDebugInfo true)
  rw [← compiledEq] at setterSteps firstSteps
  obtain ⟨laterOrigins, lastSteps⟩ := steps_active_version [] origins second
  have reachable : Reachable {} [Manager.echo] ⟨last, [], [], laterOrigins⟩ :=
    (((Relation.ReflTransGen.single created).trans firstSteps).trans setterSteps).trans lastSteps
  obtain ⟨current, isCurrent, fresh⟩ := no_stale_version reachable present (by simp)
  refine ⟨_, found, reachable, present, oneVersion, current, isCurrent, ?_,
    fun key version kept => (fresh key version kept).1⟩
  rw [managedBy] at isCurrent
  cases inContext.symm.trans isCurrent
  exact debugInfo

end Interleaved

end ShaderCache
