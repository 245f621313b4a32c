import ShaderCache.Proofs.ArchiveInvariant
import ShaderCache.Proofs.FailedCalls

/-!
# Twins

Two worlds are twins if they differ in nothing but identifiers of versions, reports and states of
backends that are close. If the backend does not tell close states apart, every request is
answered the same in both, up to identifiers, and leads to twins again.
-/

set_option autoImplicit false

namespace ShaderCache

variable {B : Backend}

/-! ## Equal images -/

/-- Images that are equal come from nothing or from something on both sides. -/
theorem some_of_map_eq {Value Kept : Type} {view : Value → Kept} {one other : Option Value}
    (same : other.map view = one.map view) {value : Value} (present : one = some value) :
    ∃ twin, other = some twin ∧ view twin = view value := by
  rw [present, Option.map_some] at same
  exact Option.map_eq_some_iff.mp same

theorem none_of_map_eq {Value Kept : Type} {view : Value → Kept} {one other : Option Value}
    (same : other.map view = one.map view) (absent : one = none) : other = none := by
  rw [absent, Option.map_none] at same
  exact Option.map_eq_none_iff.mp same

/-- Outcomes with equal images agree. -/
theorem agree_of_map_eq {Failure Value Kept : Type} {view : Value → Kept}
    {one other : Except Failure Value} (same : other.map view = one.map view) :
    Job.Agree (fun value another => view another = view value) one other := by
  cases one with
  | error failure =>
      cases other with
      | ok another => cases same
      | error otherFailure =>
          cases same
          exact .error failure
  | ok value =>
      cases other with
      | error otherFailure => cases same
      | ok another => exact .ok (Except.ok.inj same)

/-! ## Identifiers left out -/

def Version.unnumbered (version : Version B) : Version B :=
  { version with compiled := version.compiled.unnumbered }

def Kernels.unnumbered (kernels : Kernels B) : Kernels B :=
  { kernels with linked := kernels.linked.unnumbered }

def CachedKernels.unnumbered (entry : CachedKernels B) : CachedKernels B :=
  { entry with kernels := entry.kernels.unnumbered }

namespace ProgramState

def unnumbered (state : ProgramState B) : ProgramState B :=
  { state with
    active := state.active.map Version.unnumbered
    versions := state.versions.map fun entry => (entry.1, entry.2.unnumbered)
    produced := state.produced.map Version.unnumbered }

theorem edit_unnumbered (state : ProgramState B) (edit : Edit) :
    state.unnumbered.edit edit = ((state.edit edit).1, (state.edit edit).2.unnumbered) := by
  cases edit with
  | addConformance typeName interfaceName id =>
      by_cases present : state.conformances.contains ⟨typeName, interfaceName⟩
      · simp [ProgramState.edit, addConformance, unnumbered, present]
      · simp [ProgramState.edit, addConformance, unnumbered, withConformances, present]
  | _ => rfl

theorem commit_unnumbered (state : ProgramState B) (key : ProgramKey) (version : Version B) :
    (state.commit key version).unnumbered = state.unnumbered.commit key version.unnumbered := by
  simp [commit, unnumbered, List.filter_map, Function.comp_def]

theorem adopt_unnumbered (state : ProgramState B) (version : Version B) :
    (state.adopt version).unnumbered = state.unnumbered.adopt version.unnumbered :=
  rfl

theorem current_unnumbered (state : ProgramState B) :
    state.unnumbered.current? = state.current?.map Version.unnumbered := by
  unfold current?
  cases dirty : state.dirty <;> simp [unnumbered, dirty]

theorem cached_unnumbered (state : ProgramState B) (key : ProgramKey) :
    state.unnumbered.cached? key = (state.cached? key).map Version.unnumbered := by
  simp only [cached?, unnumbered]
  induction state.versions with
  | nil => rfl
  | cons entry rest ih =>
      obtain ⟨one, version⟩ := entry
      simp only [List.map_cons, List.lookup_cons, ih]
      split <;> rfl

theorem has_cached_unnumbered (state : ProgramState B) :
    state.unnumbered.hasCachedState = state.hasCachedState := by
  simp [hasCachedState, unnumbered]

theorem key_of_unnumbered {state other : ProgramState B}
    (same : other.unnumbered = state.unnumbered) : other.key = state.key := by
  obtain ⟨defines, conformances, _⟩ := ProgramState.mk.inj same
  simp only [key, defines, conformances]

theorem serials_of_produced {state other : ProgramState B}
    (same : other.unnumbered = state.unnumbered) :
    other.produced.map Version.serial = state.produced.map Version.serial := by
  have produced : other.produced.map Version.unnumbered = state.produced.map Version.unnumbered :=
    congrArg ProgramState.produced same
  have serials := congrArg (List.map Version.serial) produced
  rw [List.map_map, List.map_map] at serials
  exact serials

end ProgramState

def Program.unnumbered (program : Program B) : Program B :=
  { program with state := program.state.unnumbered }

/-- Programs that are the same without identifiers have the same fixed parts. -/
theorem Program.of_unnumbered {one other : Option (Program B)}
    (same : other.map unnumbered = one.map unnumbered) {found : Program B}
    (present : one = some found) :
    ∃ state, other = some { found with state := state } ∧
      state.unnumbered = found.state.unnumbered := by
  obtain ⟨⟨id, manager, desc, description, state⟩, otherPresent, alike⟩ :=
    some_of_map_eq same present
  simp only [unnumbered, mk.injEq] at alike
  obtain ⟨rfl, rfl, rfl, rfl, states⟩ := alike
  exact ⟨state, otherPresent, states⟩

namespace World

/-- The two worlds differ in nothing but identifiers of versions, reports and states of backends,
which are close. -/
structure Twin (close : B.State → B.State → Prop) (world other : World B) : Prop where
  files : other.files = world.files
  managers : ∀ manager : Nat,
    Option.Rel (Manager.Close close) world.managers[manager]? other.managers[manager]?
  programs : ∀ program, (other.program? program).map Program.unnumbered =
    (world.program? program).map Program.unnumbered
  kernels : other.kernels.map CachedKernels.unnumbered =
    world.kernels.map CachedKernels.unnumbered
  orphans : other.orphans = world.orphans
  programIds : other.programIds = world.programIds
  programCount : other.programCount = world.programCount
  versionCount : other.versionCount = world.versionCount
  kernelsCount : other.kernelsCount = world.kernelsCount

namespace Twin

variable {close : B.State → B.State → Prop} {world other : World B}

/-- A world that has not moved is a twin of whatever it was a twin of. -/
theorem unmoved {next : World B} (twin : Twin close world other) (equivalence : Equivalence close)
    (unmoved : Unmoved close world next) : Twin close next other where
  files := twin.files.trans unmoved.files.symm
  managers manager := by
    have here := twin.managers manager
    have there := unmoved.managers manager
    generalize world.managers[manager]? = one at here there
    generalize other.managers[manager]? = two at here ⊢
    generalize next.managers[manager]? = three at there ⊢
    cases here with
    | none =>
        cases there
        exact .none
    | some first =>
        cases there with
        | some second =>
            refine .some ⟨?_, equivalence.trans (equivalence.symm second.service) first.service⟩
            rw [second.same]
            exact first.same
  programs program := by
    rw [twin.programs]
    simp only [program?, unmoved.programs]
  kernels := by rw [twin.kernels, unmoved.kernels]
  orphans := twin.orphans.trans unmoved.orphans.symm
  programIds := twin.programIds.trans unmoved.programIds.symm
  programCount := twin.programCount.trans unmoved.programCount.symm
  versionCount := twin.versionCount.trans unmoved.versionCount.symm
  kernelsCount := twin.kernelsCount.trans unmoved.kernelsCount.symm

variable (twin : Twin close world other)

include twin

/-! ### Looking things up -/

theorem absent {program : Nat} (absent : world.program? program = none) :
    other.program? program = none :=
  none_of_map_eq (twin.programs program) absent

theorem present {program : Nat} {found : Program B}
    (present : world.program? program = some found) :
    ∃ state, other.program? program = some { found with state := state } ∧
      state.unnumbered = found.state.unnumbered :=
  Program.of_unnumbered (twin.programs program) present

theorem unmanaged {manager : Nat} (absent : world.managers[manager]? = none) :
    other.managers[manager]? = none := by
  have here := twin.managers manager
  rw [absent] at here
  generalize other.managers[manager]? = found at here ⊢
  cases here
  rfl

theorem managed {manager : Nat} {found : Manager B}
    (managed : world.managers[manager]? = some found) :
    ∃ service, other.managers[manager]? = some { found with service := service } ∧
      close found.service service := by
  have here := twin.managers manager
  rw [managed] at here
  generalize other.managers[manager]? = twinFound at here ⊢
  cases here with
  | some alike =>
      refine ⟨_, ?_, alike.service⟩
      rw [← alike.same]

/-! ### Parts of worlds -/

theorem reported (events others : List Event) (ids otherIds : IdSequence) :
    Twin close { world with events := events, versionIds := ids }
      { other with events := others, versionIds := otherIds } :=
  ⟨twin.files, twin.managers, twin.programs, twin.kernels, twin.orphans, twin.programIds,
    twin.programCount, twin.versionCount, twin.kernelsCount⟩

theorem emit_if (condition otherwise : Bool) (event another : Event) :
    Twin close (world.emitIf condition event) (other.emitIf otherwise another) := by
  cases condition <;> cases otherwise <;> exact twin.reported _ _ world.versionIds other.versionIds

theorem modify_manager (manager : Nat) (change another : Manager B → Manager B)
    (alike : ∀ found service, close found.service service →
      Manager.Close close (change found) (another { found with service := service })) :
    Twin close (world.modifyManager manager change) (other.modifyManager manager another) := by
  refine ⟨twin.files, ?_, twin.programs, twin.kernels, twin.orphans, twin.programIds,
    twin.programCount, twin.versionCount, twin.kernelsCount⟩
  intro one
  simp only [modifyManager, List.getElem?_modify]
  cases lookup : world.managers[one]? with
  | none =>
      rw [twin.unmanaged lookup]
      exact .none
  | some found =>
      obtain ⟨service, otherLookup, states⟩ := twin.managed lookup
      rw [otherLookup]
      by_cases here : manager = one
      · simpa [here] using Option.Rel.some (alike found service states)
      · simpa [here] using Option.Rel.some (⟨rfl, states⟩ :
          Manager.Close close found { found with service := service })

theorem modify_state (program : Nat) {change another : ProgramState B → ProgramState B}
    (alike : ∀ found state, world.program? program = some found →
      state.unnumbered = found.state.unnumbered →
        (another state).unnumbered = (change found.state).unnumbered) :
    Twin close (world.modifyState program change) (other.modifyState program another) := by
  rw [modify_state_eq world, modify_state_eq other]
  refine ⟨twin.files, twin.managers, ?_, twin.kernels, twin.orphans, twin.programIds,
    twin.programCount, twin.versionCount, twin.kernelsCount⟩
  intro one
  change ((other.modifyState program another).program? one).map _ =
    ((world.modifyState program change).program? one).map _
  rw [program_modify_state, program_modify_state]
  split
  next here =>
    cases present : world.program? program with
    | none => rw [twin.absent present]; rfl
    | some found =>
        obtain ⟨state, otherPresent, states⟩ := twin.present present
        rw [otherPresent]
        simp only [Option.map_some, Program.unnumbered, alike found state present states]
  next => exact twin.programs one

theorem insert (serial : Nat) (program : Program B) (ids : IdSequence) (count : Nat) :
    Twin close
      { world with
        programs := world.programs.insert serial program
        programIds := ids
        programCount := count }
      { other with
        programs := other.programs.insert serial program
        programIds := ids
        programCount := count } := by
  refine ⟨twin.files, twin.managers, ?_, twin.kernels, twin.orphans, rfl, rfl, twin.versionCount,
    twin.kernelsCount⟩
  intro one
  simp only [program?, SortedMap.get_insert]
  split
  next => rfl
  next => exact twin.programs one

theorem erase (program : Nat) {orphans others : List Nat} (same : others = orphans) :
    Twin close
      { world with orphans := orphans, programs := world.programs.erase program }
      { other with orphans := others, programs := other.programs.erase program } := by
  refine ⟨twin.files, twin.managers, ?_, twin.kernels, same, twin.programIds, twin.programCount,
    twin.versionCount, twin.kernelsCount⟩
  intro one
  simp only [program?, SortedMap.get_erase]
  split
  next => rfl
  next => exact twin.programs one

/-! ### Settings -/

theorem settings (manager : Nat) : other.settings? manager = world.settings? manager := by
  unfold settings?
  cases lookup : world.managers[manager]? with
  | none => rw [twin.unmanaged lookup]
  | some found =>
      obtain ⟨service, otherLookup, _⟩ := twin.managed lookup
      rw [otherLookup]
      rfl

theorem is_some (program : Nat) :
    (other.program? program).isSome = (world.program? program).isSome := by
  have same := congrArg Option.isSome (twin.programs program)
  simpa using same

theorem registered (manager : Nat) : other.registered manager = world.registered manager := by
  have registries : other.registry manager = world.registry manager := by
    unfold World.registry
    cases lookup : world.managers[manager]? with
    | none => rw [twin.unmanaged lookup]
    | some found =>
        obtain ⟨service, otherLookup, _⟩ := twin.managed lookup
        rw [otherLookup]
  unfold World.registered
  simp only [registries, twin.is_some]

theorem has_cached_state (program : Nat) :
    other.hasCachedState program = world.hasCachedState program := by
  unfold World.hasCachedState
  cases present : world.program? program with
  | none => rw [twin.absent present]
  | some found =>
      obtain ⟨state, otherPresent, states⟩ := twin.present present
      rw [otherPresent]
      simp only
      rw [← state.has_cached_unnumbered, states, found.state.has_cached_unnumbered]

theorem due_for_reset (manager : Nat) (force : Bool) :
    other.dueForReset manager force = world.dueForReset manager force := by
  simp only [dueForReset, twin.registered, twin.has_cached_state]

theorem reset (program : Nat) :
    Twin close (world.resetProgram program) (other.resetProgram program) := by
  apply twin.modify_state
  intro found state _ states
  exact congrArg ProgramState.reset states

omit twin in
theorem reset_all (twin : Twin close world other) (due : List Nat) :
    Twin close (due.foldl resetProgram world) (due.foldl resetProgram other) := by
  induction due generalizing world other with
  | nil => exact twin
  | cons program rest ih => exact ih (twin.reset program)

theorem reload (manager : Nat) (force : Bool) :
    (other.reload manager force).1 = (world.reload manager force).1 ∧
      Twin close (world.reload manager force).2 (other.reload manager force).2 := by
  constructor
  · simp only [World.reload, twin.due_for_reset]
  · simp only [World.reload, twin.due_for_reset]
    exact (twin.reset_all _).reported _ _ _ _

theorem configure (manager : Nat) (change : Settings → Settings) :
    Twin close (world.configure manager change) (other.configure manager change) :=
  twin.modify_manager manager _ _ fun _ _ states => ⟨rfl, states⟩

theorem edit_settings (manager : Nat) (edit : SettingsEdit) :
    Twin close (world.editSettings manager edit) (other.editSettings manager edit) := by
  unfold editSettings
  rw [twin.settings]
  cases world.settings? manager with
  | none => exact twin
  | some settings =>
      simp only
      split
      next => exact ((twin.configure manager _).reload manager true).2
      next => exact twin.configure manager _

theorem add_search_path (manager : Nat) (path : Path) :
    (other.addSearchPath manager path).1 = (world.addSearchPath manager path).1 ∧
      Twin close (world.addSearchPath manager path).2 (other.addSearchPath manager path).2 := by
  unfold addSearchPath
  cases lookup : world.managers[manager]? with
  | none =>
      rw [twin.unmanaged lookup]
      exact ⟨rfl, twin⟩
  | some found =>
      obtain ⟨service, otherLookup, _⟩ := twin.managed lookup
      rw [otherLookup]
      exact ⟨rfl, twin.modify_manager manager _ _ fun _ _ states => ⟨rfl, states⟩⟩

theorem find_file (manager : Nat) (path : Path) :
    other.findFile manager path = world.findFile manager path := by
  unfold findFile
  cases lookup : world.managers[manager]? with
  | none => rw [twin.unmanaged lookup]
  | some found =>
      obtain ⟨service, otherLookup, _⟩ := twin.managed lookup
      rw [otherLookup, twin.files]

theorem reset_counts (manager : Nat) :
    Twin close (world.resetCounts manager) (other.resetCounts manager) :=
  twin.modify_manager manager _ _ fun _ _ states => ⟨rfl, states⟩

end Twin

/-! ## Calls in parallel -/

/-- Both calls have nobody to go to, or what is looked at of their answers is the same and they
lead to twins. -/
inductive Parallel (close : B.State → B.State → Prop) {Value Kept : Type}
    (view : Value → Kept) : Option (Value × World B) → Option (Value × World B) → Prop where
  | none : Parallel close view none none
  | some {value another : Value} {world other : World B} (same : view another = view value)
      (twin : Twin close world other) :
      Parallel close view (some (value, world)) (some (another, other))

theorem Parallel.bind {close : B.State → B.State → Prop} {Value Kept Result Other : Type}
    {view : Value → Kept} {look : Result → Other} {one other : Option (Value × World B)}
    {next follow : Value × World B → Option (Result × World B)}
    (first : Parallel close view one other)
    (rest : ∀ value another world twin, one = Option.some (value, world) →
      view another = view value → Twin close world twin →
        Parallel close look (next (value, world)) (follow (another, twin))) :
    Parallel close look (one.bind next) (other.bind follow) := by
  cases first with
  | none => exact .none
  | some same twin => exact rest _ _ _ _ rfl same twin

namespace Twin

variable {close : B.State → B.State → Prop} {world other : World B}
  (twin : Twin close world other)

include twin

theorem new_program (manager : Nat) (desc : ProgramDesc) (defines : DefineList) :
    Parallel close id (world.newProgram manager desc defines)
      (other.newProgram manager desc defines) := by
  unfold newProgram
  cases lookup : world.managers[manager]? with
  | none =>
      rw [twin.unmanaged lookup]
      exact .none
  | some found =>
      obtain ⟨service, otherLookup, _⟩ := twin.managed lookup
      rw [otherLookup, twin.programIds, twin.programCount]
      apply Parallel.some rfl
      have inserted := twin.insert world.programCount ⟨world.programIds.upcoming, manager,
        found.complete desc, (found.complete desc).describe,
        { defines, conformances := (found.complete desc).conformances }⟩
        world.programIds.draw.2 (world.programCount + 1)
      exact (inserted.modify_manager manager _ _ fun _ _ states => ⟨rfl, states⟩).reported _ _ _ _

theorem drop_program (program : Nat) :
    Option.Rel (Twin close) (world.dropProgram program) (other.dropProgram program) := by
  unfold dropProgram
  cases present : world.program? program with
  | none =>
      rw [twin.absent present]
      exact .none
  | some found =>
      obtain ⟨state, otherPresent, states⟩ := twin.present present
      rw [otherPresent]
      have orphans : other.orphans ++ state.produced.map Version.serial =
          world.orphans ++ found.state.produced.map Version.serial := by
        rw [twin.orphans, ProgramState.serials_of_produced states]
      let unregister := fun manager : Manager B =>
        { manager with registry := manager.registry.filter (· ≠ program) }
      have unregistered := twin.modify_manager found.manager unregister unregister
        fun _ _ states => ⟨rfl, states⟩
      exact .some ((unregistered.erase program orphans).reported _ _ _ _)

theorem edit_program (program : Nat) (edit : ProgramState.Edit) :
    Parallel close id (world.editProgram program edit) (other.editProgram program edit) := by
  unfold editProgram
  cases present : world.program? program with
  | none =>
      rw [twin.absent present]
      exact .none
  | some found =>
      obtain ⟨state, otherPresent, states⟩ := twin.present present
      rw [otherPresent]
      have edited := state.edit_unnumbered edit
      rw [states, found.state.edit_unnumbered] at edited
      obtain ⟨sameChange, sameState⟩ := Prod.mk.inj edited
      have changed : id (state.edit edit).1 = id (found.state.edit edit).1 := sameChange.symm
      exact .some changed (twin.modify_state program fun _ _ _ _ => sameState.symm)

end Twin

end World

end ShaderCache
