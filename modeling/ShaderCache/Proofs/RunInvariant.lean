import ShaderCache.Proofs.WorldInvariant

/-!
# Soundness of runs

Each operation goes in one of a few ways, which are listed once. Soundness is kept by all of
them, so it holds of every world that a run reaches.
-/

set_option autoImplicit false

namespace ShaderCache

variable {B : Backend}

namespace Operation

def target? : Operation → Option Nat
  | .dropProgram program => some program
  | .editProgram program _ => some program
  | .activeVersion program => some program
  | .activeKernels program => some program
  | _ => none

/-- Whether the operation only writes settings and resets programs. -/
def sweeping : Operation → Bool
  | .resetProgram _ => true
  | .editSettings _ _ => true
  | .reload _ _ => true
  | _ => false

end Operation

namespace World

variable (world : World B)

/-! ## Settings -/

/-- The world after the write of an operation and before its sweep. -/
def written : Operation → World B
  | .editSettings manager edit => world.configure manager fun current => edit.apply current
  | _ => world

theorem setup_configure (manager other : Nat) (change : Settings → Settings) :
    (world.configure manager change).setup? other =
      if other = manager then
        (world.setup? manager).map fun setup => { setup with settings := change setup.settings }
      else world.setup? other := by
  unfold configure
  rw [setup_modify_manager]
  split
  next => simp [setup?, Function.comp_def, Manager.setup]
  next => rfl

/-- A write registers and unregisters nobody. -/
theorem registered_configure (manager : Nat) (change : Settings → Settings) :
    (world.configure manager change).registered manager = world.registered manager := by
  have listed := world.registry_modify_manager
    (fun found => { found with settings := change found.settings }) (fun _ => rfl) manager manager
  unfold registered configure
  rw [listed]
  rfl

theorem due_for_reset_forced (manager : Nat) :
    world.dueForReset manager true = world.registered manager := by
  simp [dueForReset]

theorem configure_absent {manager : Nat} (absent : world.settings? manager = none)
    (change : Settings → Settings) : world.configure manager change = world := by
  have beyond : world.managers.length ≤ manager := by
    simpa [settings?] using absent
  have managers_eq := List.modify_eq_self (f := fun found : Manager B =>
    { found with settings := change found.settings }) beyond
  simp only [configure, modifyManager, managers_eq]

theorem version_ids_reset_all (due : List Nat) :
    (due.foldl resetProgram world).versionIds = world.versionIds := by
  induction due generalizing world with
  | nil => rfl
  | cons first rest ih =>
      rw [List.foldl_cons, ih]
      exact version_ids_modify_state world first ProgramState.reset

/-- Changing settings is a write followed by resets. -/
theorem alters_edit_settings (manager : Nat) (edit : SettingsEdit) :
    Alters (world.written (.editSettings manager edit)) (world.editSettings manager edit)
        (resetDue (world.resets (.editSettings manager edit))) ∧
      (world.editSettings manager edit).versionIds = world.versionIds := by
  simp only [written, editSettings, resets]
  cases managed : world.settings? manager with
  | none =>
      rw [configure_absent world managed, reset_due_nil]
      exact ⟨(Quiet.refl world).alters, rfl⟩
  | some settings =>
      simp only
      split
      next =>
        let configured := world.configure manager fun current => edit.apply current
        have alters := alters_reload configured manager true
        rw [due_for_reset_forced, registered_configure] at alters
        exact ⟨alters, version_ids_reset_all configured _⟩
      next =>
        rw [reset_due_nil]
        exact ⟨(Quiet.refl _).alters, rfl⟩

/-! ## Kernels of active versions -/

theorem active_kernels_absent {program : Nat} (absent : world.program? program = none) :
    world.activeKernels program = none := by
  simp only [activeKernels, active_version_absent world absent]
  rfl

theorem Sound.active_version_resolves {world : World B} (sound : world.Sound) {program : Nat}
    {found : Program B} (present : world.program? program = some found) :
    ∃ outcome next, world.activeVersion program = some (outcome, next) ∧
      Resolves world program found outcome next := by
  obtain ⟨setup, managed, _⟩ := sound.managed program found present
  exact world.active_version_resolves present managed

theorem Sound.active_kernels_provides {world : World B} (sound : world.Sound) {program : Nat}
    {found : Program B} (present : world.program? program = some found) :
    ∃ outcome next, world.activeKernels program = some (outcome, next) ∧
      Provides world program found outcome next := by
  obtain ⟨resolution, between, version_eq, resolves⟩ := sound.active_version_resolves present
  have kernels_eq : world.activeKernels program =
      match resolution with
      | .error error => some (.error error, between)
      | .ok version => between.kernelsOf version := by
    simp only [activeKernels, version_eq, Option.bind_eq_bind, Option.bind_some]
    cases resolution <;> rfl
  cases resolution with
  | error error => exact ⟨_, _, kernels_eq, .unresolved version_eq resolves⟩
  | ok version =>
      obtain ⟨state, settled⟩ := sound.settled present resolves
      have soundBetween := sound.resolves present resolves
      obtain ⟨setup, managed, _⟩ := soundBetween.managed program _ settled.present
      have owned := soundBetween.owner settled.present settled.kept
      obtain ⟨outcome, next, supplied_eq, supplies⟩ := between.kernels_of_supplies owned managed
      exact ⟨outcome, next, kernels_eq.trans supplied_eq,
        .resolved version_eq resolves settled supplies supplied_eq⟩

theorem Sound.provides {world next : World B} (sound : world.Sound) {program : Nat}
    {found : Program B} {outcome : Except ProgramError (Kernels B)}
    (present : world.program? program = some found)
    (provides : Provides world program found outcome next) : next.Sound := by
  cases provides with
  | unresolved answered resolves => exact sound.resolves present resolves
  | resolved answered resolves settled supplies =>
      have soundBetween := sound.resolves present resolves
      have isProduced := soundBetween.produced program _ settled.present _ settled.kept
      have owned := soundBetween.owned program _ settled.present _ isProduced
      exact soundBetween.supplies owned.2.1 supplies

/-! ## Operations -/

/-- The ways in which an operation can go. -/
inductive Performs : Operation → Answer B → World B → Prop where
  | unmanaged {manager : Nat} {desc : ProgramDesc} {defines : DefineList}
      (absent : world.managers[manager]? = none) :
      Performs (.newProgram manager desc defines) .silence world
  | untargeted {operation : Operation} {program : Nat} (target : operation.target? = some program)
      (absent : world.program? program = none) : Performs operation .silence world
  | created {manager : Nat} {desc : ProgramDesc} {defines : DefineList} {found : Manager B}
      {next : World B} (managed : world.managers[manager]? = some found)
      (creates : Creates manager found (world.newbornOf manager found desc defines) world next) :
      Performs (.newProgram manager desc defines) .silence next
  | dropped {program : Nat} {found : Program B} {next : World B}
      (present : world.program? program = some found) (drops : Drops program found world next) :
      Performs (.dropProgram program) .silence next
  | edited {program : Nat} {edit : ProgramState.Edit} {found : Program B} {next : World B}
      (present : world.program? program = some found)
      (alters : Alters world next (changeOf program fun state => (state.edit edit).2))
      (ids : next.versionIds = world.versionIds) :
      Performs (.editProgram program edit) .silence next
  | swept {operation : Operation} {next : World B} (sweeping : operation.sweeping = true)
      (alters : Alters (world.written operation) next (resetDue (world.resets operation)))
      (ids : next.versionIds = world.versionIds) : Performs operation .silence next
  | resolved {program : Nat} {found : Program B} {outcome : Except ProgramError (Version B)}
      {next : World B} (present : world.program? program = some found)
      (answered : world.activeVersion program = some (outcome, next))
      (resolves : Resolves world program found outcome next) :
      Performs (.activeVersion program) (.version outcome) next
  | provided {program : Nat} {found : Program B} {outcome : Except ProgramError (Kernels B)}
      {next : World B} (present : world.program? program = some found)
      (provides : Provides world program found outcome next) :
      Performs (.activeKernels program) (.kernels outcome) next

theorem performs_edit {program : Nat} {found : Program B} (edit : ProgramState.Edit)
    (present : world.program? program = some found) :
    ∃ changed next, world.editProgram program edit = some (changed, next) ∧
      Alters world next (changeOf program fun state => (state.edit edit).2) ∧
      next.versionIds = world.versionIds := by
  simp only [editProgram, present, Option.bind_eq_bind, Option.bind_some]
  refine ⟨_, _, rfl, ?_, version_ids_modify_state world program _⟩
  have altered := alters_modify_state world program fun _ => (found.state.edit edit).2
  refine { altered with programs := ?_ }
  intro other
  rw [altered.programs]
  by_cases here : other = program
  · simp [here, present, changeOf]
  · simp [here, changeOf]

/-- In a sound world every operation goes in one of the ways listed. -/
theorem Sound.performs {world : World B} (sound : world.Sound) (operation : Operation) :
    Performs world operation (world.perform operation).1 (world.perform operation).2 := by
  cases operation with
  | newProgram manager desc defines =>
      cases managed : world.managers[manager]? with
      | none =>
          simp only [perform, new_program_absent world managed, conclude]
          exact .unmanaged managed
      | some found =>
          obtain ⟨next, new_eq, creates⟩ := world.new_program_creates managed desc defines
          simp only [perform, new_eq, conclude]
          exact .created managed creates
  | dropProgram program =>
      cases present : world.program? program with
      | none =>
          simp only [perform, drop_program_absent world present, Option.getD_none]
          exact .untargeted rfl present
      | some found =>
          obtain ⟨next, drop_eq, drops⟩ := world.drop_program_drops present
          simp only [perform, drop_eq, Option.getD_some]
          exact .dropped present drops
  | editProgram program edit =>
      cases present : world.program? program with
      | none =>
          simp only [perform, editProgram, present]
          exact .untargeted rfl present
      | some found =>
          obtain ⟨changed, next, edit_eq, alters, ids⟩ := world.performs_edit edit present
          simp only [perform, edit_eq, conclude]
          exact .edited present alters ids
  | resetProgram program =>
      exact .swept rfl (alters_reset_all world [program])
        (version_ids_modify_state world program ProgramState.reset)
  | editSettings manager edit =>
      obtain ⟨alters, ids⟩ := world.alters_edit_settings manager edit
      exact .swept rfl alters ids
  | reload manager force =>
      exact .swept rfl (alters_reload world manager force)
        (version_ids_reset_all world (world.dueForReset manager force))
  | activeVersion program =>
      cases present : world.program? program with
      | none =>
          simp only [perform, active_version_absent world present, conclude]
          exact .untargeted rfl present
      | some found =>
          obtain ⟨outcome, next, version_eq, resolves⟩ := sound.active_version_resolves present
          simp only [perform, version_eq, conclude]
          exact .resolved present version_eq resolves
  | activeKernels program =>
      cases present : world.program? program with
      | none =>
          simp only [perform, active_kernels_absent world present, conclude]
          exact .untargeted rfl present
      | some found =>
          obtain ⟨outcome, next, kernels_eq, provides⟩ := sound.active_kernels_provides present
          simp only [perform, kernels_eq, conclude]
          exact .provided present provides

theorem Sound.configure {world : World B} (sound : world.Sound) (manager : Nat)
    (change : Settings → Settings) : (world.configure manager change).Sound :=
  sound.modify_manager (fun found => { found with settings := change found.settings })
    (fun _ => rfl) manager

theorem Sound.searched {world : World B} (sound : world.Sound) (manager : Nat) (path : Path) :
    (world.addSearchPath manager path).2.Sound := by
  unfold addSearchPath
  split
  next found managed =>
    exact sound.modify_manager (fun other =>
      { other with resolver := (found.resolver.add path).2 }) (fun _ => rfl) manager
  next => exact sound

theorem Sound.written {world : World B} (sound : world.Sound) (operation : Operation) :
    (world.written operation).Sound := by
  cases operation with
  | editSettings manager edit => exact sound.configure manager fun current => edit.apply current
  | _ => exact sound

theorem Sound.performed {world next : World B} (sound : world.Sound) {operation : Operation}
    {answer : Answer B} (performs : Performs world operation answer next) : next.Sound := by
  cases performs with
  | unmanaged absent => exact sound
  | untargeted target absent => exact sound
  | created managed creates =>
      exact sound.creates managed rfl (ProgramState.coherent_new _ _) rfl rfl creates
  | dropped present drops => exact sound.drops present drops
  | @edited _ edit _ _ present alters ids =>
      apply sound.alters alters
      intro other found _
      unfold changeOf
      split
      · exact tame_edit found.state edit
      · exact tame_refl found.state
  | swept sweeping alters ids => exact (sound.written operation).reset_due _ alters
  | resolved present answered resolves => exact sound.resolves present resolves
  | provided present provides => exact sound.provides present provides

theorem Sound.perform {world : World B} (sound : world.Sound) (operation : Operation) :
    (world.perform operation).2.Sound :=
  sound.performed (sound.performs operation)

/-- Runs keep soundness, by induction on the operations. -/
theorem Sound.run {world : World B} (sound : world.Sound) (operations : List Operation) :
    (world.run operations).Sound := by
  induction operations generalizing world with
  | nil => exact sound
  | cons operation rest ih => exact ih (sound.perform operation)

theorem program_opening (files : FileTree) (managers : List (Manager B)) (program : Nat) :
    (opening files managers).program? program = none := rfl

theorem sound_opening (files : FileTree) (managers : List (Manager B)) :
    (opening files managers).Sound where
  managed program found present := by simp [program_opening] at present
  numbered program found present := by simp [program_opening] at present
  coherent program found present := by simp [program_opening] at present
  produced program found present := by simp [program_opening] at present
  owned program found present := by simp [program_opening] at present
  distinct program found other another present := by simp [program_opening] at present
  orphans serial orphaned := by simp [opening] at orphaned
  kernels entry kept := by simp [opening] at kept

theorem sound_reached (files : FileTree) (managers : List (Manager B))
    (operations : List Operation) : ((opening files managers).run operations).Sound :=
  (sound_opening files managers).run operations

end World

end ShaderCache
