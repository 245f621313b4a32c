import ShaderCache.Proofs.SortedMapLookup
import ShaderCache.World.Kernels
import ShaderCache.World.Programs
import ShaderCache.World.Settings

/-!
# What operations do to the world

Each function on the world is described once, by what it leaves of the programs, the managers'
setups and what is kept, up to the states of backends, counters and reports. Later modules
reason from these descriptions.
-/

set_option autoImplicit false

namespace ShaderCache

variable {B : Backend}

/-! ## Setups -/

/-- What a manager is apart from its backend's state and its counts. -/
structure ManagerSetup where
  device : Device
  settings : Settings
  resolver : SourceResolver
  registry : List Nat

namespace ManagerSetup

def context (setup : ManagerSetup) (files : FileTree) : CompileContext :=
  ⟨setup.device, setup.settings, setup.resolver, files⟩

def without (program : Nat) (setup : ManagerSetup) : ManagerSetup :=
  { setup with registry := setup.registry.filter (· ≠ program) }

end ManagerSetup

def Manager.setup (manager : Manager B) : ManagerSetup :=
  ⟨manager.device, manager.settings, manager.resolver, manager.registry⟩

namespace World

variable (world : World B)

def setup? (manager : Nat) : Option ManagerSetup :=
  world.managers[manager]?.map Manager.setup

theorem setup_of_manager {manager : Nat} {found : Manager B}
    (managed : world.managers[manager]? = some found) :
    world.setup? manager = some found.setup := by
  simp [setup?, managed]

theorem manager_of_setup {manager : Nat} {setup : ManagerSetup}
    (managed : world.setup? manager = some setup) :
    ∃ found, world.managers[manager]? = some found ∧ found.setup = setup :=
  Option.map_eq_some_iff.mp managed

theorem registry_of_setup (manager : Nat) :
    world.registry manager = ((world.setup? manager).map ManagerSetup.registry).getD [] := by
  simp only [registry, setup?]
  cases world.managers[manager]? <;> rfl

theorem settings_of_setup (manager : Nat) :
    world.settings? manager = (world.setup? manager).map ManagerSetup.settings := by
  simp only [settings?, setup?, Option.map_map]
  rfl

theorem setup_modify_manager (manager other : Nat) (change : Manager B → Manager B) :
    (world.modifyManager manager change).setup? other =
      if other = manager then (world.managers[manager]?).map fun found => (change found).setup
      else world.setup? other := by
  simp only [setup?, modifyManager, List.getElem?_modify]
  by_cases here : other = manager
  · subst here
    simp [Function.comp_def]
  · simp [here, Ne.symm here]

theorem setup_modify_manager_kept (change : Manager B → Manager B)
    (keeps : ∀ found, (change found).setup = found.setup) (manager other : Nat) :
    (world.modifyManager manager change).setup? other = world.setup? other := by
  rw [setup_modify_manager]
  split
  next here => simp [here, keeps, setup?]
  next => rfl

theorem registry_modify_manager (change : Manager B → Manager B)
    (keeps : ∀ found, (change found).registry = found.registry) (manager other : Nat) :
    (world.modifyManager manager change).registry other = world.registry other := by
  simp only [registry_of_setup, setup_modify_manager]
  split
  next here =>
    rw [here, setup?]
    cases world.managers[manager]? with
    | none => rfl
    | some found => exact keeps found
  next => rfl

/-! ## Quiet steps -/

/-- Nothing but backend states, identifiers, counts and reports is different. -/
structure Quiet (before after : World B) : Prop where
  files : after.files = before.files
  setups : ∀ manager, after.setup? manager = before.setup? manager
  programs : ∀ program, after.program? program = before.program? program
  kernels : after.kernels = before.kernels
  orphans : after.orphans = before.orphans
  programCount : after.programCount = before.programCount
  versionCount : after.versionCount = before.versionCount

namespace Quiet

variable {first second third : World B}

theorem refl (world : World B) : Quiet world world :=
  ⟨rfl, fun _ => rfl, fun _ => rfl, rfl, rfl, rfl, rfl⟩

theorem trans (start : Quiet first second) (rest : Quiet second third) : Quiet first third where
  files := rest.files.trans start.files
  setups manager := (rest.setups manager).trans (start.setups manager)
  programs program := (rest.programs program).trans (start.programs program)
  kernels := rest.kernels.trans start.kernels
  orphans := rest.orphans.trans start.orphans
  programCount := rest.programCount.trans start.programCount
  versionCount := rest.versionCount.trans start.versionCount

end Quiet

theorem quiet_emit (event : Event) : Quiet world (world.emit event) :=
  ⟨rfl, fun _ => rfl, fun _ => rfl, rfl, rfl, rfl, rfl⟩

theorem quiet_emit_all (events : List Event) : Quiet world (world.emitAll events) :=
  ⟨rfl, fun _ => rfl, fun _ => rfl, rfl, rfl, rfl, rfl⟩

theorem quiet_emit_if (condition : Bool) (event : Event) :
    Quiet world (world.emitIf condition event) := by
  cases condition with
  | false => exact Quiet.refl world
  | true => exact quiet_emit world event

@[simp]
theorem version_ids_emit_if (condition : Bool) (event : Event) :
    (world.emitIf condition event).versionIds = world.versionIds := by
  cases condition <;> rfl

theorem quiet_modify_manager (change : Manager B → Manager B)
    (keeps : ∀ found, (change found).setup = found.setup) (manager : Nat) :
    Quiet world (world.modifyManager manager change) :=
  ⟨rfl, setup_modify_manager_kept world change keeps manager, fun _ => rfl, rfl, rfl, rfl, rfl⟩

theorem quiet_absorb (manager : Nat) (work : Work B.State) :
    Quiet world (world.absorb manager work) where
  files := rfl
  setups := setup_modify_manager_kept world
    (fun found => { found with service := work.service }) (fun _ => rfl) manager
  programs _ := rfl
  kernels := rfl
  orphans := rfl
  programCount := rfl
  versionCount := rfl

/-! ## Changes of one program -/

theorem program_modify_state (program other : Nat)
    (change : ProgramState B → ProgramState B) :
    (world.modifyState program change).program? other =
      if other = program then
        (world.program? program).map fun found => { found with state := change found.state }
      else world.program? other := by
  cases present : world.program? program with
  | none =>
      by_cases here : other = program
      · simp [modifyState, present, here]
      · simp [modifyState, present, here]
  | some found =>
      simp only [modifyState, present]
      exact SortedMap.get_insert world.programs program other _

/-- A change of the state of one program touches nothing else. -/
theorem modify_state_eq (program : Nat) (change : ProgramState B → ProgramState B) :
    world.modifyState program change =
      { world with programs := (world.modifyState program change).programs } := by
  unfold modifyState
  split <;> rfl

section Fields

variable (program : Nat) (change : ProgramState B → ProgramState B)

@[simp]
theorem files_modify_state : (world.modifyState program change).files = world.files := by
  rw [modify_state_eq]

@[simp]
theorem managers_modify_state :
    (world.modifyState program change).managers = world.managers := by
  rw [modify_state_eq]

@[simp]
theorem setup_modify_state (manager : Nat) :
    (world.modifyState program change).setup? manager = world.setup? manager := by
  simp [setup?]

@[simp]
theorem kernels_modify_state : (world.modifyState program change).kernels = world.kernels := by
  rw [modify_state_eq]

@[simp]
theorem orphans_modify_state : (world.modifyState program change).orphans = world.orphans := by
  rw [modify_state_eq]

@[simp]
theorem program_count_modify_state :
    (world.modifyState program change).programCount = world.programCount := by
  rw [modify_state_eq]

@[simp]
theorem version_count_modify_state :
    (world.modifyState program change).versionCount = world.versionCount := by
  rw [modify_state_eq]

@[simp]
theorem version_ids_modify_state :
    (world.modifyState program change).versionIds = world.versionIds := by
  rw [modify_state_eq]

end Fields

theorem Quiet.modify_state {before after : World B} (quiet : Quiet before after) (program : Nat)
    (change : ProgramState B → ProgramState B) :
    Quiet (before.modifyState program change) (after.modifyState program change) where
  files := by simpa using quiet.files
  setups manager := by simpa using quiet.setups manager
  programs other := by
    rw [program_modify_state, program_modify_state, quiet.programs, quiet.programs]
  kernels := by simpa using quiet.kernels
  orphans := by simpa using quiet.orphans
  programCount := by simpa using quiet.programCount
  versionCount := by simpa using quiet.versionCount

/-! ## Making and dropping programs -/

/-- A program as it is when it is made by a manager. -/
def newbornOf (manager : Nat) (found : Manager B) (desc : ProgramDesc) (defines : DefineList) :
    Program B :=
  let completed := found.complete desc
  ⟨world.programIds.upcoming, manager, completed, completed.describe,
    { defines, conformances := completed.conformances }⟩

structure Creates (manager : Nat) (found : Manager B) (program : Program B)
    (before after : World B) : Prop where
  files : after.files = before.files
  setups : ∀ other, after.setup? other =
    if other = manager then
      some { found.setup with registry := found.registry ++ [before.programCount] }
    else before.setup? other
  programs : ∀ other, after.program? other =
    if other = before.programCount then some program else before.program? other
  kernels : after.kernels = before.kernels
  orphans : after.orphans = before.orphans
  programCount : after.programCount = before.programCount + 1
  versionCount : after.versionCount = before.versionCount
  versionIds : after.versionIds = before.versionIds

theorem new_program_creates {manager : Nat} {found : Manager B}
    (managed : world.managers[manager]? = some found) (desc : ProgramDesc)
    (defines : DefineList) :
    ∃ next, world.newProgram manager desc defines = some (world.programCount, next) ∧
      Creates manager found (world.newbornOf manager found desc defines) world next := by
  simp only [newProgram, managed, Option.bind_eq_bind, Option.bind_some]
  refine ⟨_, rfl, rfl, ?_, ?_, rfl, rfl, rfl, rfl, rfl⟩
  · intro other
    change (World.modifyManager _ manager _).setup? other = _
    rw [setup_modify_manager]
    simp only [managed, Option.map_some]
    rfl
  · intro other
    exact SortedMap.get_insert world.programs world.programCount other _

theorem new_program_absent {manager : Nat} (absent : world.managers[manager]? = none)
    (desc : ProgramDesc) (defines : DefineList) :
    world.newProgram manager desc defines = none := by
  simp only [newProgram, absent]
  rfl

structure Drops (program : Nat) (found : Program B) (before after : World B) : Prop where
  files : after.files = before.files
  setups : ∀ other, after.setup? other =
    if other = found.manager then (before.setup? other).map (ManagerSetup.without program)
    else before.setup? other
  programs : ∀ other, after.program? other =
    if other = program then none else before.program? other
  kernels : after.kernels = before.kernels
  orphans : after.orphans = before.orphans ++ found.state.produced.map Version.serial
  programCount : after.programCount = before.programCount
  versionCount : after.versionCount = before.versionCount
  versionIds : after.versionIds = before.versionIds

theorem drop_program_drops {program : Nat} {found : Program B}
    (present : world.program? program = some found) :
    ∃ next, world.dropProgram program = some next ∧ Drops program found world next := by
  simp only [dropProgram, present, Option.bind_eq_bind, Option.bind_some]
  refine ⟨_, rfl, rfl, ?_, ?_, rfl, rfl, rfl, rfl, rfl⟩
  · intro other
    change (world.modifyManager found.manager _).setup? other = _
    rw [setup_modify_manager]
    split
    next here =>
      rw [here, setup?, Option.map_map]
      rfl
    next => rfl
  · intro other
    exact SortedMap.get_erase world.programs program other

/-- A manager that a program is taken from has all else that it had. -/
theorem Drops.keeps {world next : World B} {program : Nat} {found : Program B}
    (drops : Drops program found world next) {other : Nat} {setup : ManagerSetup}
    (managed : world.setup? other = some setup) :
    ∃ registry, next.setup? other = some { setup with registry := registry } ∧
      ∀ survivor ∈ setup.registry, survivor ≠ program → survivor ∈ registry := by
  rw [drops.setups, managed]
  split
  next =>
    refine ⟨_, rfl, ?_⟩
    intro survivor listed other
    exact List.mem_filter.mpr ⟨listed, by simpa using other⟩
  next => exact ⟨setup.registry, rfl, fun _ listed _ => listed⟩

theorem Drops.unmanaged {world next : World B} {program : Nat} {found : Program B}
    (drops : Drops program found world next) {other : Nat} (absent : world.setup? other = none) :
    next.setup? other = none := by
  rw [drops.setups, absent, Option.map_none, ite_self]

theorem drop_program_absent {program : Nat} (absent : world.program? program = none) :
    world.dropProgram program = none := by
  simp only [dropProgram, absent]
  rfl

end World

end ShaderCache
