import ShaderCache.Proofs.WorldEffects

/-!
# Runs

A run is any list of operations on the programs and the settings of any number of managers.
Programs and managers go by their serial numbers and indices; an operation that has nobody to
act on does nothing.
-/

set_option autoImplicit false

namespace ShaderCache

inductive Operation where
  | newProgram (manager : Nat) (desc : ProgramDesc) (defines : DefineList)
  | dropProgram (program : Nat)
  | editProgram (program : Nat) (edit : ProgramState.Edit)
  | resetProgram (program : Nat)
  | editSettings (manager : Nat) (edit : World.SettingsEdit)
  | reload (manager : Nat) (force : Bool)
  | activeVersion (program : Nat)
  | activeKernels (program : Nat)

/-- What is looked at of the answer to an operation: versions and kernels. -/
inductive Answer (B : Backend) where
  | silence
  | version (outcome : Except ProgramError (Version B))
  | kernels (outcome : Except ProgramError (Kernels B))

variable {B : Backend}

namespace World

/-- The answer and the world after a call, or silence if the call had nobody to go to. -/
def conclude {Value : Type} (world : World B) (answer : Value → Answer B) :
    Option (Value × World B) → Answer B × World B
  | some (value, next) => (answer value, next)
  | none => (.silence, world)

def perform (world : World B) : Operation → Answer B × World B
  | .newProgram manager desc defines =>
      world.conclude (fun _ => .silence) (world.newProgram manager desc defines)
  | .dropProgram program => (.silence, (world.dropProgram program).getD world)
  | .editProgram program edit =>
      world.conclude (fun _ => .silence) (world.editProgram program edit)
  | .resetProgram program => (.silence, world.resetProgram program)
  | .editSettings manager edit => (.silence, world.editSettings manager edit)
  | .reload manager force => (.silence, (world.reload manager force).2)
  | .activeVersion program => world.conclude .version (world.activeVersion program)
  | .activeKernels program => world.conclude .kernels (world.activeKernels program)

def run (world : World B) : List Operation → World B
  | [] => world
  | operation :: rest => (world.perform operation).2.run rest

def answers (world : World B) : List Operation → List (Answer B)
  | [] => []
  | operation :: rest =>
      let (answer, next) := world.perform operation
      answer :: next.answers rest

/-- Where runs begin: with managers that have no programs yet. -/
def opening (files : FileTree) (managers : List (Manager B)) : World B :=
  { files, managers := managers.map fun manager => { manager with registry := [] } }

/-- The programs that an operation resets. A sweep resets those that are registered and alive. -/
def resets (world : World B) : Operation → List Nat
  | .resetProgram program => [program]
  | .reload manager force => world.dueForReset manager force
  | .editSettings manager edit =>
      match world.settings? manager with
      | some settings => if edit.sweeps settings then world.registered manager else []
      | none => []
  | _ => []

/-! ## Changes of several programs -/

/-- The programs that are alive got other states, and nothing else is different, up to backend
states, identifiers, counts and reports. -/
structure Alters (before after : World B) (change : Nat → ProgramState B → ProgramState B) :
    Prop where
  files : after.files = before.files
  setups : ∀ manager, after.setup? manager = before.setup? manager
  programs : ∀ program, after.program? program =
    (before.program? program).map fun found => { found with state := change program found.state }
  kernels : after.kernels = before.kernels
  orphans : after.orphans = before.orphans
  programCount : after.programCount = before.programCount
  versionCount : after.versionCount = before.versionCount

namespace Alters

variable {before after later : World B} {change : Nat → ProgramState B → ProgramState B}

theorem followed (alters : Alters before after change) (quiet : Quiet after later) :
    Alters before later change where
  files := quiet.files.trans alters.files
  setups manager := (quiet.setups manager).trans (alters.setups manager)
  programs program := (quiet.programs program).trans (alters.programs program)
  kernels := quiet.kernels.trans alters.kernels
  orphans := quiet.orphans.trans alters.orphans
  programCount := quiet.programCount.trans alters.programCount
  versionCount := quiet.versionCount.trans alters.versionCount

theorem program {program : Nat} {found : Program B} (alters : Alters before after change)
    (present : after.program? program = some found) :
    ∃ former, before.program? program = some former ∧
      found = { former with state := change program former.state } := by
  rw [alters.programs] at present
  obtain ⟨former, formerPresent, same⟩ := Option.map_eq_some_iff.mp present
  exact ⟨former, formerPresent, same.symm⟩

end Alters

theorem Quiet.alters {before after : World B} (quiet : Quiet before after) :
    Alters before after fun _ state => state where
  files := quiet.files
  setups := quiet.setups
  programs program := by simp [quiet.programs]
  kernels := quiet.kernels
  orphans := quiet.orphans
  programCount := quiet.programCount
  versionCount := quiet.versionCount

/-- The change of states in which one program takes part. -/
def changeOf (program : Nat) (change : ProgramState B → ProgramState B) (other : Nat)
    (state : ProgramState B) : ProgramState B :=
  if other = program then change state else state

/-- What the change keeps of one program is kept of all. -/
theorem change_of_keeps {Kept : Type} (view : ProgramState B → Kept) (program : Nat)
    {change : ProgramState B → ProgramState B} (keeps : ∀ state, view (change state) = view state)
    (other : Nat) (state : ProgramState B) :
    view (changeOf program change other state) = view state := by
  by_cases here : other = program
  · simp only [changeOf, here, ↓reduceIte, keeps]
  · simp only [changeOf, here, ↓reduceIte]

theorem alters_modify_state (world : World B) (program : Nat)
    (change : ProgramState B → ProgramState B) :
    Alters world (world.modifyState program change) (changeOf program change) where
  files := by simp
  setups := by simp
  programs other := by
    rw [program_modify_state]
    by_cases here : other = program
    · simp [here, changeOf]
    · simp [here, changeOf]
  kernels := by simp
  orphans := by simp
  programCount := by simp
  versionCount := by simp

/-- The change of states in which the programs that are due are reset. -/
def resetDue (due : List Nat) (program : Nat) (state : ProgramState B) : ProgramState B :=
  if program ∈ due then state.reset else state

theorem reset_due_keeps {Kept : Type} (view : ProgramState B → Kept)
    (keeps : ∀ state : ProgramState B, view state.reset = view state) (due : List Nat)
    (program : Nat) (state : ProgramState B) :
    view (resetDue due program state) = view state := by
  by_cases isDue : program ∈ due
  · simp only [resetDue, isDue, ↓reduceIte, keeps]
  · simp only [resetDue, isDue, ↓reduceIte]

theorem reset_due_nil : resetDue (B := B) [] = fun _ state => state := by
  funext program state
  simp [resetDue]

theorem alters_reset_all (world : World B) (due : List Nat) :
    Alters world (due.foldl resetProgram world) (resetDue due) := by
  induction due generalizing world with
  | nil =>
      rw [reset_due_nil]
      exact (Quiet.refl world).alters
  | cons first rest ih =>
      have head := alters_modify_state world first ProgramState.reset
      have tail := ih (world.resetProgram first)
      refine ⟨tail.files.trans head.files,
        fun manager => (tail.setups manager).trans (head.setups manager), ?_,
        tail.kernels.trans head.kernels, tail.orphans.trans head.orphans,
        tail.programCount.trans head.programCount, tail.versionCount.trans head.versionCount⟩
      intro program
      have twice : ∀ state : ProgramState B,
          resetDue rest program (changeOf first ProgramState.reset program state) =
            resetDue (first :: rest) program state := by
        intro state
        by_cases here : program = first <;> by_cases later : program ∈ rest <;>
          simp [resetDue, changeOf, here, later, ProgramState.reset]
      rw [List.foldl_cons, tail.programs, resetProgram, head.programs, Option.map_map]
      refine congrArg (fun change => (world.program? program).map change) (funext ?_)
      intro found
      simp [twice]

theorem alters_reload (world : World B) (manager : Nat) (force : Bool) :
    Alters world (world.reload manager force).2 (resetDue (world.dueForReset manager force)) :=
  (alters_reset_all world _).followed (quiet_emit _ _)

end World

end ShaderCache
