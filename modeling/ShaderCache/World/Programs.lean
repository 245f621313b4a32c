import ShaderCache.World.Basic

/-!
# Making, configuring and dropping programs
-/

set_option autoImplicit false

namespace ShaderCache

variable {B : Backend}

namespace Manager

def complete (manager : Manager B) (desc : ProgramDesc) : ProgramDesc :=
  let finalized := desc.finalize
  { finalized with shaderModel := some (finalized.shaderModel.getD manager.defaultModel) }

end Manager

namespace World

/-- Puts a program with a finalized description and an initial configuration into the world and
registers it with its manager. Answers its serial number, or nothing if there is no such manager. -/
def newProgram (world : World B) (manager : Nat) (desc : ProgramDesc) (defines : DefineList) :
    Option (Nat × World B) := do
  let found ← world.managers[manager]?
  let completed := found.complete desc
  let description := completed.describe
  let (id, programIds) := world.programIds.draw
  let serial := world.programCount
  let program : Program B :=
    ⟨id, manager, completed, description, { defines, conformances := completed.conformances }⟩
  let made := { world with
    programs := world.programs.insert serial program
    programIds := programIds
    programCount := world.programCount + 1 }
  let registered := made.modifyManager manager fun found =>
    { found with registry := found.registry ++ [serial] }
  some (serial, registered.emit (.programRegistered id description))

/-- Takes a program out of the world. Its versions are cut off from it. -/
def dropProgram (world : World B) (program : Nat) : Option (World B) := do
  let found ← world.program? program
  let unregistered := world.modifyManager found.manager fun manager =>
    { manager with registry := manager.registry.filter (· ≠ program) }
  let orphaned := { unregistered with
    orphans := unregistered.orphans ++ found.state.produced.map Version.serial
    programs := unregistered.programs.erase program }
  some (orphaned.emit (.programUnregistered found.id found.description))

def editProgram (world : World B) (program : Nat) (edit : ProgramState.Edit) :
    Option (Bool × World B) := do
  let found ← world.program? program
  let (changed, state) := found.state.edit edit
  some (changed, world.modifyState program fun _ => state)

end World

end ShaderCache
