import ShaderCache.World.Versions

/-!
# Linking versions

A version keeps the kernels that were linked from it, one object for each list of
conformances. What it is linked for is what its program is configured with now, not what
the version was compiled for.
-/

set_option autoImplicit false

namespace ShaderCache

namespace Version

variable {B : Backend}

def linkInput (version : Version B) : LinkInput B :=
  ⟨version.name, version.id, version.compiled.globalScope, version.compiled.entryPoints⟩

end Version

namespace LinkFailure

def toError (program log : String) : LinkFailure → ProgramError
  | .configuration error => .configuration error log
  | .linking => .linking program log
  | .device => .device program log

end LinkFailure

namespace World

variable {B : Backend}

def recordKernels (world : World B) (manager : Nat) (linked : LinkedKernels B) :
    Kernels B × World B :=
  let counted := { world with kernelsCount := world.kernelsCount + 1 }.modifyManager manager
    fun found => { found with
      counts := { found.counts with kernels := found.counts.kernels + 1 } }
  (⟨world.kernelsCount, linked⟩,
    counted.emit (.kernelsCreated linked.name linked.versionId linked.conformances))

/-- Links a version of a program for the given conformances, with the backend of a manager in the
given state. -/
def linkIn (world : World B) (service : B.State) (manager : Nat) (program : Program B)
    (conformances : ConformanceList) (version : Version B) (log : String) :
    Logged (Kernels B) × World B :=
  let job : Job B LinkFailure (LinkedKernels B) :=
    LinkedKernels.job program.desc conformances version.linkInput
  let (outcome, work) := job.run ⟨service, log, world.versionIds⟩
  let done := world.absorb manager work
  match outcome with
  | .error ⟨failure, written⟩ =>
      (⟨work.log, .error (failure.toError program.description written)⟩, done)
  | .ok linked =>
      let (kernels, recorded) := done.recordKernels manager linked
      (⟨work.log, .ok kernels⟩, recorded)

/-- Links a version of a program for the given conformances with the backend of a manager. -/
def link (world : World B) (manager : Nat) (program : Program B)
    (conformances : ConformanceList) (version : Version B) (log : String) :
    Option (Logged (Kernels B) × World B) := do
  let found ← world.managers[manager]?
  some (world.linkIn found.service manager program conformances version log)

/-- Links a version of a program for the current conformances, whatever kernels the version
has. The version has to be one of that program. -/
def createKernels (world : World B) (manager program : Nat) (version : Version B) (log : String) :
    Option (Logged (Kernels B) × World B) := do
  let _ ← world.program? program
  match world.owner? version with
  | none => some (⟨log, .error .orphaned⟩, world)
  | some owner =>
      if version.program = program then
        world.link manager owner owner.state.conformances version log
      else
        some (⟨log, .error .versionMismatch⟩, world)

/-- Links a version and keeps the kernels, unless the version has got some meanwhile. -/
def linkKeeping (world : World B) (owner : Program B) (conformances : ConformanceList)
    (version : Version B) : Option (Except ProgramError (Kernels B) × World B) := do
  let (logged, done) ← world.link owner.manager owner conformances version ""
  match logged.outcome with
  | .error error => some (.error error, done)
  | .ok kernels =>
      let warned := done.emitIf (!Text.allBlank logged.log)
        (.kernelsWarnings version.name logged.log)
      let (kept, keeping) := warned.keepKernels version conformances kernels
      some (.ok kept, keeping)

/-- The kernels of a version for the current conformances of its program. -/
def kernelsOf (world : World B) (version : Version B) :
    Option (Except ProgramError (Kernels B) × World B) :=
  match world.owner? version with
  | none => some (.error .orphaned, world)
  | some owner =>
      let conformances := owner.state.conformances
      match world.cachedKernels? version conformances with
      | some kernels => some (.ok kernels, world.emit (.kernelsReused version.id conformances))
      | none => world.linkKeeping owner conformances version

def activeKernels (world : World B) (program : Nat) :
    Option (Except ProgramError (Kernels B) × World B) := do
  let (outcome, resolved) ← world.activeVersion program
  match outcome with
  | .error error => some (.error error, resolved)
  | .ok version => resolved.kernelsOf version

end World

end ShaderCache
