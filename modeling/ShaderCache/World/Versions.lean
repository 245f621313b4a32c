import ShaderCache.Text.Blank
import ShaderCache.World.Basic

/-!
# Compiling programs

A program is compiled at most once for each configuration: going back to one that has been
compiled finds its version again. A failed compilation leaves the program as it was.
-/

set_option autoImplicit false

namespace ShaderCache

structure Logged (α : Type) where
  log : String
  outcome : Except ProgramError α

namespace World

variable {B : Backend}

/-- What a job leaves behind: the state of the backend and the identifiers it drew. -/
def absorb (world : World B) (manager : Nat) (work : Work B.State) : World B :=
  { world.modifyManager manager fun found => { found with service := work.service } with
    versionIds := work.versionIds }

def recordVersion (world : World B) (manager serial : Nat) (program : Program B)
    (defines : DefineList) (compiled : CompiledVersion B) : Version B × World B :=
  let version : Version B :=
    ⟨world.versionCount, serial, program.description, defines, compiled⟩
  let counted := { world with versionCount := world.versionCount + 1 }.modifyManager manager
    fun found => { found with
      counts := { found.counts with versions := found.counts.versions + 1 } }
  (version, counted.emit (.versionCreated compiled.id program.description defines))

/-- Compiles a program for the given defines in a context, with the backend of a manager in the
given state. -/
def compileIn (world : World B) (context : CompileContext) (service : B.State)
    (manager serial : Nat) (program : Program B) (defines : DefineList) (log : String) :
    Logged (Version B) × World B :=
  let warned := world.emitAll (context.warnings program.desc)
  match context.request program.desc defines with
  | .error error =>
      let log := log ++ error.message ++ "\n"
      (⟨log, .error (.configuration error log)⟩, warned)
  | .ok request =>
      let job : Job B CompileFailure (CompiledVersion B) := CompiledVersion.job program.desc request
      let (outcome, work) := job.run ⟨service, log, world.versionIds⟩
      let done := warned.absorb manager work
      match outcome with
      | .error ⟨.rejected, written⟩ =>
          (⟨work.log, .error (.compilation program.description written)⟩, done)
      | .ok compiled =>
          let (version, recorded) := done.recordVersion manager serial program defines compiled
          (⟨work.log, .ok version⟩, recorded)

/-- Compiles a program for the given defines and settings with the backend of a manager. -/
def compileUnder (world : World B) (settings : Settings) (manager serial : Nat)
    (program : Program B) (defines : DefineList) (log : String) :
    Option (Logged (Version B) × World B) := do
  let found ← world.managers[manager]?
  let context := { found.context world.files with settings := settings }
  some (world.compileIn context found.service manager serial program defines log)

/-- Compiles a program for its current defines, whatever versions it has. -/
def createVersion (world : World B) (manager program : Nat) (log : String) :
    Option (Logged (Version B) × World B) := do
  let found ← world.program? program
  let settings ← world.settings? manager
  world.compileUnder settings manager program found found.state.defines log

/-- Compiles a program under the given settings for its current configuration and keeps the
version. -/
def compileActive (world : World B) (settings : Settings) (program : Nat) (found : Program B) :
    Option (Except ProgramError (Version B) × World B) := do
  let key := found.state.key
  let (logged, done) ← world.compileUnder settings found.manager program found key.defines ""
  match logged.outcome with
  | .error error => some (.error error, done.emit (.versionFailed found.id error))
  | .ok version =>
      let warned := done.emitIf (!Text.allBlank logged.log)
        (.versionWarnings found.description logged.log)
      some (.ok version, warned.modifyState program fun state => state.commit key version)

/-- The version of a program for its current configuration: the active one if nothing changed,
else a cached one, else a new one. -/
def activeVersion (world : World B) (program : Nat) :
    Option (Except ProgramError (Version B) × World B) := do
  let found ← world.program? program
  match found.state.current? with
  | some version => some (.ok version, world)
  | none =>
      match found.state.cached? found.state.key with
      | some version =>
          let adopted := world.modifyState program fun state => state.adopt version
          some (.ok version, adopted.emit (.versionAdopted found.id version.id found.state.key))
      | none => do
          let settings ← world.settings? found.manager
          world.compileActive settings program found

/-- What several callers get that ask for the active version at once. They take turns, so after a
failure the next one compiles anew, and after a success the others find the same version. -/
def activeVersions (world : World B) (program : Nat) :
    Nat → Option (List (Except ProgramError (Version B)) × World B)
  | 0 => some ([], world)
  | callers + 1 => do
      let (outcome, next) ← world.activeVersion program
      let (others, done) ← next.activeVersions program callers
      some (outcome :: others, done)

end World

end ShaderCache
