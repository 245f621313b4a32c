import ShaderCache.World.Basic

/-!
# Settings that apply to every program

Changing a setting is two things: a write, and a sweep that resets the programs registered
with the manager. Search directories take part in every request too, but adding one sweeps
nothing.
-/

set_option autoImplicit false

namespace ShaderCache.World

variable {B : Backend}

/-! ## Sweeps -/

def resetProgram (world : World B) (program : Nat) : World B :=
  world.modifyState program ProgramState.reset

/-- What is listed at a manager. -/
def registry (world : World B) (manager : Nat) : List Nat :=
  match world.managers[manager]? with
  | some found => found.registry
  | none => []

/-- The listed programs that are alive; a sweep gets hold of no others. -/
def registered (world : World B) (manager : Nat) : List Nat :=
  (world.registry manager).filter fun program => (world.program? program).isSome

def hasCachedState (world : World B) (program : Nat) : Bool :=
  match world.program? program with
  | some found => found.state.hasCachedState
  | none => false

/-- The programs that a sweep resets: all, or those that have something to forget. -/
def dueForReset (world : World B) (manager : Nat) (force : Bool) : List Nat :=
  (world.registered manager).filter fun program => force || world.hasCachedState program

/-- Resets programs; tells whether there was one to reset. -/
def reload (world : World B) (manager : Nat) (force : Bool) : Bool × World B :=
  let due := world.dueForReset manager force
  (!due.isEmpty, (due.foldl resetProgram world).emit (.programsReloaded due.length))

def sweep (world : World B) (manager : Nat) : World B :=
  (world.reload manager true).2

/-! ## Settings -/

def configure (world : World B) (manager : Nat) (change : Settings → Settings) : World B :=
  world.modifyManager manager fun found => { found with settings := change found.settings }

inductive SettingsEdit where
  | addDefines (defines : DefineList)
  | removeDefines (defines : DefineList)
  | setForcedFlags (forcedFlags : ForcedFlags)
  | setArguments (arguments : List String)
  | setDebugInfo (enabled : Bool)
  | setSpirvDirect (enabled : Bool)

namespace SettingsEdit

def apply (settings : Settings) : SettingsEdit → Settings
  | .addDefines defines => { settings with defines := (settings.defines.addAll defines).2 }
  | .removeDefines defines => { settings with defines := (settings.defines.removeAll defines).2 }
  | .setForcedFlags forcedFlags => { settings with forcedFlags := forcedFlags }
  | .setArguments arguments => { settings with arguments := arguments }
  | .setDebugInfo enabled => { settings with debugInfo := enabled }
  | .setSpirvDirect enabled => { settings with spirvDirect := enabled }

/-- Whether the programs are swept after the write. Defines and flags do not look whether they
changed. -/
def sweeps (settings : Settings) : SettingsEdit → Bool
  | .addDefines _ | .removeDefines _ | .setForcedFlags _ => true
  | .setArguments arguments => settings.arguments ≠ arguments
  | .setDebugInfo enabled => settings.debugInfo ≠ enabled
  | .setSpirvDirect enabled => settings.spirvDirect ≠ enabled

end SettingsEdit

def editSettings (world : World B) (manager : Nat) (edit : SettingsEdit) : World B :=
  match world.settings? manager with
  | some settings =>
      let written := world.configure manager fun current => edit.apply current
      if edit.sweeps settings then written.sweep manager else written
  | none => world

/-! ## Search directories -/

def addSearchPath (world : World B) (manager : Nat) (path : Path) : Bool × World B :=
  match world.managers[manager]? with
  | some found =>
      let (added, resolver) := found.resolver.add path
      (added, world.modifyManager manager fun found => { found with resolver := resolver })
  | none => (false, world)

def findFile (world : World B) (manager : Nat) (path : Path) : Except SourceError Path :=
  match world.managers[manager]? with
  | some found => found.resolver.find world.files path
  | none => .error (.notFound path)

/-! ## Counts -/

def resetCounts (world : World B) (manager : Nat) : World B :=
  world.modifyManager manager fun found => { found with counts := {} }

end ShaderCache.World
