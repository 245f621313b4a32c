import ShaderCache.Environment.Basic
import ShaderCache.World.Basic

/-!
# Making managers

A manager starts with neutral settings, with search directories, or with all that an
environment says. An environment that names an unknown flag or no shader model makes none.
-/

set_option autoImplicit false

namespace ShaderCache

variable {B : Backend}

namespace Settings

/-- The unknown flags to turn on are reported first, then those to turn off, then the model. -/
def ofEnvironment (environment : Environment) : Except ConfigurationError Settings := do
  let forcedFlags ←
    ForcedFlags.ofNames environment.forcedFlags.enabled environment.forcedFlags.disabled
  let model ← environment.shaderModel.mapM ShaderModel.ofProfile
  .ok {
    defines := environment.globalDefines
    arguments := environment.globalCompilerArguments
    forcedFlags := forcedFlags
    debugInfo := environment.generateDebugInfo
    spirvDirect := environment.spirvDirect
    defaultModel := model }

end Settings

namespace Manager

def new (device : Device) (service : B.State) : Manager B :=
  { device, service }

def withResolver (device : Device) (service : B.State) (resolver : SourceResolver) : Manager B :=
  { device, service, resolver }

def ofEnvironment (device : Device) (service : B.State) (environment : Environment) :
    Except ConfigurationError (Manager B) := do
  let settings ← Settings.ofEnvironment environment
  .ok { device, service, settings, resolver := .ofPaths environment.shaderPath }

end Manager

namespace World

/-- The manager gets the next index. -/
def addManager (world : World B) (manager : Manager B) : World B :=
  { world with managers := world.managers ++ [manager] }

/-- Acts on the backend of a manager from outside. -/
def modifyService (world : World B) (manager : Nat) (change : B.State → B.State) : World B :=
  world.modifyManager manager fun found => { found with service := change found.service }

end World

end ShaderCache
