import ShaderCache.Config.Key
import ShaderCache.Error

/-!
# Events

What the library reports while it works, with the texts it reports it in. Programs and
versions are named by their identifiers.
-/

set_option autoImplicit false

namespace ShaderCache

inductive Level where
  | error
  | warn
  | info
  | debug
  deriving DecidableEq

namespace Level

def name : Level → String
  | .error => "ERROR"
  | .warn => "WARN"
  | .info => "INFO"
  | .debug => "DEBUG"

/-- Whether only an outlet for all details shows the level. -/
def isDetail : Level → Bool
  | .error | .warn => false
  | .info | .debug => true

end Level

def programLabel (id : UInt64) : String := s!"#{id.toNat}"

def versionLabel (id : UInt64) : String := s!"v{id.toNat}"

inductive Event where
  | conflictingModes
  | unusualExtension (path : Path)
  | programRegistered (program : UInt64) (description : String)
  | programUnregistered (program : UInt64) (description : String)
  | programsReloaded (count : Nat)
  | versionAdopted (program version : UInt64) (key : ProgramKey)
  | versionFailed (program : UInt64) (error : ProgramError)
  | versionWarnings (description log : String)
  | versionCreated (version : UInt64) (description : String) (defines : DefineList)
  | kernelsReused (version : UInt64) (conformances : ConformanceList)
  | kernelsWarnings (description log : String)
  | kernelsCreated (description : String) (version : UInt64) (conformances : ConformanceList)

namespace Event

def level : Event → Level
  | .versionFailed _ _ => .error
  | .conflictingModes | .unusualExtension _ | .versionWarnings _ _ | .kernelsWarnings _ _ => .warn
  | .versionCreated _ _ _ | .kernelsCreated _ _ _ => .info
  | .programRegistered _ _ | .programUnregistered _ _ | .programsReloaded _
  | .versionAdopted _ _ _ | .kernelsReused _ _ => .debug

def message : Event → String
  | .conflictingModes =>
      "Shader compiler flags 'FLOATING_POINT_MODE_FAST' and 'FLOATING_POINT_MODE_PRECISE' " ++
        "can't be used simultaneously. Ignoring 'FLOATING_POINT_MODE_FAST'."
  | .unusualExtension path =>
      s!"Compiling a shader file which is not a SLANG file or an HLSL file: `{path.text}`. " ++
        "This is not an error, but make sure that the file contains valid shaders"
  | .programRegistered program description =>
      s!"Registered program {programLabel program} {description}"
  | .programUnregistered program description =>
      s!"Unregistered program {programLabel program} {description}"
  | .programsReloaded count => s!"Reloaded {count} program(s)"
  | .versionAdopted program version key =>
      s!"Program {programLabel program}: adopting cached version {versionLabel version} " ++
        s!"[{key.digest}]"
  | .versionFailed program error => s!"Program {programLabel program}: {error.message}"
  | .versionWarnings description log => s!"Warnings in program {description}:\n{log}"
  | .versionCreated version description defines =>
      s!"Created program version {versionLabel version} of {description} " ++
        s!"[defines {defines.digest}]"
  | .kernelsReused version conformances =>
      s!"Version {versionLabel version}: reusing kernels for conformances " ++
        s!"[{conformances.digest}]"
  | .kernelsWarnings description log => s!"Warnings while linking program {description}:\n{log}"
  | .kernelsCreated description version conformances =>
      s!"Created program kernels of {description} for version {versionLabel version} " ++
        s!"[conformances {conformances.digest}]"

/-- As a line of a log, though messages may themselves have several lines. -/
def render (event : Event) : String :=
  s!"{event.level.name} {event.message}"

end Event

end ShaderCache
