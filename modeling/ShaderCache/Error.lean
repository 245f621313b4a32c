import ShaderCache.Files.Resolver

/-!
# What can be wrong with a program

A configuration error is a fault of the description or the settings. A program error
tells at which point of compiling, linking or creating the device program it came up,
and carries the whole log of diagnostics written so far.
-/

set_option autoImplicit false

namespace ShaderCache

inductive ConfigurationError where
  | unresolvedType (name : String)
  | unresolvedInterface (name : String)
  | malformedProfile (profile : String)
  | sourceNotFound (path : Path)
  | unknownCompilerFlag (name : String)
  | invalidShaderModuleIndex (group index : Nat)
  | mixedStageGroup (group : Nat)
  | emptyEntryPointGroup (group : Nat)

namespace ConfigurationError

def kind : ConfigurationError → String
  | .unresolvedType _ => "UnresolvedType"
  | .unresolvedInterface _ => "UnresolvedInterface"
  | .malformedProfile _ => "MalformedProfile"
  | .sourceNotFound _ => "SourceNotFound"
  | .unknownCompilerFlag _ => "UnknownCompilerFlag"
  | .invalidShaderModuleIndex _ _ => "InvalidShaderModuleIndex"
  | .mixedStageGroup _ => "MixedStageGroup"
  | .emptyEntryPointGroup _ => "EmptyEntryPointGroup"

def reason : ConfigurationError → String
  | .unresolvedType name => s!"type `{name}` in type conformance was not found"
  | .unresolvedInterface name => s!"interface type `{name}` in type conformance was not found"
  | .malformedProfile profile => s!"malformed shader model profile: `{profile}`"
  | .sourceNotFound path => s!"can't find shader file `{path.text}`"
  | .unknownCompilerFlag name => s!"unknown compiler flag: `{name}`"
  | .invalidShaderModuleIndex group index =>
      s!"entry point group #{group} references non-existent shader module #{index}"
  | .mixedStageGroup group => s!"entry point group #{group} mixes incompatible pipeline stages"
  | .emptyEntryPointGroup group => s!"entry point group #{group} contains no entry points"

def message (error : ConfigurationError) : String :=
  s!"ConfigurationError[{error.reason}]"

def ofSourceError : SourceError → ConfigurationError
  | .notFound path => .sourceNotFound path

end ConfigurationError

inductive ProgramError where
  | configuration (error : ConfigurationError) (log : String)
  | compilation (program log : String)
  | linking (program log : String)
  | device (program log : String)
  /-- The version outlived the program it was produced from. -/
  | orphaned
  /-- The version belongs to another program than the one it was passed with. -/
  | versionMismatch

namespace ProgramError

def ofConfigurationError (error : ConfigurationError) : ProgramError :=
  .configuration error ""

def kind : ProgramError → String
  | .configuration _ _ => "Configuration"
  | .compilation _ _ => "Compilation"
  | .linking _ _ => "Linking"
  | .device _ _ => "Device"
  | .orphaned => "Orphaned"
  | .versionMismatch => "VersionMismatch"

def log? : ProgramError → Option String
  | .configuration _ log => some log
  | .compilation _ log => some log
  | .linking _ log => some log
  | .device _ log => some log
  | .orphaned => none
  | .versionMismatch => none

/-- What is wrong with the configuration, if that is what the error is about. -/
def configurationError? : ProgramError → Option ConfigurationError
  | .configuration error _ => some error
  | _ => none

def isConfigurationError (error : ProgramError) : Bool :=
  error.configurationError?.isSome

def reason : ProgramError → String
  | .configuration error log => s!"invalid configuration: {error.message}\n{log}"
  | .compilation program log => s!"failed to compile program {program}:\n{log}"
  | .linking program log => s!"failed to link program {program}:\n{log}"
  | .device program log => s!"failed to create device program for {program}:\n{log}"
  | .orphaned => "the program of the version no longer exists"
  | .versionMismatch => "version belongs to a different program"

def message (error : ProgramError) : String :=
  s!"ProgramError[{error.reason}]"

end ProgramError

end ShaderCache
