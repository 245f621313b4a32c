import ShaderCache.Config.Defines
import ShaderCache.Files.Path

/-!
# Runtime environments

The settings of an application that are kept in a file: where shaders are looked for, and
what applies to every program that is compiled.
-/

set_option autoImplicit false

namespace ShaderCache

structure ForcedFlagNames where
  enabled : List String := []
  disabled : List String := []
  deriving DecidableEq

structure Environment where
  shaderPath : List Path := []
  globalDefines : DefineList := ∅
  globalCompilerArguments : List String := []
  forcedFlags : ForcedFlagNames := {}
  generateDebugInfo : Bool := false
  spirvDirect : Bool := false
  shaderModel : Option String := none

namespace Environment

/-- Paths count as equal if they have the same steps. -/
instance : BEq Environment := ⟨fun left right =>
  left.shaderPath == right.shaderPath &&
    left.globalDefines == right.globalDefines &&
    left.globalCompilerArguments == right.globalCompilerArguments &&
    left.forcedFlags == right.forcedFlags &&
    left.generateDebugInfo == right.generateDebugInfo &&
    left.spirvDirect == right.spirvDirect &&
    left.shaderModel == right.shaderModel⟩

end Environment

end ShaderCache
