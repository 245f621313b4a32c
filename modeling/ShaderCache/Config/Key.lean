import ShaderCache.Config.Conformances
import ShaderCache.Config.Defines

/-!
# The configuration of a program

Its defines together with its type conformances. Versions of a program are kept by it,
and two configurations are the same exactly when both lists are.
-/

set_option autoImplicit false

namespace ShaderCache

structure ProgramKey where
  defines : DefineList
  conformances : ConformanceList
  deriving DecidableEq

namespace ProgramKey

def canonicalBytes (key : ProgramKey) : List UInt8 :=
  key.defines.canonicalBytes ++ [124] ++ key.conformances.canonicalBytes

def digest (key : ProgramKey) : String :=
  Crc64.digest key.canonicalBytes

end ProgramKey

end ShaderCache
