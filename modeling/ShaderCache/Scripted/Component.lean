import ShaderCache.Program.Stage
import ShaderCache.Text.Join

/-!
# Components of the scripted backend

Trees that say how a component was put together, with their text and with what reflection
finds in them, depth first.
-/

set_option autoImplicit false

namespace ShaderCache.Scripted

inductive Component where
  | globalScope (ordinal : Nat)
  | entryPoint (name exportName : String) (stage : ShaderStage)
  | conformance (typeName interfaceName : String) (id : UInt32)
  | composite (parts : List Component)

structure Reflection where
  globalScopes : Nat := 0
  entryPoints : List String := []
  conformances : List (String × String × UInt32) := []
  deriving DecidableEq

namespace Reflection

def append (left right : Reflection) : Reflection :=
  ⟨left.globalScopes + right.globalScopes, left.entryPoints ++ right.entryPoints,
    left.conformances ++ right.conformances⟩

end Reflection

namespace Component

mutual

def render : Component → String
  | .globalScope ordinal => s!"G{ordinal}"
  | .entryPoint name exportName stage => s!"E({name}>{exportName}@{stage.name})"
  | .conformance typeName interfaceName id => s!"C({typeName}:{interfaceName}#{id.toNat})"
  | .composite parts => "[" ++ Text.joinWith ", " (renderAll parts) ++ "]"

def renderAll : List Component → List String
  | [] => []
  | part :: rest => render part :: renderAll rest

end

mutual

def reflection : Component → Reflection
  | .globalScope _ => { globalScopes := 1 }
  | .entryPoint _ exportName _ => { entryPoints := [exportName] }
  | .conformance typeName interfaceName id => { conformances := [(typeName, interfaceName, id)] }
  | .composite parts => reflectionAll parts

def reflectionAll : List Component → Reflection
  | [] => {}
  | part :: rest => (reflection part).append (reflectionAll rest)

end

mutual

/-- The first answer that `nameOf` gives for the export name of an entry point. -/
def firstName? (nameOf : String → Option String) : Component → Option String
  | .entryPoint _ exportName _ => nameOf exportName
  | .composite parts => firstNameAmong? nameOf parts
  | .globalScope _ => none
  | .conformance _ _ _ => none

def firstNameAmong? (nameOf : String → Option String) : List Component → Option String
  | [] => none
  | part :: rest => (firstName? nameOf part).or (firstNameAmong? nameOf rest)

end

end Component

end ShaderCache.Scripted
