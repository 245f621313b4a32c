import ShaderCache.World.Basic

/-!
# A backend that echoes

Components are the texts they were asked for, in the order in which they are put together. A
global scope is the values of all macros, so different defines give different versions. Programs
that define `BROKEN` are rejected. The backend remembers nothing.
-/

set_option autoImplicit false

namespace ShaderCache

def Backend.echo : Backend where
  State := Unit
  Component := List String
  TypeHandle := String
  Reflection := List String
  DeviceProgram := List String
  compile request := pure <|
    if request.macros.any fun entry => entry.1 = "BROKEN" then ⟨none, "Rejected.\n"⟩
    else ⟨some ⟨request.macros.map Prod.snd, request.entryPoints.map fun entry => [entry.name]⟩, ""⟩
  reflect component := pure (.ok component)
  rename _ name := pure (.ok [name])
  findType _ name := pure (some name)
  conform type interface _ := pure { answer := .ok [type, interface] }
  compose parts := pure { answer := .ok parts.flatten }
  entryPointName component := pure component.head?
  createDeviceProgram scope entries := pure { answer := .ok (scope ++ entries.flatten) }

def Manager.echo : Manager Backend.echo :=
  { device := { type := .vulkan }, service := () }

/-- One module without sources and one compute shader. -/
def ProgramDesc.oneKernel : ProgramDesc :=
  { modules := [{}], groups := [⟨0, ∅, [⟨.compute, "main", "main", none⟩]⟩] }

end ShaderCache
