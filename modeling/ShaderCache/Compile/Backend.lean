import ShaderCache.Compile.Request

/-!
# Backends

A compiler service together with the device that runs what it links. Handles are opaque:
a component can be a compiled global scope, an entry point, a type conformance or a composite
of any of those. A backend may remember things between calls, which is its state; its
diagnostics are only ever added to a log.
-/

set_option autoImplicit false

namespace ShaderCache

/-- A program as the front end compiled it: its global scope and one handle for each declared
entry point, in the order of the global indices. -/
structure CompiledProgram (Component : Type) where
  globalScope : Component
  entryPoints : List Component

structure CompileOutput (Component : Type) where
  program : Option (CompiledProgram Component)
  diagnostics : String

/-- An answer, or what went wrong, and the diagnostics written on the way. -/
structure Reply (α : Type) where
  log : String := ""
  answer : Except String α

structure Backend where
  State : Type
  Component : Type
  TypeHandle : Type
  Reflection : Type
  DeviceProgram : Type
  compile : CompileRequest → StateM State (CompileOutput Component)
  reflect : Component → StateM State (Except String Reflection)
  /-- The same entry point under another export name. -/
  rename : Component → String → StateM State (Except String Component)
  findType : Component → String → StateM State (Option TypeHandle)
  /-- Declares that the first type conforms to the second, under the given number. -/
  conform : TypeHandle → TypeHandle → UInt32 → StateM State (Reply Component)
  compose : List Component → StateM State (Reply Component)
  /-- The export name of the first entry point in a component. -/
  entryPointName : Component → StateM State (Option String)
  /-- An executable program of a global scope and specialized entry points. -/
  createDeviceProgram : Component → List Component → StateM State (Reply DeviceProgram)

end ShaderCache
