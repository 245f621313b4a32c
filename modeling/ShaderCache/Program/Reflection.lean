import ShaderCache.Program.Desc

/-!
# Reflection

The layout of the entry point groups of a compiled program, with the backend's own
reflection of the composite it was asked about.
-/

set_option autoImplicit false

namespace ShaderCache

structure GroupReflection where
  groupIndex : Nat
  entryPoints : List UInt32
  stages : List ShaderStage
  deriving DecidableEq

structure ProgramReflection (Reflection : Type) where
  versionId : UInt64
  handle : Reflection
  groups : List GroupReflection

namespace ProgramReflection

def groupOf (position : Nat) (group : EntryPointGroup) : GroupReflection :=
  ⟨position, group.entryPoints.filterMap EntryPoint.globalIndex,
    group.entryPoints.map EntryPoint.stage⟩

def create {Reflection : Type} (versionId : UInt64) (desc : ProgramDesc) (handle : Reflection) :
    ProgramReflection Reflection :=
  ⟨versionId, handle, desc.groups.mapIdx groupOf⟩

end ProgramReflection

end ShaderCache
