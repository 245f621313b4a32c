import ShaderCache.Compile.Version

/-!
# Linked kernels

The entry points of a version, specialized by the type conformances of a program and linked
with its global scope, group by group, and the device program made of them.
-/

set_option autoImplicit false

namespace ShaderCache

structure EntryPointKernel (B : Backend) where
  stage : ShaderStage
  exportName : String
  /-- The specialized entry point composed with the global scope. -/
  linked : B.Component

structure GroupKernels (B : Backend) where
  kind : PipelineKind
  kernels : List (EntryPointKernel B)

namespace GroupKernels

variable {B : Backend}

def exportName (group : GroupKernels B) : String :=
  match group.kernels with
  | [] => ""
  | first :: _ => first.exportName

def kernel? (group : GroupKernels B) (stage : ShaderStage) : Option (EntryPointKernel B) :=
  group.kernels.find? fun kernel => kernel.stage = stage

end GroupKernels

structure LinkedKernels (B : Backend) where
  name : String
  versionId : UInt64
  conformances : ConformanceList
  reflection : ProgramReflection B.Reflection
  groups : List (GroupKernels B)
  /-- The names of the entry points that were handed to the device. -/
  deviceEntryPoints : List String
  deviceProgram : B.DeviceProgram

namespace LinkedKernels

variable {B : Backend}

/-- The first kernel of the stage, group by group. -/
def kernel? (kernels : LinkedKernels B) (stage : ShaderStage) : Option (EntryPointKernel B) :=
  kernels.groups.findSome? fun group => group.kernel? stage

end LinkedKernels

inductive LinkFailure where
  | configuration (error : ConfigurationError)
  | linking
  | device

/-- What linking needs of a version. -/
structure LinkInput (B : Backend) where
  name : String
  versionId : UInt64
  globalScope : B.Component
  entryPoints : List B.Component

/-- An entry point as it is handed to the device and as it is dispatched. -/
structure SpecializedEntry (B : Backend) where
  entry : EntryPoint
  specialized : B.Component
  linked : B.Component

namespace LinkedKernels

variable {B : Backend}

/-! ## Type conformances -/

/-- The conformances of a group: its own, and those of the program that it does not override. -/
def effective (conformances : ConformanceList) (group : EntryPointGroup) : ConformanceList :=
  conformances.addAll group.conformances

def conform (scope : B.Component) (entry : Conformance × UInt32) :
    Job B LinkFailure B.Component := do
  let (conformance, id) := entry
  let typeName := conformance.typeName
  let interfaceName := conformance.interfaceName
  let found ← Job.call (B.findType scope typeName)
  match found with
  | none =>
      Job.failWith (.configuration (.unresolvedType typeName))
        s!"Type {typeName} in type conformance was not found."
  | some type => do
      let found ← Job.call (B.findType scope interfaceName)
      match found with
      | none =>
          Job.failWith (.configuration (.unresolvedInterface interfaceName))
            s!"Interface type {interfaceName} in type conformance was not found."
      | some interface => do
          let created ← Job.callNoting (B.conform type interface id)
          let label := conformance.render
          Job.orFail .linking
            (fun reason => s!"Creating type conformance {label} failed: {reason}") created

def composite (scope : B.Component) (conformances : ConformanceList) :
    Job B LinkFailure (Option B.Component) := do
  let parts ← conformances.entries.mapM (conform scope)
  if parts.isEmpty then
    return none
  else do
    let composed ← Job.callNoting (B.compose parts)
    let whole ← Job.orFail .linking
      (fun reason => s!"Creating type conformance composite failed: {reason}") composed
    return some whole

/-! ## Entry points -/

def handleOf? (input : LinkInput B) (entry : EntryPoint) : Option B.Component :=
  entry.globalIndex.bind fun index => input.entryPoints[index.toNat]?

/-- The handle of an entry point, composed with the conformances of its group if it has any. -/
def withConformances (composite : Option B.Component) (entry : EntryPoint)
    (handle : B.Component) : Job B LinkFailure B.Component :=
  match composite with
  | none => pure handle
  | some conformances => do
      let composed ← Job.callNoting (B.compose [handle, conformances])
      Job.orFail .linking
        (fun reason => s!"Specializing entry point `{entry.exportName}` failed: {reason}") composed

def specialize (input : LinkInput B) (composite : Option B.Component) (entry : EntryPoint) :
    Job B LinkFailure (SpecializedEntry B) :=
  match handleOf? input entry with
  | none =>
      Job.failWith .linking
        s!"Version {versionLabel input.versionId} lacks entry point `{entry.name}`."
  | some handle => do
      let specialized ← withConformances composite entry handle
      let composed ← Job.callNoting (B.compose [input.globalScope, specialized])
      let linked ← Job.orFail .linking
        (fun reason => s!"Linking entry point `{entry.exportName}` failed: {reason}") composed
      return ⟨entry, specialized, linked⟩

/-- The entry points of all groups in one list, each specialized by the conformances of its
group. -/
def specializeGroups (input : LinkInput B) :
    List (EntryPointGroup × Option B.Component) → Job B LinkFailure (List (SpecializedEntry B))
  | [] => pure []
  | (group, composite) :: rest => do
      let own ← group.entryPoints.mapM (specialize input composite)
      let others ← specializeGroups input rest
      return own ++ others

/-! ## Groups -/

def kernelOf (entry : EntryPoint) (made : SpecializedEntry B) : EntryPointKernel B :=
  ⟨entry.stage, entry.exportName, made.linked⟩

/-- The kernels of the group at `position`, which must not be empty nor mix kinds of pipelines. They
are made of the first entries that are left. -/
def groupKernels (position : Nat) (group : EntryPointGroup) (left : List (SpecializedEntry B)) :
    Job B LinkFailure (GroupKernels B) :=
  match group.kind position with
  | .ok kind => pure ⟨kind, group.entryPoints.zipWith kernelOf left⟩
  | .error error => Job.failWith (.configuration error) error.message

/-- All groups draw on the same list: each takes one entry for each of its entry points and leaves
the others to the groups after it. -/
def allGroupKernels (position : Nat) :
    List EntryPointGroup → List (SpecializedEntry B) → Job B LinkFailure (List (GroupKernels B))
  | [], _ => pure []
  | group :: rest, left => do
      let kernels ← groupKernels position group left
      let others ← allGroupKernels (position + 1) rest (left.drop group.entryPoints.length)
      return kernels :: others

/-! ## The device -/

/-- The name of an entry point in generated code, or its export name if the compiler has none. -/
def deviceName (entry : SpecializedEntry B) : Job B LinkFailure (String × B.Component) := do
  let name ← Job.call (B.entryPointName entry.specialized)
  return (name.getD entry.entry.exportName, entry.specialized)

/-- The entries whose name is not among `seen` and not the name of an earlier one. -/
def firstOfEachName {α : Type} (seen : List String) : List (String × α) → List (String × α)
  | [] => []
  | (name, value) :: rest =>
      if name ∈ seen then firstOfEachName seen rest
      else (name, value) :: firstOfEachName (name :: seen) rest

/-- Entry points of ray tracing programs are handed over once for each name. The first entry
point tells what kind of program it is. -/
def isRayTracing (desc : ProgramDesc) : Bool :=
  match desc.entryPoints with
  | [] => false
  | first :: _ => first.stage.isRayTracing

def deviceEntries (desc : ProgramDesc) (named : List (String × B.Component)) :
    List (String × B.Component) :=
  if isRayTracing desc then firstOfEachName [] named else named

/-! ## Linking -/

/-- Links a version of the described program for the given conformances. The device is asked
last. -/
def job (desc : ProgramDesc) (conformances : ConformanceList) (input : LinkInput B) :
    Job B LinkFailure (LinkedKernels B) := do
  let composites ← desc.groups.mapM fun group =>
    composite input.globalScope (effective conformances group)
  let entries ← specializeGroups input (desc.groups.zip composites)
  let handle ← Job.composeAndReflect .linking
    (input.globalScope :: input.entryPoints ++ composites.filterMap id)
  let groups ← allGroupKernels 0 desc.groups entries
  let named ← entries.mapM deviceName
  let chosen := deviceEntries desc named
  let created ← Job.callNoting
    (B.createDeviceProgram input.globalScope (chosen.map Prod.snd))
  let deviceProgram ← Job.orFail .device
    (fun reason => s!"Creating device program failed: {reason}") created
  return {
    name := input.name
    versionId := input.versionId
    conformances := conformances
    reflection := .create input.versionId desc handle
    groups := groups
    deviceEntryPoints := chosen.map Prod.fst
    deviceProgram := deviceProgram }

end LinkedKernels

end ShaderCache
