import ShaderCache.Dispatch
import ShaderCache.Scripted.Backend

/-!
# Dispatchers for the scripted backend

Their pipelines are texts that name what they were made from. Both count the compute
pipelines they are asked for.
-/

set_option autoImplicit false

namespace ShaderCache.Scripted

abbrev ScriptedKernels : Type := LinkedKernels backend

/-- The export name of the first kernel of the stage after a label. -/
def labelKernel (label : String) (stage : ShaderStage) (creation : PipelineCreation)
    (kernels : ScriptedKernels) : Except PipelineError String :=
  match kernels.kernel? stage with
  | some kernel => .ok (label ++ kernel.exportName)
  | none => .error (.incompatibleKernels creation)

/-- Makes compute pipelines and nothing else. -/
def basicDispatcher : Dispatcher backend where
  State := Nat
  Pipeline := String
  compute := fun kernels count => (labelKernel "compute:" .compute .compute kernels, count + 1)

/-- Makes every kind of pipeline, and refuses after ray tracing state was created. -/
def fullDispatcher : Dispatcher backend where
  State := Nat
  Pipeline := String
  compute := fun kernels count => (.ok ("full-compute:" ++ kernels.name), count + 1)
  graphics := fun kernels count => (labelKernel "graphics:" .vertex .graphics kernels, count)
  mesh := fun kernels count =>
    (.ok ("mesh:" ++ Text.joinWith "+" kernels.deviceEntryPoints), count)
  afterRayTracing := fun _ count => (.error (.implementationSpecific "post hook failed"), count)

end ShaderCache.Scripted
