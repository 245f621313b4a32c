import ShaderCache.Link.Kernels

/-!
# Creating pipelines

A dispatcher makes pipeline objects from linked kernels. The counting dispatcher around it
routes each creation step to the matching operation and counts the steps, failed ones too.
-/

set_option autoImplicit false

namespace ShaderCache

inductive PipelineError where
  | unsupported (creation : PipelineCreation)
  | incompatibleKernels (creation : PipelineCreation)
  | noSuchGroup (group : Nat)
  | implementationSpecific (reason : String)

namespace PipelineError

def kind : PipelineError → String
  | .unsupported _ => "Unsupported"
  | .incompatibleKernels _ => "IncompatibleKernels"
  | .noSuchGroup _ => "NoSuchGroup"
  | .implementationSpecific _ => "ImplementationSpecific"

def reason : PipelineError → String
  | .unsupported creation => s!"unsupported pipeline type: {creation.name}"
  | .incompatibleKernels creation => s!"kernels not suitable for {creation.name} pipeline"
  | .noSuchGroup group => s!"no entry point group #{group}"
  | .implementationSpecific reason => s!"nested implementation error: {reason}"

def message (error : PipelineError) : String :=
  s!"PipelineError[{error.reason}]"

end PipelineError

/-- Creates pipelines. Graphics and mesh pipelines are unsupported, and the ray tracing hooks do
nothing, unless a dispatcher says otherwise. -/
structure Dispatcher (B : Backend) where
  State : Type
  Pipeline : Type
  compute : LinkedKernels B → StateM State (Except PipelineError Pipeline)
  graphics : LinkedKernels B → StateM State (Except PipelineError Pipeline) :=
    fun _ => pure (.error (.unsupported .graphics))
  mesh : LinkedKernels B → StateM State (Except PipelineError Pipeline) :=
    fun _ => pure (.error (.unsupported .mesh))
  beforeRayTracing : LinkedKernels B → StateM State (Except PipelineError Unit) :=
    fun _ => pure (.ok ())
  afterRayTracing : LinkedKernels B → StateM State (Except PipelineError Unit) :=
    fun _ => pure (.ok ())

namespace Dispatcher

variable {B : Backend}

/-- One creation step. The ray tracing hooks make no pipeline. -/
def create (dispatcher : Dispatcher B) (creation : PipelineCreation) (kernels : LinkedKernels B) :
    StateM dispatcher.State (Except PipelineError (Option dispatcher.Pipeline)) :=
  match creation with
  | .compute => (fun made => made.map some) <$> dispatcher.compute kernels
  | .graphics => (fun made => made.map some) <$> dispatcher.graphics kernels
  | .mesh => (fun made => made.map some) <$> dispatcher.mesh kernels
  | .rayTracingPre => (fun done => done.map fun _ => none) <$> dispatcher.beforeRayTracing kernels
  | .rayTracingPost => (fun done => done.map fun _ => none) <$> dispatcher.afterRayTracing kernels

end Dispatcher

structure CountingDispatcher {B : Backend} (dispatcher : Dispatcher B) where
  state : dispatcher.State
  /-- The number of creation steps since the last reset. -/
  creationCount : Nat := 0

namespace CountingDispatcher

variable {B : Backend} {dispatcher : Dispatcher B}

def dispatch (counting : CountingDispatcher dispatcher) (creation : PipelineCreation)
    (kernels : LinkedKernels B) :
    Except PipelineError (Option dispatcher.Pipeline) × CountingDispatcher dispatcher :=
  let (made, state) := (dispatcher.create creation kernels).run counting.state
  (made, ⟨state, counting.creationCount + 1⟩)

def dispatchGroup (counting : CountingDispatcher dispatcher) (kernels : LinkedKernels B)
    (group : Nat) :
    Except PipelineError (Option dispatcher.Pipeline) × CountingDispatcher dispatcher :=
  match kernels.groups[group]? with
  | some found => counting.dispatch found.kind.creation kernels
  | none => (.error (.noSuchGroup group), counting)

def resetCount (counting : CountingDispatcher dispatcher) : CountingDispatcher dispatcher :=
  { counting with creationCount := 0 }

end CountingDispatcher

end ShaderCache
