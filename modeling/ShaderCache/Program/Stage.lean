/-!
# Pipeline stages

The stages an entry point can be compiled for, and the kinds of pipeline they belong to.
-/

set_option autoImplicit false

namespace ShaderCache

inductive ShaderStage where
  | vertex
  | pixel
  | geometry
  | hull
  | domain
  | compute
  | rayGeneration
  | intersection
  | anyHit
  | closestHit
  | miss
  | callable
  deriving DecidableEq, Inhabited

namespace ShaderStage

def all : List ShaderStage :=
  [.vertex, .pixel, .geometry, .hull, .domain, .compute, .rayGeneration, .intersection,
    .anyHit, .closestHit, .miss, .callable]

def name : ShaderStage → String
  | .vertex => "vertex"
  | .pixel => "pixel"
  | .geometry => "geometry"
  | .hull => "hull"
  | .domain => "domain"
  | .compute => "compute"
  | .rayGeneration => "raygeneration"
  | .intersection => "intersection"
  | .anyHit => "anyhit"
  | .closestHit => "closesthit"
  | .miss => "miss"
  | .callable => "callable"

/-- The name by which other programs refer to the stage. -/
def identifier : ShaderStage → String
  | .vertex => "Vertex"
  | .pixel => "Pixel"
  | .geometry => "Geometry"
  | .hull => "Hull"
  | .domain => "Domain"
  | .compute => "Compute"
  | .rayGeneration => "RayGeneration"
  | .intersection => "Intersection"
  | .anyHit => "AnyHit"
  | .closestHit => "ClosestHit"
  | .miss => "Miss"
  | .callable => "Callable"

def ofIdentifier? (identifier : String) : Option ShaderStage :=
  all.find? fun stage => stage.identifier = identifier

/-- The usual short name, which entry points begin with. -/
def shorthand : ShaderStage → String
  | .vertex => "vs"
  | .pixel => "ps"
  | .geometry => "gs"
  | .hull => "hs"
  | .domain => "ds"
  | .compute => "cs"
  | .rayGeneration => "rayGen"
  | .intersection => "intersection"
  | .anyHit => "anyHit"
  | .closestHit => "closestHit"
  | .miss => "miss"
  | .callable => "callable"

def ofShorthand? (shorthand : String) : Option ShaderStage :=
  all.find? fun stage => stage.shorthand = shorthand

def isRasterization : ShaderStage → Bool
  | .vertex | .pixel | .geometry | .hull | .domain => true
  | _ => false

def isCompute (stage : ShaderStage) : Bool :=
  stage = .compute

def isRayTracing : ShaderStage → Bool
  | .rayGeneration | .intersection | .anyHit | .closestHit | .miss | .callable => true
  | _ => false

def rank (stage : ShaderStage) : Nat :=
  all.idxOf stage

end ShaderStage

/-- The steps of creating pipelines. The ray tracing ones run right before and right after a
state object is made. -/
inductive PipelineCreation where
  | compute
  | graphics
  | mesh
  | rayTracingPre
  | rayTracingPost
  deriving DecidableEq

namespace PipelineCreation

def all : List PipelineCreation :=
  [.compute, .graphics, .mesh, .rayTracingPre, .rayTracingPost]

/-- The name by which other programs refer to the step. -/
def identifier : PipelineCreation → String
  | .compute => "Compute"
  | .graphics => "Graphics"
  | .mesh => "Mesh"
  | .rayTracingPre => "RayTracingPre"
  | .rayTracingPost => "RayTracingPost"

def ofIdentifier? (identifier : String) : Option PipelineCreation :=
  all.find? fun creation => creation.identifier = identifier

def name : PipelineCreation → String
  | .compute => "compute"
  | .graphics => "graphics"
  | .mesh => "mesh"
  | .rayTracingPre => "ray tracing (pre-creation)"
  | .rayTracingPost => "ray tracing (post-creation)"

end PipelineCreation

/-- The kind of pipeline that a group of entry points belongs to. -/
inductive PipelineKind where
  | rasterization
  | compute
  | rayTracing
  deriving DecidableEq

namespace PipelineKind

def name : PipelineKind → String
  | .rasterization => "Rasterization"
  | .compute => "Compute"
  | .rayTracing => "RayTracing"

def ofStage (stage : ShaderStage) : PipelineKind :=
  if stage.isRayTracing then .rayTracing
  else if stage.isCompute then .compute
  else .rasterization

def creation : PipelineKind → PipelineCreation
  | .rasterization => .graphics
  | .compute => .compute
  | .rayTracing => .rayTracingPre

end PipelineKind

end ShaderCache
