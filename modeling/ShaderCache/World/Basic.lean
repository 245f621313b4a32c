import ShaderCache.Link.Kernels
import ShaderCache.World.ProgramState

/-!
# Managers and programs

The state that all operations work on: managers with their settings, the programs that are
alive, what has been linked so far, and the counters that give out identities. Programs,
versions and kernels have serial numbers, which are never given out twice.
-/

set_option autoImplicit false

namespace ShaderCache

structure CompilationCounts where
  versions : Nat := 0
  kernels : Nat := 0
  deriving DecidableEq, Inhabited

structure Manager (B : Backend) where
  device : Device
  service : B.State
  settings : Settings := {}
  resolver : SourceResolver := {}
  counts : CompilationCounts := {}
  /-- The programs to reset when settings change, by serial number. -/
  registry : List Nat := []

structure Program (B : Backend) where
  id : UInt64
  manager : Nat
  desc : ProgramDesc
  description : String
  state : ProgramState B

/-- Linked kernels are the same object exactly when their serial numbers agree. -/
structure Kernels (B : Backend) where
  serial : Nat
  linked : LinkedKernels B

/-- Kernels kept by the version with the given serial number for one list of conformances. -/
structure CachedKernels (B : Backend) where
  version : Nat
  conformances : ConformanceList
  kernels : Kernels B

structure World (B : Backend) where
  files : FileTree
  managers : List (Manager B) := []
  /-- The programs that are alive, by serial number. -/
  programs : SortedMap Nat (Program B) := ∅
  /-- The kernels that versions keep, oldest first. -/
  kernels : List (CachedKernels B) := []
  orphans : List Nat := []
  programIds : IdSequence := .initial
  versionIds : IdSequence := .initial
  programCount : Nat := 0
  versionCount : Nat := 0
  kernelsCount : Nat := 0
  /-- What has been reported, oldest first. -/
  events : List Event := []

namespace Manager

variable {B : Backend}

def context (manager : Manager B) (files : FileTree) : CompileContext :=
  ⟨manager.device, manager.settings, manager.resolver, files⟩

def defaultModel (manager : Manager B) : ShaderModel :=
  manager.settings.defaultModel.getD manager.device.defaultModel

end Manager

namespace World

variable {B : Backend}

def emit (world : World B) (event : Event) : World B :=
  { world with events := world.events ++ [event] }

def emitAll (world : World B) (events : List Event) : World B :=
  { world with events := world.events ++ events }

def emitIf (world : World B) (condition : Bool) (event : Event) : World B :=
  if condition then world.emit event else world

def settings? (world : World B) (manager : Nat) : Option Settings :=
  world.managers[manager]?.map Manager.settings

def modifyManager (world : World B) (manager : Nat) (change : Manager B → Manager B) : World B :=
  { world with managers := world.managers.modify manager change }

def program? (world : World B) (program : Nat) : Option (Program B) :=
  world.programs.get? program

def modifyState (world : World B) (program : Nat)
    (change : ProgramState B → ProgramState B) : World B :=
  match world.program? program with
  | some found =>
      { world with programs :=
          world.programs.insert program { found with state := change found.state } }
  | none => world

def owner? (world : World B) (version : Version B) : Option (Program B) :=
  if version.serial ∈ world.orphans then none else world.program? version.program

def isOrphaned (world : World B) (version : Version B) : Bool :=
  (world.owner? version).isNone

def cachedKernels (world : World B) (version : Version B) : List (CachedKernels B) :=
  world.kernels.filter fun cached => cached.version = version.serial

def cachedKernels? (world : World B) (version : Version B) (conformances : ConformanceList) :
    Option (Kernels B) :=
  ((world.cachedKernels version).find? fun cached => cached.conformances = conformances).map
    CachedKernels.kernels

/-- Keeps kernels for a version unless it has some for these conformances; answers the ones
that are kept. -/
def keepKernels (world : World B) (version : Version B) (conformances : ConformanceList)
    (kernels : Kernels B) : Kernels B × World B :=
  match world.cachedKernels? version conformances with
  | some kept => (kept, world)
  | none =>
      (kernels,
        { world with kernels := world.kernels ++ [⟨version.serial, conformances, kernels⟩] })

end World

end ShaderCache
