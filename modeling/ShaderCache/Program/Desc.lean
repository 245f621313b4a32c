import ShaderCache.Config.Conformances
import ShaderCache.Files.Path
import ShaderCache.Program.CompilerFlags
import ShaderCache.Program.ShaderModel
import ShaderCache.Program.Stage

/-!
# Descriptions of programs

What a program is made of: modules of source code, and entry points in groups that are
linked together. Finalizing a description numbers its entry points through, group by group.
-/

set_option autoImplicit false

namespace ShaderCache

inductive ShaderSource where
  /-- A file that is looked up in the search directories. -/
  | file (path : Path)
  /-- Code at hand, compiled as if it came from `virtualPath`. -/
  | code (virtualPath : Path) (text : String)
  deriving BEq, Inhabited

namespace ShaderSource

def isFile : ShaderSource → Bool
  | .file _ => true
  | .code _ _ => false

def filePath? : ShaderSource → Option Path
  | .file path => some path
  | .code _ _ => none

def label : ShaderSource → String
  | .file path => path.text
  | .code _ _ => "<string>"

end ShaderSource

/-- A translation unit. The compiler chooses the name if there is none. -/
structure ShaderModule where
  name : Option String := none
  sources : List ShaderSource := []
  deriving BEq, Inhabited

namespace ShaderModule

def ofFile (path : Path) : ShaderModule := ⟨none, [.file path]⟩

def ofCode (text : String) (virtualPath : Path) : ShaderModule := ⟨none, [.code virtualPath text]⟩

end ShaderModule

structure EntryPoint where
  stage : ShaderStage
  name : String
  /-- The name in the generated code; it tells several uses of one function apart. -/
  exportName : String
  /-- The position among all entry points of the program. -/
  globalIndex : Option UInt32 := none
  deriving DecidableEq, Inhabited

/-- Entry points of one module that are linked together. -/
structure EntryPointGroup where
  shaderModule : Nat
  conformances : ConformanceList := ∅
  entryPoints : List EntryPoint := []
  deriving DecidableEq, Inhabited

namespace EntryPointGroup

def addEntryPoint (group : EntryPointGroup) (stage : ShaderStage) (name exportName : String) :
    EntryPointGroup :=
  { group with entryPoints := group.entryPoints ++ [⟨stage, name, exportName, none⟩] }

def addConformance (group : EntryPointGroup) (typeName interfaceName : String) (id : UInt32) :
    EntryPointGroup :=
  { group with conformances := group.conformances.add typeName interfaceName id }

/-- The kind of pipeline that all entry points of the group at `position` belong to. -/
def kind (position : Nat) (group : EntryPointGroup) : Except ConfigurationError PipelineKind :=
  match group.entryPoints with
  | [] => .error (.emptyEntryPointGroup position)
  | first :: _ =>
      let kind := PipelineKind.ofStage first.stage
      if group.entryPoints.any fun entry => PipelineKind.ofStage entry.stage ≠ kind then
        .error (.mixedStageGroup position)
      else
        .ok kind

end EntryPointGroup

structure ProgramDesc where
  modules : List ShaderModule := []
  groups : List EntryPointGroup := []
  conformances : ConformanceList := ∅
  /-- The default of the manager is used if there is none. -/
  shaderModel : Option ShaderModel := none
  flags : CompilerFlags := .empty
  arguments : List String := []
  deriving BEq, Inhabited

namespace ProgramDesc

def addModule (desc : ProgramDesc) (shaderModule : ShaderModule) : ProgramDesc :=
  { desc with modules := desc.modules ++ [shaderModule] }

def addModules (desc : ProgramDesc) (modules : List ShaderModule) : ProgramDesc :=
  { desc with modules := desc.modules ++ modules }

/-- Opens a group of entry points of the given module. -/
def addGroup (desc : ProgramDesc) (shaderModule : Nat) : ProgramDesc :=
  { desc with groups := desc.groups ++ [⟨shaderModule, ∅, []⟩] }

/-- Adds a module of one file and opens a group for it. -/
def addLibrary (desc : ProgramDesc) (path : Path) : ProgramDesc :=
  (desc.addModule (.ofFile path)).addGroup desc.modules.length

def addConformances (desc : ProgramDesc) (conformances : ConformanceList) : ProgramDesc :=
  { desc with conformances := desc.conformances.addAll conformances }

def addArguments (desc : ProgramDesc) (arguments : List String) : ProgramDesc :=
  { desc with arguments := desc.arguments ++ arguments }

def modifyGroup (desc : ProgramDesc) (position : Nat)
    (change : EntryPointGroup → EntryPointGroup) : ProgramDesc :=
  { desc with groups := desc.groups.modify position change }

def setGlobalIndex (desc : ProgramDesc) (group position : Nat) (index : Option UInt32) :
    ProgramDesc :=
  desc.modifyGroup group fun found =>
    { found with entryPoints :=
        found.entryPoints.modify position fun entry => { entry with globalIndex := index } }

def entryPoints (desc : ProgramDesc) : List EntryPoint :=
  desc.groups.flatMap EntryPointGroup.entryPoints

def entryPointCount (desc : ProgramDesc) : Nat :=
  desc.entryPoints.length

def hasStage (desc : ProgramDesc) (stage : ShaderStage) : Bool :=
  desc.entryPoints.any fun entry => entry.stage = stage

def entryPoint? (desc : ProgramDesc) (index : UInt32) : Option EntryPoint :=
  desc.entryPoints.find? fun entry => entry.globalIndex = some index

def filePaths (desc : ProgramDesc) : List Path :=
  desc.modules.flatMap fun shaderModule => shaderModule.sources.filterMap ShaderSource.filePath?

/-! ## Numbering -/

/-- Numbers entry points through from `next` on; tells the number after the last one. -/
def numberEntries (next : UInt32) : List EntryPoint → List EntryPoint × UInt32
  | [] => ([], next)
  | entry :: rest =>
      let (numbered, after) := numberEntries (next + 1) rest
      ({ entry with globalIndex := some next } :: numbered, after)

def numberGroups (next : UInt32) : List EntryPointGroup → List EntryPointGroup
  | [] => []
  | group :: rest =>
      let (numbered, after) := numberEntries next group.entryPoints
      { group with entryPoints := numbered } :: numberGroups after rest

/-- Gives every entry point its position as global index. -/
def finalize (desc : ProgramDesc) : ProgramDesc :=
  { desc with groups := numberGroups 0 desc.groups }

def isNumberedFrom (next : UInt32) : List EntryPoint → Bool
  | [] => true
  | entry :: rest => entry.globalIndex = some next && isNumberedFrom (next + 1) rest

def isFinalized (desc : ProgramDesc) : Bool :=
  isNumberedFrom 0 desc.entryPoints

/-! ## Text -/

def describe (desc : ProgramDesc) : String :=
  let sources := desc.modules.flatMap fun shaderModule =>
    shaderModule.sources.map fun source => source.label ++ " "
  let names := desc.entryPoints.map EntryPoint.exportName
  String.join sources ++ "(" ++ Text.joinWith ", " names ++ ")"

end ProgramDesc

end ShaderCache
