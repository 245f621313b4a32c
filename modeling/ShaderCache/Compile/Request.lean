import ShaderCache.Config.Defines
import ShaderCache.Event
import ShaderCache.Files.Resolver
import ShaderCache.Program.Desc
import ShaderCache.Program.Device

/-!
# Compile requests

Everything the compiler has to know to compile one version of a program, made from the
description, the defines and the settings that apply to every compilation. A request is made
whole or not at all: the first file that is not found, or else the first group without a
module, is reported.
-/

set_option autoImplicit false

namespace ShaderCache

inductive FloatingPointMode where
  | default
  | fast
  | precise
  deriving DecidableEq

namespace FloatingPointMode

def identifier : FloatingPointMode → String
  | .default => "Default"
  | .fast => "Fast"
  | .precise => "Precise"

end FloatingPointMode

inductive MatrixLayout where
  | rowMajor
  | columnMajor
  deriving DecidableEq

namespace MatrixLayout

def identifier : MatrixLayout → String
  | .rowMajor => "RowMajor"
  | .columnMajor => "ColumnMajor"

end MatrixLayout

structure TranslationUnit where
  name : Option String
  sources : List ShaderSource

structure EntryPointDecl where
  translationUnit : Nat
  name : String
  stage : ShaderStage
  globalIndex : UInt32
  deriving DecidableEq

structure CompileRequest where
  searchPaths : List Path
  /-- In the order in which they are defined: later ones replace earlier ones. -/
  macros : List (String × String)
  target : Target
  profile : String
  flags : CompilerFlags
  floatingPointMode : FloatingPointMode
  matrixLayout : MatrixLayout
  debugInfo : Bool
  dumpIntermediates : Bool
  emitSpirvDirectly : Bool
  forceScalarBufferLayout : Bool
  /-- Code is generated only after type conformances have been linked in. -/
  noCodegen : Bool
  disabledDiagnostics : List Nat
  arguments : List String
  translationUnits : List TranslationUnit
  entryPoints : List EntryPointDecl

namespace CompileRequest

/-- `#pragma once` in modules, and implicit conversions. -/
def suppressedDiagnostics : List Nat := [15602, 30081]

def macroValue? (request : CompileRequest) (name : String) : Option String :=
  request.macros.reverse.lookup name

def macroPosition? (request : CompileRequest) (name : String) : Option Nat :=
  request.macros.findIdx? fun entry => entry.1 = name

end CompileRequest

/-- Settings that apply to every compilation. -/
structure Settings where
  defines : DefineList := ∅
  arguments : List String := []
  forcedFlags : ForcedFlags := .neutral
  debugInfo : Bool := false
  spirvDirect : Bool := false
  defaultModel : Option ShaderModel := none
  deriving Inhabited

/-- What a program is compiled with at one moment, apart from its own configuration. -/
structure CompileContext where
  device : Device
  settings : Settings
  resolver : SourceResolver
  files : FileTree

namespace CompileContext

def flags (context : CompileContext) (desc : ProgramDesc) : CompilerFlags :=
  context.settings.forcedFlags.apply desc.flags

def defaultModel (context : CompileContext) : ShaderModel :=
  context.settings.defaultModel.getD context.device.defaultModel

def shaderModel (context : CompileContext) (desc : ProgramDesc) : ShaderModel :=
  desc.shaderModel.getD context.defaultModel

/-- Precise wins over fast. -/
def floatingPointMode (flags : CompilerFlags) : FloatingPointMode :=
  if flags.contains .floatingPointModePrecise then .precise
  else if flags.contains .floatingPointModeFast then .fast
  else .default

def matrixLayout (flags : CompilerFlags) : MatrixLayout :=
  if flags.contains .matrixLayoutColumnMajor then .columnMajor else .rowMajor

/-- Global defines first, then those of the program, then the macros that announce the device
and the shader model. -/
def macros (context : CompileContext) (desc : ProgramDesc) (defines : DefineList) :
    List (String × String) :=
  context.settings.defines.entries ++ defines.entries ++
    [(context.device.type.macroName, "1"), ((context.shaderModel desc).macroName, "1")]

def resolve (context : CompileContext) (path : Path) : Except ConfigurationError Path :=
  (context.resolver.find context.files path).mapError .ofSourceError

def resolveSource (context : CompileContext) : ShaderSource → Except ConfigurationError ShaderSource
  | .file path => do
      let found ← context.resolve path
      .ok (.file found)
  | .code virtualPath text => .ok (.code virtualPath text)

def translationUnit (context : CompileContext) (shaderModule : ShaderModule) :
    Except ConfigurationError TranslationUnit := do
  let sources ← shaderModule.sources.mapM context.resolveSource
  .ok ⟨shaderModule.name, sources⟩

def translationUnits (context : CompileContext) (desc : ProgramDesc) :
    Except ConfigurationError (List TranslationUnit) :=
  desc.modules.mapM context.translationUnit

/-- An entry point without an index counts from its position. -/
def declareEntries (shaderModule position : Nat) : List EntryPoint → List EntryPointDecl
  | [] => []
  | entry :: rest =>
      ⟨shaderModule, entry.name, entry.stage, entry.globalIndex.getD (UInt32.ofNat position)⟩ ::
        declareEntries shaderModule (position + 1) rest

/-- Declares the entry points of the groups from number `group` on, whose first one stands at
`position`. -/
def declareGroups (moduleCount group position : Nat) :
    List EntryPointGroup → Except ConfigurationError (List EntryPointDecl)
  | [] => .ok []
  | first :: rest =>
      if first.shaderModule < moduleCount then do
        let declared := declareEntries first.shaderModule position first.entryPoints
        let others ← declareGroups moduleCount (group + 1) (position + declared.length) rest
        .ok (declared ++ others)
      else
        .error (.invalidShaderModuleIndex group first.shaderModule)

def request (context : CompileContext) (desc : ProgramDesc) (defines : DefineList) :
    Except ConfigurationError CompileRequest := do
  let flags := context.flags desc
  let translationUnits ← context.translationUnits desc
  let entryPoints ← declareGroups translationUnits.length 0 0 desc.groups
  .ok {
    searchPaths := context.resolver.searchPaths
    macros := context.macros desc defines
    target := context.device.type.target
    profile := (context.shaderModel desc).profile
    flags := flags
    floatingPointMode := floatingPointMode flags
    matrixLayout := matrixLayout flags
    debugInfo := context.settings.debugInfo || flags.contains .generateDebugInfo
    dumpIntermediates := flags.contains .dumpIntermediates
    emitSpirvDirectly := context.settings.spirvDirect
    forceScalarBufferLayout := true
    noCodegen := true
    disabledDiagnostics := CompileRequest.suppressedDiagnostics
    arguments := context.settings.arguments ++ desc.arguments
    translationUnits := translationUnits
    entryPoints := entryPoints }

def isFound (context : CompileContext) (path : Path) : Bool :=
  match context.resolve path with
  | .ok _ => true
  | .error _ => false

/-- The files that are looked up for a request: all, or those up to the first missing one. -/
def visitedFiles (context : CompileContext) (desc : ProgramDesc) : List Path :=
  let paths := desc.filePaths
  paths.takeWhile context.isFound ++ (paths.dropWhile context.isFound).take 1

/-- What is reported while a request is made, whether it can be made or not. -/
def warnings (context : CompileContext) (desc : ProgramDesc) : List Event :=
  let flags := context.flags desc
  let modes :=
    if flags.contains .floatingPointModeFast && flags.contains .floatingPointModePrecise then
      [Event.conflictingModes]
    else
      []
  let unusual := (context.visitedFiles desc).filter fun path => !hasShaderExtension path
  modes ++ unusual.map Event.unusualExtension

end CompileContext

end ShaderCache
