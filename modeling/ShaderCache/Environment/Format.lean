import ShaderCache.Environment.Basic
import ShaderCache.Yaml.Access
import ShaderCache.Yaml.Grammar
import ShaderCache.Yaml.Layout

/-!
# Environments as YAML

An environment is a mapping with a fixed set of fields. All of them are written; when it is
read, a missing field has its default and an unknown one is ignored.
-/

set_option autoImplicit false

namespace ShaderCache

open Yaml

namespace ForcedFlagNames

def ofNode? (document : Document) (node : Node) : Option ForcedFlagNames := do
  let fields ← document.fields? ["enabled", "disabled"] node
  let enabled ← Document.field? fields "enabled" [] document.texts?
  let disabled ← Document.field? fields "disabled" [] document.texts?
  some ⟨enabled, disabled⟩

def toValue (names : ForcedFlagNames) : Value :=
  .table [("enabled", .texts names.enabled), ("disabled", .texts names.disabled)]

end ForcedFlagNames

namespace Environment

def fieldNames : List String :=
  ["shaderPath", "globalDefines", "globalCompilerArguments", "forcedFlags", "generateDebugInfo",
    "spirvDirect", "shaderModel"]

def ofNode? (document : Document) (node : Node) : Option Environment := do
  let fields ← document.fields? fieldNames node
  let shaderPath ← Document.field? fields "shaderPath" [] document.texts?
  let defines ← Document.field? fields "globalDefines" [] document.textEntries?
  let arguments ← Document.field? fields "globalCompilerArguments" [] document.texts?
  let forcedFlags ←
    Document.field? fields "forcedFlags" {} (ForcedFlagNames.ofNode? document)
  let debugInfo ← Document.field? fields "generateDebugInfo" false document.truth?
  let spirvDirect ← Document.field? fields "spirvDirect" false document.truth?
  let shaderModel ← Document.field? fields "shaderModel" none document.optionalText?
  some {
    shaderPath := shaderPath.map Path.mk
    globalDefines := .ofList defines
    globalCompilerArguments := arguments
    forcedFlags := forcedFlags
    generateDebugInfo := debugInfo
    spirvDirect := spirvDirect
    shaderModel := shaderModel }

/-- The environment that a YAML stream describes, which has to be UTF-8. -/
def ofYaml? (bytes : List UInt8) : Option Environment := do
  let text ← Text.ofUtf8? bytes
  let document ← document? text
  ofNode? document document.root

def textOrNull : Option String → Value
  | some text => .text text
  | none => .null

def fieldValues (environment : Environment) : List (String × Value) :=
  [("shaderPath", .texts (environment.shaderPath.map Path.text)),
    ("globalDefines",
      .table (environment.globalDefines.entries.map fun (name, value) => (name, .text value))),
    ("globalCompilerArguments", .texts environment.globalCompilerArguments),
    ("forcedFlags", environment.forcedFlags.toValue),
    ("generateDebugInfo", .bool environment.generateDebugInfo),
    ("spirvDirect", .bool environment.spirvDirect),
    ("shaderModel", textOrNull environment.shaderModel)]

def toYaml (environment : Environment) : List UInt8 :=
  Text.utf8 (renderDocument environment.fieldValues)

/-- Whether an equal environment is read from what is written. -/
def isRestored (environment : Environment) : Bool :=
  match ofYaml? environment.toYaml with
  | some read => read == environment
  | none => false

end Environment

end ShaderCache
