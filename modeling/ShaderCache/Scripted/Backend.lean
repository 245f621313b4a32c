import ShaderCache.Compile.Backend
import ShaderCache.Scripted.Component

/-!
# The scripted backend

A backend that compiles nothing. It puts components together as it is told, fails where its
script says so, and records what it was asked to do.
-/

set_option autoImplicit false

namespace ShaderCache.Scripted

structure Script where
  types : List String := []
  diagnostics : String := ""
  failCompile : Bool := false
  /-- How many of the declared entry points a compilation gives. -/
  maxEntryPoints : Option Nat := none
  failRename : List String := []
  failConformance : List String := []
  /-- How many compositions succeed before one fails. -/
  failComposeIn : Option Nat := none
  failReflectIn : Option Nat := none
  composeLog : String := ""
  conformanceLog : String := ""
  deviceLog : String := ""
  failDevice : Bool := false
  /-- The export names of entry points without a compiled name. -/
  anonymous : List String := []
  /-- Compiled names by export name, where they differ. -/
  compiledNames : List (String × String) := []
  deriving Inhabited

inductive Call where
  | compile (succeeded : Bool)
  | reflect (component : Component)
  | rename (component : Component) (exportName : String)
  | findType (name : String) (known : Bool)
  | conform (typeName interfaceName : String) (id : UInt32)
  | compose (parts : List Component)
  | createDeviceProgram (globalScope : Component) (entryPoints : List Component)

namespace Call

def render : Call → String
  | .compile true => "compile ok"
  | .compile false => "compile failed"
  | .reflect component => "reflect " ++ component.render
  | .rename component exportName => "rename " ++ component.render ++ " -> " ++ exportName
  | .findType name known => s!"find {name} = {known}"
  | .conform typeName interfaceName id => s!"conform {typeName}:{interfaceName}#{id.toNat}"
  | .compose parts => "compose " ++ (Component.composite parts).render
  | .createDeviceProgram globalScope entryPoints =>
      "device " ++ globalScope.render ++ " (" ++
        Text.joinWith ", " (Component.renderAll entryPoints) ++ ")"

end Call

structure State where
  script : Script := {}
  compileCount : Nat := 0
  lastRequest : Option CompileRequest := none
  calls : List Call := []

namespace State

def record (state : State) (call : Call) : State :=
  { state with calls := state.calls ++ [call] }

end State

/-- Counts down to a failure: whether it is due now, and what is left. -/
def countDown : Option Nat → Bool × Option Nat
  | none => (false, none)
  | some 0 => (true, none)
  | some (left + 1) => (false, some left)

/-- The declared entry points in the order of their global indices. -/
def declared (request : CompileRequest) : List Component :=
  let ordered := request.entryPoints.mergeSort fun earlier later =>
    earlier.globalIndex ≤ later.globalIndex
  ordered.map fun entry => .entryPoint entry.name entry.name entry.stage

def compile (request : CompileRequest) : StateM State (CompileOutput Component) := fun state =>
  let script := state.script
  let counted := { state with
    compileCount := state.compileCount + 1
    lastRequest := some request }
  if script.failCompile then
    (⟨none, script.diagnostics ++ "error: scripted compilation failure\n"⟩,
      counted.record (.compile false))
  else
    let entryPoints :=
      match script.maxEntryPoints with
      | some most => (declared request).take most
      | none => declared request
    (⟨some ⟨.globalScope counted.compileCount, entryPoints⟩, script.diagnostics⟩,
      counted.record (.compile true))

def reflect (component : Component) : StateM State (Except String Reflection) := fun state =>
  let (due, left) := countDown state.script.failReflectIn
  let recorded :=
    { state with script := { state.script with failReflectIn := left } }.record (.reflect component)
  if due then (.error "scripted reflection failure", recorded)
  else (.ok component.reflection, recorded)

def rename (component : Component) (exportName : String) :
    StateM State (Except String Component) := fun state =>
  let renamed :=
    match component with
    | .entryPoint name _ stage =>
        if name ∈ state.script.failRename then .error "scripted rename failure"
        else .ok (.entryPoint name exportName stage)
    | _ => .error "not an entry point"
  (renamed, state.record (.rename component exportName))

def findType (_scope : Component) (name : String) : StateM State (Option String) := fun state =>
  let known := decide (name ∈ state.script.types)
  (if known then some name else none, state.record (.findType name known))

def conform (typeName interfaceName : String) (id : UInt32) :
    StateM State (Reply Component) := fun state =>
  let reply :=
    if typeName ∈ state.script.failConformance then
      { answer := .error "scripted conformance failure" }
    else
      ⟨state.script.conformanceLog, .ok (.conformance typeName interfaceName id)⟩
  (reply, state.record (.conform typeName interfaceName id))

def compose (parts : List Component) : StateM State (Reply Component) := fun state =>
  let (due, left) := countDown state.script.failComposeIn
  let recorded :=
    { state with script := { state.script with failComposeIn := left } }.record (.compose parts)
  if due then ({ answer := .error "scripted composition failure" }, recorded)
  else (⟨state.script.composeLog, .ok (.composite parts)⟩, recorded)

def compiledName? (script : Script) (exportName : String) : Option String :=
  if exportName ∈ script.anonymous then none
  else some ((script.compiledNames.reverse.lookup exportName).getD exportName)

def entryPointName (component : Component) : StateM State (Option String) := fun state =>
  (component.firstName? (compiledName? state.script), state)

/-- The device program is the list of the names of its entry points. -/
def createDeviceProgram (globalScope : Component) (entryPoints : List Component) :
    StateM State (Reply (List String)) := fun state =>
  let nameOf := fun component : Component =>
    (component.firstName? (compiledName? state.script)).getD "?"
  let reply :=
    if state.script.failDevice then
      { answer := .error "device refused the program" }
    else
      ⟨state.script.deviceLog, .ok (entryPoints.map nameOf)⟩
  (reply, state.record (.createDeviceProgram globalScope entryPoints))

def backend : Backend where
  State := State
  Component := Component
  TypeHandle := String
  Reflection := Reflection
  DeviceProgram := List String
  compile := compile
  reflect := reflect
  rename := rename
  findType := findType
  conform := conform
  compose := compose
  entryPointName := entryPointName
  createDeviceProgram := createDeviceProgram

end ShaderCache.Scripted
