import ShaderCache.Compile.Version
import ShaderCache.Config.Key

/-!
# The state of a program

Its live configuration and the versions compiled so far. A change of the configuration only
marks the program dirty; the versions stay, so that going back to an earlier configuration
finds its version again.
-/

set_option autoImplicit false

namespace ShaderCache

/-- A compiled version. Versions are the same object exactly when their serial numbers agree. -/
structure Version (B : Backend) where
  serial : Nat
  program : Nat
  name : String
  defines : DefineList
  compiled : CompiledVersion B

namespace Version

variable {B : Backend}

def id (version : Version B) : UInt64 := version.compiled.id

end Version

structure ProgramState (B : Backend) where
  defines : DefineList
  conformances : ConformanceList
  /-- The cached versions have to be consulted before the active one can be used. -/
  dirty : Bool := true
  active : Option (Version B) := none
  /-- The versions by the configuration they were compiled for. -/
  versions : List (ProgramKey × Version B) := []
  /-- Every version made for the program's own use, for orphaning them. -/
  produced : List (Version B) := []

namespace ProgramState

variable {B : Backend}

def key (state : ProgramState B) : ProgramKey :=
  ⟨state.defines, state.conformances⟩

/-! ## Changes of the configuration -/

/-- Takes over new defines; the program gets dirty if they are said to have changed. -/
def withDefines (state : ProgramState B) (edit : Bool × DefineList) : Bool × ProgramState B :=
  let (changed, defines) := edit
  (changed, { state with defines := defines, dirty := state.dirty || changed })

def withConformances (state : ProgramState B) (edit : Bool × ConformanceList) :
    Bool × ProgramState B :=
  let (changed, conformances) := edit
  (changed, { state with conformances := conformances, dirty := state.dirty || changed })

def addDefine (state : ProgramState B) (name value : String) : Bool × ProgramState B :=
  state.withDefines (state.defines.add name value)

def addDefines (state : ProgramState B) (defines : DefineList) : Bool × ProgramState B :=
  state.withDefines (state.defines.addAll defines)

def removeDefine (state : ProgramState B) (name : String) : Bool × ProgramState B :=
  state.withDefines (state.defines.remove name)

def removeDefines (state : ProgramState B) (defines : DefineList) : Bool × ProgramState B :=
  state.withDefines (state.defines.removeAll defines)

def removeDefinesMatching (state : ProgramState B) (position length : UInt64) (text : String) :
    Bool × ProgramState B :=
  state.withDefines (state.defines.removeMatching position length text)

def setDefines (state : ProgramState B) (defines : DefineList) : Bool × ProgramState B :=
  state.withDefines (state.defines ≠ defines, defines)

/-- A pair that is configured already keeps its number. -/
def addConformance (state : ProgramState B) (typeName interfaceName : String) (id : UInt32) :
    Bool × ProgramState B :=
  if state.conformances.contains ⟨typeName, interfaceName⟩ then
    (false, state)
  else
    state.withConformances (true, state.conformances.add typeName interfaceName id)

def removeConformance (state : ProgramState B) (typeName interfaceName : String) :
    Bool × ProgramState B :=
  state.withConformances (state.conformances.remove typeName interfaceName)

def setConformances (state : ProgramState B) (conformances : ConformanceList) :
    Bool × ProgramState B :=
  state.withConformances (state.conformances ≠ conformances, conformances)

inductive Edit where
  | addDefine (name value : String)
  | addDefines (defines : DefineList)
  | removeDefine (name : String)
  | removeDefines (defines : DefineList)
  | removeDefinesMatching (position length : UInt64) (text : String)
  | setDefines (defines : DefineList)
  | addConformance (typeName interfaceName : String) (id : UInt32)
  | removeConformance (typeName interfaceName : String)
  | setConformances (conformances : ConformanceList)

/-- Makes a change; tells whether the configuration is a different one now. -/
def edit (state : ProgramState B) : Edit → Bool × ProgramState B
  | .addDefine name value => state.addDefine name value
  | .addDefines defines => state.addDefines defines
  | .removeDefine name => state.removeDefine name
  | .removeDefines defines => state.removeDefines defines
  | .removeDefinesMatching position length text =>
      state.removeDefinesMatching position length text
  | .setDefines defines => state.setDefines defines
  | .addConformance typeName interfaceName id => state.addConformance typeName interfaceName id
  | .removeConformance typeName interfaceName => state.removeConformance typeName interfaceName
  | .setConformances conformances => state.setConformances conformances

/-! ## Versions -/

/-- The active version, if nothing has changed since it became active. -/
def current? (state : ProgramState B) : Option (Version B) :=
  if state.dirty then none else state.active

def cached? (state : ProgramState B) (key : ProgramKey) : Option (Version B) :=
  state.versions.lookup key

def hasCachedState (state : ProgramState B) : Bool :=
  state.active.isSome || !state.versions.isEmpty

def adopt (state : ProgramState B) (version : Version B) : ProgramState B :=
  { state with active := some version, dirty := false }

def commit (state : ProgramState B) (key : ProgramKey) (version : Version B) : ProgramState B :=
  { state with
    active := some version
    dirty := false
    versions := state.versions.filter (fun entry => entry.1 ≠ key) ++ [(key, version)]
    produced := state.produced ++ [version] }

def reset (state : ProgramState B) : ProgramState B :=
  { state with active := none, versions := [], dirty := true }

end ProgramState

end ShaderCache
