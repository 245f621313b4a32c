import ShaderCache.World.Kernels
import ShaderCache.World.Programs

/-!
# Sessions

Programs by the names a user gave them, and versions and kernels by the numbers under which
they were first handed out. The same object always has the same number. A version can be let
go of; when it is handed out again it is held again.
-/

set_option autoImplicit false

namespace ShaderCache

structure Session (B : Backend) where
  world : World B
  names : SortedMap String Nat := ∅
  /-- The versions handed out so far, and whether they are held. -/
  versions : List (Version B × Bool) := []
  kernels : List (Kernels B) := []

namespace Session

variable {B : Backend}

/-! ## Programs -/

def program? (session : Session B) (name : String) : Option (Nat × Program B) := do
  let serial ← session.names.get? name
  let program ← session.world.program? serial
  some (serial, program)

def dropWorldProgram (world : World B) (serial : Nat) : World B :=
  (world.dropProgram serial).getD world

/-- A program that had the name is dropped after the new one was made. -/
def newProgram (session : Session B) (name : String) (manager : Nat) (desc : ProgramDesc)
    (defines : DefineList) : Option (Session B) := do
  let (serial, made) ← session.world.newProgram manager desc defines
  let world :=
    match session.names.get? name with
    | some former => dropWorldProgram made former
    | none => made
  some { session with world := world, names := session.names.insert name serial }

/-- Tells whether there was a program of that name. -/
def dropProgram (session : Session B) (name : String) : Bool × Session B :=
  match session.names.get? name with
  | some serial =>
      (true,
        { session with
          world := dropWorldProgram session.world serial
          names := session.names.erase name })
  | none => (false, session)

/-! ## Versions -/

def handOutVersion (session : Session B) (version : Version B) : Nat × Session B :=
  match session.versions.findIdx? fun entry => entry.1.serial = version.serial with
  | some number =>
      (number, { session with versions := session.versions.set number (version, true) })
  | none =>
      (session.versions.length,
        { session with versions := session.versions ++ [(version, true)] })

def version? (session : Session B) (number : Nat) : Option (Version B) :=
  match session.versions[number]? with
  | some (version, held) => if held then some version else none
  | none => none

/-- Lets go of a version; tells whether it was held. -/
def dropVersion (session : Session B) (number : Nat) : Bool × Session B :=
  match session.version? number with
  | some version =>
      (true, { session with versions := session.versions.set number (version, false) })
  | none => (false, session)

/-! ## Kernels -/

def handOutKernels (session : Session B) (kernels : Kernels B) : Nat × Session B :=
  match session.kernels.findIdx? fun known => known.serial = kernels.serial with
  | some number => (number, session)
  | none => (session.kernels.length, { session with kernels := session.kernels ++ [kernels] })

def kernels? (session : Session B) (number : Nat) : Option (Kernels B) :=
  session.kernels[number]?

end Session

end ShaderCache
