import ShaderCache.Compile.Backend
import ShaderCache.IdSequence

/-!
# Jobs

The computations that compile and link. A job calls the backend, writes to a log that is
only ever added to, and draws version identifiers; all of that stays done when the job
stops. Where it stops, it takes a copy of the log along with the cause.
-/

set_option autoImplicit false

namespace ShaderCache

structure Work (State : Type) where
  service : State
  log : String
  versionIds : IdSequence

/-- Why a job stopped, and the log as it stood then. -/
structure Stopped (Failure : Type) where
  cause : Failure
  log : String

abbrev Job (B : Backend) (Failure : Type) : Type → Type :=
  ExceptT (Stopped Failure) (StateM (Work B.State))

namespace Job

variable {B : Backend} {Failure α : Type}

def call (service : StateM B.State α) : Job B Failure α := fun work =>
  let (answer, state) := service work.service
  (.ok answer, { work with service := state })

def note (text : String) : Job B Failure Unit := fun work =>
  (.ok (), { work with log := work.log ++ text })

def drawVersionId : Job B Failure UInt64 := fun work =>
  let (id, ids) := work.versionIds.draw
  (.ok id, { work with versionIds := ids })

def stop (failure : Failure) : Job B Failure α := fun work =>
  (.error ⟨failure, work.log⟩, work)

/-- Stops with a last line in the log. -/
def failWith (failure : Failure) (line : String) : Job B Failure α := do
  note (line ++ "\n")
  stop failure

/-- The answer of the backend; if there is none, stops with a line that tells why. -/
def orFail (failure : Failure) (line : String → String) : Except String α → Job B Failure α
  | .ok answer => pure answer
  | .error reason => failWith failure (line reason)

/-- Calls a service that writes diagnostics, and keeps them. -/
def callNoting (service : StateM B.State (Reply α)) : Job B Failure (Except String α) := do
  let reply ← call service
  note reply.log
  return reply.answer

/-- Composes components and reflects the composite. -/
def composeAndReflect (failure : Failure) (components : List B.Component) :
    Job B Failure B.Reflection := do
  let composed ← callNoting (B.compose components)
  let composite ← orFail failure
    (fun reason => s!"Creating composite component failed: {reason}") composed
  let reflected ← call (B.reflect composite)
  orFail failure (fun reason => s!"Reflecting program failed: {reason}") reflected

end Job

end ShaderCache
