import ShaderCache.Scripted.Dispatchers
import ShaderCache.Session

/-!
# Benches

A session with the scripted backend, together with both of its dispatchers. What is reported
and recorded in it can be cleared, to tell what a single step did.
-/

set_option autoImplicit false

namespace ShaderCache.Scripted

structure Bench where
  session : Session backend
  basic : CountingDispatcher basicDispatcher
  full : CountingDispatcher fullDispatcher

namespace Bench

def start (files : FileTree) (manager : Manager backend) : Bench where
  session := { world := { files := files, managers := [manager] } }
  basic := ⟨(0 : Nat), 0⟩
  full := ⟨(0 : Nat), 0⟩

def world (bench : Bench) : World backend := bench.session.world

def withWorld (bench : Bench) (world : World backend) : Bench :=
  { bench with session := { bench.session with world := world } }

/-! ## Records -/

def forgetCalls (manager : Manager backend) : Manager backend :=
  { manager with service := { manager.service with calls := [] } }

def forget (bench : Bench) : Bench :=
  bench.withWorld { bench.world with
    events := []
    managers := bench.world.managers.map forgetCalls }

def calls (bench : Bench) : List (List Call) :=
  bench.world.managers.map fun manager => manager.service.calls

/-- The events, or only those that are no details. -/
def reports (bench : Bench) (details : Bool) : List Event :=
  bench.world.events.filter fun event => details || !event.level.isDetail

/-! ## Dispatchers -/

def dispatch (bench : Bench) (full : Bool) (creation : PipelineCreation)
    (kernels : ScriptedKernels) : Except PipelineError (Option String) × Bench :=
  if full then
    let (made, counting) := bench.full.dispatch creation kernels
    (made, { bench with full := counting })
  else
    let (made, counting) := bench.basic.dispatch creation kernels
    (made, { bench with basic := counting })

def dispatchGroup (bench : Bench) (full : Bool) (kernels : ScriptedKernels) (group : Nat) :
    Except PipelineError (Option String) × Bench :=
  if full then
    let (made, counting) := bench.full.dispatchGroup kernels group
    (made, { bench with full := counting })
  else
    let (made, counting) := bench.basic.dispatchGroup kernels group
    (made, { bench with basic := counting })

/-- Of each dispatcher the number of creation steps, and of those that made compute pipelines. -/
def dispatchCounts (bench : Bench) : List Nat :=
  [bench.basic.creationCount, bench.basic.state, bench.full.creationCount, bench.full.state]

def resetDispatchers (bench : Bench) : Bench :=
  { bench with basic := bench.basic.resetCount, full := bench.full.resetCount }

end Bench

end ShaderCache.Scripted
