import Mathlib.Logic.Relation
import ShaderCache.Proofs.Freshness

/-!
# Interleavings

Setters, creations of programs and calls for active versions that go on at the same time. A
section under one lock is one step: a setter writes, takes a snapshot of the registry and then
resets one program after the other; a call that has to compile takes the lock of its program,
reads the settings, and compiles, commits and gives the lock back. Any number of them can be on
their way, and any of them can go next.
-/

set_option autoImplicit false

namespace ShaderCache

variable {B : Backend}

inductive Sweep where
  | written (manager : Nat)
  /-- The snapshot has been taken; `due` is what is left of its `count` programs. -/
  | resetting (manager : Nat) (due : List Nat) (count : Nat)

namespace Sweep

def manager : Sweep → Nat
  | .written manager => manager
  | .resetting manager _ _ => manager

end Sweep

/-- A call that has to compile. It holds the lock of its program. -/
structure Call where
  program : Nat
  /-- The settings, once they have been read. -/
  settings : Option Settings := none

structure Interleaved (B : Backend) where
  world : World B
  sweeps : List Sweep := []
  calls : List Call := []
  /-- What each version was compiled with, by serial number. -/
  origins : List CompileContext := []

def CompileContext.under (context : CompileContext) (settings : Settings) : CompileContext :=
  { context with settings := settings }

namespace Operation

/-- The program whose lock the operation takes for its only step. -/
def locked? : Operation → Option Nat
  | .dropProgram program => some program
  | .editProgram program _ => some program
  | .resetProgram program => some program
  | _ => none

end Operation

namespace Interleaved

def start (files : FileTree) (managers : List (Manager B)) : Interleaved B :=
  { world := World.opening files managers }

def Free (state : Interleaved B) (program : Nat) : Prop :=
  ∀ call ∈ state.calls, call.program ≠ program

/-- A program that does not need to compile: it is not dirty, or its configuration has a version. -/
def Ready (found : Program B) : Prop :=
  (∃ version, found.state.current? = some version) ∨
    ∃ version, found.state.cached? found.state.key = some version

def recorded (origins : List CompileContext) (context : CompileContext) :
    Except ProgramError (Version B) → List CompileContext
  | .ok _ => origins ++ [context]
  | .error _ => origins

inductive Step : Interleaved B → Interleaved B → Prop where
  /-- The write of a setter, which stops there if it does not have to sweep. -/
  | write {state : Interleaved B} {manager : Nat} {settings : Settings}
      (edit : World.SettingsEdit) (managed : state.world.settings? manager = some settings) :
      Step state { state with
        world := state.world.configure manager fun current => edit.apply current
        sweeps := state.sweeps ++ if edit.sweeps settings then [.written manager] else [] }
  /-- The registry is listed in any order. -/
  | snapshot {state : Interleaved B} {before after : List Sweep} {manager : Nat} {due : List Nat}
      (next : state.sweeps = before ++ .written manager :: after)
      (listed : due.Perm (state.world.registered manager)) :
      Step state { state with
        sweeps := before ++ .resetting manager due due.length :: after }
  | reset {state : Interleaved B} {before after : List Sweep} {manager program count : Nat}
      {due : List Nat}
      (next : state.sweeps = before ++ .resetting manager (program :: due) count :: after)
      (free : state.Free program) :
      Step state { state with
        world := state.world.resetProgram program
        sweeps := before ++ .resetting manager due count :: after }
  | finish {state : Interleaved B} {before after : List Sweep} {manager count : Nat}
      (next : state.sweeps = before ++ .resetting manager [] count :: after) :
      Step state { state with
        world := state.world.emit (.programsReloaded count)
        sweeps := before ++ after }
  | create {state : Interleaved B} (manager : Nat) (desc : ProgramDesc) (defines : DefineList) :
      Step state { state with
        world := (state.world.perform (.newProgram manager desc defines)).2 }
  /-- Edits, resets and drops of one program. -/
  | operate {state : Interleaved B} {operation : Operation} {program : Nat}
      (locks : operation.locked? = some program) (free : state.Free program) :
      Step state { state with world := (state.world.perform operation).2 }
  /-- A call that finds a version. -/
  | answer {state : Interleaved B} {program : Nat} {found : Program B}
      {outcome : Except ProgramError (Version B)} {next : World B} (free : state.Free program)
      (present : state.world.program? program = some found) (ready : Ready found)
      (answered : state.world.activeVersion program = some (outcome, next)) :
      Step state { state with world := next }
  /-- A call that finds none keeps the lock. -/
  | lock {state : Interleaved B} {program : Nat} {found : Program B} (free : state.Free program)
      (present : state.world.program? program = some found) (unready : ¬ Ready found) :
      Step state { state with calls := state.calls ++ [{ program := program }] }
  | read {state : Interleaved B} {before after : List Call} {program : Nat} {found : Program B}
      {settings : Settings} (next : state.calls = before ++ ⟨program, none⟩ :: after)
      (present : state.world.program? program = some found)
      (managed : state.world.settings? found.manager = some settings) :
      Step state { state with calls := before ++ ⟨program, some settings⟩ :: after }
  /-- A call compiles under the settings it has read, commits unless it fails, and gives the lock
  back. -/
  | commit {state : Interleaved B} {before after : List Call} {program : Nat} {found : Program B}
      {settings : Settings} {context : CompileContext}
      {outcome : Except ProgramError (Version B)} {next : World B}
      (compiling : state.calls = before ++ ⟨program, some settings⟩ :: after)
      (present : state.world.program? program = some found)
      (inContext : state.world.context? found.manager = some context)
      (compiled : state.world.compileActive settings program found = some (outcome, next)) :
      Step state { state with
        world := next
        calls := before ++ after
        origins := recorded state.origins (context.under settings) outcome }

/-- The states that come about from a start without programs. -/
def Reachable (files : FileTree) (managers : List (Manager B)) (state : Interleaved B) : Prop :=
  Relation.ReflTransGen Step (start files managers) state

/-! ## Steps without interruption -/

open Relation (ReflTransGen)

theorem steps_reset_all (world : World B) (before : List Sweep) (manager count : Nat)
    (origins : List CompileContext) (due : List Nat) :
    ReflTransGen Step
      (⟨world, before ++ [.resetting manager due count], [], origins⟩ : Interleaved B)
      ⟨due.foldl World.resetProgram world, before ++ [.resetting manager [] count], [],
        origins⟩ := by
  induction due generalizing world with
  | nil => exact .refl
  | cons program rest ih =>
      have first : Step
          (⟨world, before ++ [.resetting manager (program :: rest) count], [], origins⟩ :
            Interleaved B)
          ⟨world.resetProgram program, before ++ [.resetting manager rest count], [], origins⟩ :=
        .reset rfl (by simp [Free])
      exact .head first (ih (world.resetProgram program))

/-- The steps of a setter that is not interrupted make up the change of settings as a whole. -/
theorem steps_edit_settings (world : World B) (sweeps : List Sweep)
    (origins : List CompileContext) (manager : Nat) (edit : World.SettingsEdit) :
    ReflTransGen Step (⟨world, sweeps, [], origins⟩ : Interleaved B)
      ⟨world.editSettings manager edit, sweeps, [], origins⟩ := by
  cases managed : world.settings? manager with
  | none =>
      have idle : world.editSettings manager edit = world := by
        simp [World.editSettings, managed]
      rw [idle]
  | some settings =>
      let configured := world.configure manager fun current => edit.apply current
      have wrote : Step (⟨world, sweeps, [], origins⟩ : Interleaved B)
          ⟨configured, sweeps ++ if edit.sweeps settings then [.written manager] else [], [],
            origins⟩ := .write edit managed
      cases sweeping : edit.sweeps settings with
      | false =>
          have written : world.editSettings manager edit = configured := by
            simp [World.editSettings, managed, sweeping, configured]
          rw [written]
          simp only [sweeping, Bool.false_eq_true, ↓reduceIte, List.append_nil] at wrote
          exact .single wrote
      | true =>
          let due := configured.registered manager
          have swept : world.editSettings manager edit =
              (due.foldl World.resetProgram configured).emit (.programsReloaded due.length) := by
            simp [World.editSettings, managed, sweeping, World.sweep, World.reload,
              World.due_for_reset_forced, configured, due]
          rw [swept]
          simp only [sweeping, ↓reduceIte] at wrote
          have took : Step (⟨configured, sweeps ++ [.written manager], [], origins⟩ : Interleaved B)
              ⟨configured, sweeps ++ [.resetting manager due due.length], [], origins⟩ :=
            .snapshot rfl (List.Perm.refl due)
          have resets := steps_reset_all configured sweeps manager due.length origins due
          have done : Step
              (⟨due.foldl World.resetProgram configured,
                sweeps ++ [.resetting manager [] due.length], [], origins⟩ : Interleaved B)
              ⟨(due.foldl World.resetProgram configured).emit (.programsReloaded due.length),
                sweeps ++ [], [], origins⟩ := .finish rfl
          rw [List.append_nil] at done
          exact .head wrote (.head took (resets.tail done))

/-- The steps of a call that is not interrupted make up the call as a whole. -/
theorem steps_active_version {world next : World B} (sweeps : List Sweep)
    (origins : List CompileContext) {program : Nat}
    {outcome : Except ProgramError (Version B)}
    (answered : world.activeVersion program = some (outcome, next)) :
    ∃ later, ReflTransGen Step (⟨world, sweeps, [], origins⟩ : Interleaved B)
      ⟨next, sweeps, [], later⟩ := by
  cases present : world.program? program with
  | none => simp [World.active_version_absent world present] at answered
  | some found =>
      by_cases ready : Ready found
      · exact ⟨origins, .single (.answer (by simp [Free]) present ready answered)⟩
      · have unclean : found.state.current? = none := by
          by_contra clean
          exact ready (.inl (Option.ne_none_iff_exists'.mp clean))
        have missing : found.state.cached? found.state.key = none := by
          by_contra cached
          exact ready (.inr (Option.ne_none_iff_exists'.mp cached))
        have active_eq : world.activeVersion program =
            (world.settings? found.manager).bind fun settings =>
              world.compileActive settings program found := by
          simp only [World.activeVersion, present, Option.bind_eq_bind, Option.bind_some, unclean,
            missing]
        rw [active_eq] at answered
        obtain ⟨settings, managed, compiled⟩ := Option.bind_eq_some_iff.mp answered
        rw [World.settings_of_setup] at managed
        obtain ⟨setup, setupManaged, rfl⟩ := Option.map_eq_some_iff.mp managed
        have inContext : world.context? found.manager = some (setup.context world.files) := by
          simp only [World.context?, setupManaged, Option.map_some]
        have managed : world.settings? found.manager = some setup.settings := by
          rw [World.settings_of_setup, setupManaged]
          rfl
        have locked : Step (⟨world, sweeps, [], origins⟩ : Interleaved B)
            ⟨world, sweeps, [] ++ [⟨program, none⟩], origins⟩ :=
          .lock (by simp [Free]) present ready
        have took : Step (⟨world, sweeps, [] ++ [⟨program, none⟩], origins⟩ : Interleaved B)
            ⟨world, sweeps, [] ++ [⟨program, some setup.settings⟩], origins⟩ :=
          .read rfl present managed
        have committed : Step
            (⟨world, sweeps, [] ++ [⟨program, some setup.settings⟩], origins⟩ : Interleaved B)
            ⟨next, sweeps, [] ++ [],
              recorded origins ((setup.context world.files).under setup.settings) outcome⟩ :=
          .commit rfl present inContext compiled
        exact ⟨_, .head locked (.head took (.single committed))⟩

end Interleaved

end ShaderCache
