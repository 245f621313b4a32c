import ShaderCache.Proofs.Echo
import ShaderCache.Proofs.JobRules
import ShaderCache.Proofs.Run

/-!
# Logs of calls

A caller that compiles or links by hand passes a log. What stood in it before stays. A job that
stops takes a copy of the log along, and nothing is written after the copy was taken, so the error
brings all that the caller finds in the log, the line that tells what went wrong included.
-/

set_option autoImplicit false

namespace ShaderCache

variable {B : Backend}

/-! ## Jobs -/

namespace Job

variable {Failure Value : Type}

/-- The job only adds to the log, whether it fails or not. -/
def Appends (job : Job B Failure Value) : Prop :=
  ∀ work, ∃ written, (job.run work).2.log = work.log ++ written

theorem closed_appends : Closed (@Appends B) where
  pure _ _ := ⟨"", String.append_empty.symm⟩
  stop _ _ := ⟨"", String.append_empty.symm⟩
  call _ _ _ := ⟨"", String.append_empty.symm⟩
  note text _ := ⟨text, rfl⟩
  bind {_ _ _ job next} first rest work := by
    obtain ⟨early, before⟩ := first work
    rw [run_bind]
    cases reached : job.run work with
    | mk outcome after =>
        rw [reached] at before
        cases outcome with
        | error failure => exact ⟨early, before⟩
        | ok value =>
            obtain ⟨late, whole⟩ := rest value after
            exact ⟨early ++ late, by rw [whole, before, String.append_assoc]⟩

/-- If the job stops, the copy that it took of the log is the log that it leaves. -/
def HandsOverLog (job : Job B Failure Value) : Prop :=
  ∀ work stopped, (job.run work).1 = .error stopped → stopped.log = (job.run work).2.log

theorem closed_hands_over_log : Closed (@HandsOverLog B) where
  pure _ _ _ stops := nomatch stops
  stop failure work stopped stops := by
    cases stops
    rfl
  call _ _ _ _ stops := nomatch stops
  note _ _ _ stops := nomatch stops
  bind {_ _ _ job next} first rest work stopped := by
    have before := first work stopped
    rw [run_bind]
    cases reached : job.run work with
    | mk outcome after =>
        rw [reached] at before
        cases outcome with
        | error earlier =>
            intro stops
            cases stops
            exact before rfl
        | ok value => exact rest value after stopped

theorem appends_draw : Appends (drawVersionId : Job B Failure UInt64) :=
  fun _ => ⟨"", String.append_empty.symm⟩

/-- What is noted of a first answer stands before all that comes later. -/
theorem log_of_first_note {Answer : Type} (service : StateM B.State Answer)
    (text : Answer → String) {next : Answer → Job B Failure Value}
    (appends : ∀ answer, Appends (next answer)) (work : Work B.State) :
    let job : Job B Failure Value := call service >>= fun answer =>
      note (text answer) >>= fun _ => next answer
    ∃ rest, (job.run work).2.log = work.log ++ (text (service work.service).1 ++ rest) := by
  intro job
  let answered := service work.service
  let noted : Work B.State :=
    { work with service := answered.2, log := work.log ++ text answered.1 }
  have run_eq : job.run work = (next answered.1).run noted := rfl
  obtain ⟨rest, later⟩ := appends answered.1 noted
  exact ⟨rest, by rw [run_eq, later, String.append_assoc]⟩

end Job

open Job (Appends closed_appends closed_hands_over_log)

/-- The diagnostics of the compiler are the first that a compilation writes, also if there is no
program. -/
theorem CompiledVersion.job_log (desc : ProgramDesc) (request : CompileRequest)
    (work : Work B.State) :
    let diagnostics := (B.compile request work.service).1.diagnostics
    ∃ rest, ((job desc request).run work).2.log = work.log ++ (diagnostics ++ rest) := by
  refine Job.log_of_first_note (B.compile request) CompileOutput.diagnostics ?_ work
  intro output
  cases output.program with
  | none => exact closed_appends.stop CompileFailure.rejected
  | some compiled =>
      refine closed_appends.bind (closed_appends.gather desc.entryPoints compiled.entryPoints) ?_
      intro entryPoints
      refine closed_appends.bind Job.appends_draw fun id => ?_
      exact closed_appends.bind (closed_appends.compose_and_reflect _ _) fun handle =>
        closed_appends.pure _

theorem CompiledVersion.job_hands_over_log (desc : ProgramDesc) (request : CompileRequest) :
    Job.HandsOverLog (job (B := B) desc request) :=
  closed_hands_over_log.compile (fun _ _ stops => nomatch stops) desc request

/-! ## Calls -/

/-- What a caller that passed a log can rely on. -/
structure Logged.Continues {Value : Type} (log : String) (logged : Logged Value) : Prop where
  grows : ∃ written, logged.log = log ++ written
  carried : ∀ error text, logged.outcome = .error error → error.log? = some text →
    text = logged.log
  /-- Errors that carry no log come before anything is written. -/
  unwritten : logged.outcome = .error .orphaned ∨ logged.outcome = .error .versionMismatch →
    logged.log = log

theorem Logged.continues_of_carried {Value : Type} {log : String} {logged : Logged Value}
    (grows : ∃ written, logged.log = log ++ written)
    (carried : ∀ error, logged.outcome = .error error → error.log? = some logged.log) :
    logged.Continues log where
  grows := grows
  carried error text failed held := Option.some.inj (held.symm.trans (carried error failed))
  unwritten early := by
    rcases early with orphaned | mismatch
    · exact nomatch carried _ orphaned
    · exact nomatch carried _ mismatch

/-- A call that gives up at once. -/
theorem Logged.continues_at_once {Value : Type} {log : String} {error : ProgramError}
    (silent : error.log? = none) : (⟨log, .error error⟩ : Logged Value).Continues log where
  grows := ⟨"", String.append_empty.symm⟩
  carried other text failed held := by
    obtain rfl : error = other := Except.error.inj failed
    simp [silent] at held
  unwritten _ := rfl

theorem LinkFailure.to_error_log (failure : LinkFailure) (program log : String) :
    (failure.toError program log).log? = some log := by
  cases failure <;> rfl

namespace World

variable (world : World B)

theorem compile_in_logs (context : CompileContext) (service : B.State) (manager serial : Nat)
    (program : Program B) (defines : DefineList) (log : String) :
    let logged := (world.compileIn context service manager serial program defines log).1
    logged.Continues log ∧ ∀ request, context.request program.desc defines = .ok request →
      ∃ rest, logged.log = log ++ ((B.compile request service).1.diagnostics ++ rest) := by
  simp only [compileIn]
  split
  next error refused =>
    refine ⟨Logged.continues_of_carried ⟨error.message ++ "\n", String.append_assoc ..⟩ ?_,
      fun request made => nomatch refused.symm.trans made⟩
    rintro _ ⟨⟩
    rfl
  next request made =>
    let start : Work B.State := ⟨service, log, world.versionIds⟩
    obtain ⟨rest, whole⟩ := CompiledVersion.job_log program.desc request start
    have handsOver := CompiledVersion.job_hands_over_log program.desc request start
    generalize (CompiledVersion.job program.desc request).run start = reached
      at whole handsOver ⊢
    obtain ⟨outcome, work⟩ := reached
    have reachedCompiler : ∀ other, context.request program.desc defines = .ok other →
        ∃ rest, work.log = log ++ ((B.compile other service).1.diagnostics ++ rest) := by
      intro other same
      obtain rfl := Except.ok.inj (made.symm.trans same)
      exact ⟨rest, whole⟩
    cases outcome with
    | error stopped =>
        have written : stopped.log = work.log := handsOver stopped rfl
        obtain ⟨⟨⟩, log⟩ := stopped
        refine ⟨Logged.continues_of_carried ⟨_, whole⟩ ?_, reachedCompiler⟩
        rintro _ ⟨⟩
        exact congrArg some written
    | ok compiled =>
        exact ⟨Logged.continues_of_carried ⟨_, whole⟩ (fun _ failed => nomatch failed),
          reachedCompiler⟩

theorem link_in_logs (service : B.State) (manager : Nat) (program : Program B)
    (conformances : ConformanceList) (version : Version B) (log : String) :
    (world.linkIn service manager program conformances version log).1.Continues log := by
  simp only [linkIn]
  let start : Work B.State := ⟨service, log, world.versionIds⟩
  obtain ⟨written, whole⟩ :=
    closed_appends.link program.desc conformances version.linkInput start
  have handsOver :=
    closed_hands_over_log.link program.desc conformances version.linkInput start
  generalize (LinkedKernels.job program.desc conformances version.linkInput).run start = reached
    at whole handsOver ⊢
  obtain ⟨outcome, work⟩ := reached
  cases outcome with
  | error stopped =>
      refine Logged.continues_of_carried ⟨written, whole⟩ ?_
      rintro _ ⟨⟩
      rw [LinkFailure.to_error_log, handsOver stopped rfl]
  | ok linked =>
      exact Logged.continues_of_carried ⟨written, whole⟩ fun _ failed => nomatch failed

/-- A call that compiles or links leaves what stood in the log, and an error that carries a log
carries the whole one. If there is a request for the compiler, its diagnostics come first of what
is new. A version without an owner or of another program leaves the log alone. -/
theorem calls_continue_log {manager program : Nat} {managed : Manager B} {found : Program B}
    (managedBy : world.managers[manager]? = some managed)
    (present : world.program? program = some found) (log : String) :
    (∃ logged next, world.createVersion manager program log = some (logged, next) ∧
      logged.Continues log ∧
      ∀ request, (managed.context world.files).request found.desc found.state.defines =
          .ok request →
        ∃ rest, logged.log = log ++ ((B.compile request managed.service).1.diagnostics ++ rest)) ∧
    ∀ version, ∃ logged next,
      world.createKernels manager program version log = some (logged, next) ∧
        logged.Continues log := by
  constructor
  · have version_eq : world.createVersion manager program log =
        some (world.compileIn (managed.context world.files) managed.service manager program found
          found.state.defines log) := by
      simp [createVersion, compileUnder, settings?, present, managedBy, Manager.context]
    exact ⟨_, _, version_eq, world.compile_in_logs _ _ _ _ _ _ _⟩
  · intro version
    cases owned : world.owner? version with
    | none =>
        refine ⟨⟨log, .error .orphaned⟩, world, ?_, Logged.continues_at_once rfl⟩
        simp [createKernels, present, owned]
    | some owner =>
        by_cases own : version.program = program
        · have kernels_eq : world.createKernels manager program version log =
              some (world.linkIn managed.service manager owner owner.state.conformances version
                log) := by
            simp [createKernels, link, present, owned, own, managedBy]
          exact ⟨_, _, kernels_eq, world.link_in_logs _ _ _ _ _ _⟩
        · refine ⟨⟨log, .error .versionMismatch⟩, world, ?_, Logged.continues_at_once rfl⟩
          simp [createKernels, present, owned, own]

/-- The compiler rejects a program, with a log that was begun earlier. -/
theorem calls_continue_log_when_rejected :
    let world := (opening {} [Manager.echo]).run
      [.newProgram 0 .oneKernel (.ofList [("BROKEN", "1")])]
    ∃ logged next error rest, world.createVersion 0 0 "Before.\n" = some (logged, next) ∧
      logged.outcome = .error error ∧ error.log? = some logged.log ∧
      logged.log = "Before.\n" ++ ("Rejected.\n" ++ rest) := by
  intro world
  have requested : (world.managers[0]?.bind fun managed => (world.program? 0).bind fun found =>
      match (managed.context world.files).request found.desc found.state.defines with
      | .ok request => some (Backend.echo.compile request managed.service).1.diagnostics
      | .error _ => none) = some "Rejected.\n" := by
    decide +kernel
  have rejected : ((world.createVersion 0 0 "Before.\n").bind fun answer =>
      match answer.1.outcome with
      | .ok _ => none
      | .error error => error.log?).isSome = true := by
    decide +kernel
  obtain ⟨managed, managedBy, requested⟩ := Option.bind_eq_some_iff.mp requested
  obtain ⟨found, present, requested⟩ := Option.bind_eq_some_iff.mp requested
  obtain ⟨⟨logged, next, version_eq, continues, reaches⟩, _⟩ :=
    world.calls_continue_log managedBy present "Before.\n"
  simp only [version_eq, Option.bind_some] at rejected
  split at requested
  next request made =>
    obtain ⟨rest, whole⟩ := reaches request made
    rw [Option.some.inj requested] at whole
    split at rejected
    next => simp at rejected
    next error failed =>
      obtain ⟨text, held⟩ := Option.isSome_iff_exists.mp rejected
      exact ⟨logged, next, error, rest, version_eq, failed,
        continues.carried error text failed held ▸ held, whole⟩
  next => simp at requested

end World

end ShaderCache
