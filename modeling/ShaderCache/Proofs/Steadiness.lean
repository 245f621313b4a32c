import ShaderCache.Proofs.Echo
import ShaderCache.Proofs.Resolution

/-!
# Steady backends

A backend is steady if what it answers depends only on what it is asked. Jobs then end the same
whatever the backend remembers, apart from the identifiers of versions, which are told apart from
everything else by setting them to zero.
-/

set_option autoImplicit false

namespace ShaderCache

open Backend (Offers)

/-- No call of the backend is answered differently in another state. -/
def Backend.Steady (B : Backend) : Prop :=
  ∀ {Value : Type} (service : StateM B.State Value), Offers B service →
    ∀ state other, (service state).1 = (service other).1

/-- Calls in states that are close are answered the same, and lead to states that are close. -/
def Backend.Respects (B : Backend) (close : B.State → B.State → Prop) : Prop :=
  ∀ {Value : Type} (service : StateM B.State Value), Offers B service →
    ∀ state other, close state other →
      (service state).1 = (service other).1 ∧ close (service state).2 (service other).2

/-- To a steady backend all states are close. -/
theorem Backend.Steady.respects {B : Backend} (steady : B.Steady) :
    B.Respects fun _ _ => True :=
  fun service offered state other _ => ⟨steady service offered state other, trivial⟩

theorem echo_steady : Backend.echo.Steady := by
  intro Value service offered state other
  cases offered <;> rfl

variable {B : Backend}

/-! ## Numbers left out -/

def CompiledVersion.renumbered (id : UInt64) (compiled : CompiledVersion B) : CompiledVersion B :=
  { compiled with id := id, reflection := { compiled.reflection with versionId := id } }

def LinkedKernels.renumbered (id : UInt64) (linked : LinkedKernels B) : LinkedKernels B :=
  { linked with versionId := id, reflection := { linked.reflection with versionId := id } }

def LinkInput.renumbered (id : UInt64) (input : LinkInput B) : LinkInput B :=
  { input with versionId := id }

def CompiledVersion.unnumbered (compiled : CompiledVersion B) : CompiledVersion B :=
  compiled.renumbered 0

def LinkedKernels.unnumbered (linked : LinkedKernels B) : LinkedKernels B :=
  linked.renumbered 0

/-! ## Jobs that end alike -/

namespace Job

variable {Failure Value Result Final Other : Type}

/-- Both fail in the same way, or their values are related. -/
inductive Agree (related : Value → Result → Prop) :
    Except Failure Value → Except Failure Result → Prop where
  | ok {value : Value} {result : Result} (values : related value result) :
      Agree related (.ok value) (.ok result)
  | error (failure : Failure) : Agree related (.error failure) (.error failure)

variable {close : B.State → B.State → Prop}

/-- From equal logs and states of the backend that are close, the two jobs come to such again and
agree, whichever identifiers are next. -/
def Alike (close : B.State → B.State → Prop) (related : Value → Result → Prop)
    (left : Job B Failure Value) (right : Job B Failure Result) : Prop :=
  ∀ work other, work.log = other.log → close work.service other.service →
    (left.run work).2.log = (right.run other).2.log ∧
      close (left.run work).2.service (right.run other).2.service ∧
      Agree related (left.run work).1 (right.run other).1

theorem alike_pure {related : Value → Result → Prop} {value : Value} {result : Result}
    (values : related value result) :
    Alike close related (pure value : Job B Failure Value) (pure result) :=
  fun _ _ logs states => ⟨logs, states, .ok values⟩

theorem alike_stop {related : Value → Result → Prop} (failure : Failure) :
    Alike close related (stop failure) (stop failure) := by
  intro work other logs states
  refine ⟨logs, states, ?_⟩
  change Agree related (.error (Stopped.mk failure work.log))
    (.error (Stopped.mk failure other.log))
  rw [logs]
  exact .error _

theorem alike_bind {between : Value → Result → Prop} {related : Final → Other → Prop}
    {left : Job B Failure Value} {right : Job B Failure Result}
    {next : Value → Job B Failure Final} {follow : Result → Job B Failure Other}
    (first : Alike close between left right)
    (rest : ∀ value result, between value result →
      Alike close related (next value) (follow result)) :
    Alike close related (left >>= next) (right >>= follow) := by
  intro work other logs states
  have ⟨sameLogs, closeStates, agree⟩ := first work other logs states
  rw [run_bind, run_bind]
  cases leftReached : left.run work with
  | mk leftOutcome leftWork =>
      cases rightReached : right.run other with
      | mk rightOutcome rightWork =>
          rw [leftReached, rightReached] at agree sameLogs closeStates
          cases agree with
          | ok values => exact rest _ _ values leftWork rightWork sameLogs closeStates
          | error failure => exact ⟨sameLogs, closeStates, .error failure⟩

/-- The job ends the same in states of the backend that are close. -/
def Repeats (close : B.State → B.State → Prop) (job : Job B Failure Value) : Prop :=
  Alike close Eq job job

theorem closed_repeats (respects : B.Respects close) :
    Closed fun {_ _} job => Repeats close job where
  pure _ := alike_pure rfl
  stop failure := alike_stop failure
  call service offered work other logs states := by
    obtain ⟨answer, after⟩ := respects service offered work.service other.service states
    exact ⟨logs, after, .ok answer⟩
  note text _ _ logs states := ⟨congrArg (· ++ text) logs, states, .ok rfl⟩
  bind first rest := alike_bind first fun value _ same => same ▸ rest value

/-- Which identifier is drawn may differ, and nothing else. -/
theorem alike_draw :
    Alike close (fun _ _ => True) (drawVersionId : Job B Failure UInt64) drawVersionId :=
  fun _ _ logs states => ⟨logs, states, .ok trivial⟩

/-- A property of all values that a job can end with. -/
def Yields (job : Job B Failure Value) (property : Value → Prop) : Prop :=
  ∀ work value, (job.run work).1 = .ok value → property value

theorem yields_any (job : Job B Failure Value) : Yields job fun _ => True :=
  fun _ _ _ => trivial

theorem yields_pure {value : Value} {property : Value → Prop} (fits : property value) :
    Yields (pure value : Job B Failure Value) property := by
  intro work other reached
  cases reached
  exact fits

theorem yields_bind {job : Job B Failure Value} {next : Value → Job B Failure Result}
    {between : Value → Prop} {property : Result → Prop} (first : Yields job between)
    (rest : ∀ value, between value → Yields (next value) property) :
    Yields (job >>= next) property := by
  intro work result reached
  rw [run_bind] at reached
  cases outcome : job.run work with
  | mk ended after =>
      rw [outcome] at reached
      cases ended with
      | error failure => simp at reached
      | ok value => exact rest value (first work value (by rw [outcome])) after result reached

/-- What the last step yields, the whole job does. -/
theorem yields_last {job : Job B Failure Value} {next : Value → Job B Failure Result}
    {property : Result → Prop} (rest : ∀ value, Yields (next value) property) :
    Yields (job >>= next) property :=
  yields_bind (yields_any job) fun value _ => rest value

end Job

open Job

/-! ## Compiling -/

namespace CompiledVersion

theorem alike_job {close : B.State → B.State → Prop} (respects : B.Respects close)
    (desc : ProgramDesc) (request : CompileRequest) :
    Alike close (fun one other : CompiledVersion B => one.unnumbered = other.unnumbered)
      (job desc request) (job desc request) := by
  have closed := closed_repeats respects
  apply alike_bind (closed.call _ (.compile request))
  intro output _ same
  cases same
  apply alike_bind (closed.note _)
  intro _ _ _
  cases output.program with
  | none => exact alike_stop _
  | some compiled =>
      apply alike_bind (closed.gather _ _)
      intro entryPoints _ same
      cases same
      apply alike_bind alike_draw
      intro _ _ _
      apply alike_bind (closed.compose_and_reflect _ _)
      intro handle _ same
      cases same
      exact alike_pure rfl

theorem gather_length (entries : List EntryPoint) (handles : List B.Component) :
    Yields (gather entries handles) fun gathered => gathered.length = entries.length := by
  induction entries generalizing handles with
  | nil => exact yields_pure rfl
  | cons entry rest ih =>
      cases handles with
      | nil => exact yields_last fun _ _ _ reached => nomatch reached
      | cons handle others =>
          apply yields_last
          intro own
          refine yields_bind (ih others) fun gathered length => yields_pure ?_
          simp [length]

/-- A version has a handle for every entry point of its description. -/
theorem entry_points_length (desc : ProgramDesc) (request : CompileRequest) :
    Yields (job (B := B) desc request) fun compiled =>
      compiled.entryPoints.length = desc.entryPoints.length := by
  apply yields_last
  intro output
  apply yields_last
  intro _
  cases output.program with
  | none => exact fun _ _ reached => nomatch reached
  | some compiled =>
      refine yields_bind (gather_length desc.entryPoints compiled.entryPoints) ?_
      intro _ length
      apply yields_last
      intro _
      exact yields_last fun _ => yields_pure length

end CompiledVersion

/-- What compiling answers, up to the identifier. -/
def compileContent (context : CompileContext) (desc : ProgramDesc) (description : String)
    (defines : DefineList) (work : Work B.State) : Except ProgramError (CompiledVersion B) :=
  (compileOutcome context desc description defines work).map CompiledVersion.unnumbered

theorem compile_content_steady (steady : B.Steady) (context : CompileContext)
    (desc : ProgramDesc) (description : String) (defines : DefineList) {work other : Work B.State}
    (logs : work.log = other.log) :
    compileContent context desc description defines work =
      compileContent context desc description defines other := by
  simp only [compileContent, compileOutcome]
  cases context.request desc defines with
  | error error => simp [logs]
  | ok request =>
      obtain ⟨_, _, agree⟩ :=
        CompiledVersion.alike_job steady.respects desc request work other logs trivial
      cases reached : (CompiledVersion.job desc request).run work with
      | mk outcome after =>
          cases otherReached : (CompiledVersion.job desc request).run other with
          | mk otherOutcome otherAfter =>
              rw [reached, otherReached] at agree
              cases agree with
              | ok values => simpa [reached, otherReached, Except.map] using values
              | error stopped => simp [reached, otherReached, Except.map]

/-- What a compilation came to is what it comes to from any other state of the backend. -/
theorem compile_content_of_outcome (steady : B.Steady) {context : CompileContext}
    {desc : ProgramDesc} {description : String} {defines : DefineList} {work other : Work B.State}
    (logs : work.log = other.log) {outcome : Except ProgramError (CompiledVersion B)}
    (ends : compileOutcome context desc description defines work = outcome) :
    compileContent context desc description defines other =
      outcome.map CompiledVersion.unnumbered := by
  rw [← compile_content_steady steady context desc description defines logs, compileContent, ends]

/-- What all compilations of a description yield holds of a version that came of one. -/
theorem compile_outcome_yields {context : CompileContext} {desc : ProgramDesc}
    {description : String} {defines : DefineList} {work : Work B.State}
    {compiled : CompiledVersion B} {property : CompileRequest → CompiledVersion B → Prop}
    (yields : ∀ request, Yields (CompiledVersion.job desc request) (property request))
    (makes : compileOutcome context desc description defines work = .ok compiled) :
    ∃ request, context.request desc defines = .ok request ∧ property request compiled := by
  unfold compileOutcome at makes
  cases requested : context.request desc defines with
  | error error => simp [requested] at makes
  | ok request =>
      have yielded := yields request work
      simp only [requested] at makes
      cases reached : (CompiledVersion.job desc request).run work with
      | mk outcome after =>
          rw [reached] at yielded makes
          cases outcome with
          | error failure =>
              cases failure
              simp at makes
          | ok value =>
              cases makes
              exact ⟨request, rfl, yielded compiled rfl⟩

theorem compile_outcome_entries {context : CompileContext} {desc : ProgramDesc}
    {description : String} {defines : DefineList} {work : Work B.State}
    {compiled : CompiledVersion B}
    (makes : compileOutcome context desc description defines work = .ok compiled) :
    compiled.entryPoints.length = desc.entryPoints.length := by
  obtain ⟨request, _, length⟩ :=
    compile_outcome_yields (CompiledVersion.entry_points_length desc) makes
  exact length

/-- What a link yields holds of kernels that came of it. -/
theorem link_outcome_yields {desc : ProgramDesc} {description : String}
    {conformances : ConformanceList} {input : LinkInput B} {work : Work B.State}
    {linked : LinkedKernels B} {property : LinkedKernels B → Prop}
    (yields : Yields (LinkedKernels.job desc conformances input) property)
    (makes : linkOutcome desc description conformances input work = .ok linked) :
    property linked := by
  have yielded := yields work
  unfold linkOutcome at makes
  cases reached : (LinkedKernels.job desc conformances input).run work with
  | mk outcome after =>
      rw [reached] at yielded makes
      cases outcome with
      | error failure => simp at makes
      | ok value =>
          cases makes
          exact yielded linked rfl

theorem compile_content_entries {context : CompileContext} {desc : ProgramDesc}
    {description : String} {defines : DefineList} {work : Work B.State}
    {compiled : CompiledVersion B}
    (makes : compileContent context desc description defines work = .ok compiled) :
    compiled.entryPoints.length = desc.entryPoints.length := by
  unfold compileContent at makes
  cases outcome : compileOutcome context desc description defines work with
  | error error => simp [outcome, Except.map] at makes
  | ok made =>
      rw [outcome] at makes
      cases makes
      have entries := compile_outcome_entries outcome
      exact entries

end ShaderCache
