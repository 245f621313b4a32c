import ShaderCache.Link.Kernels

/-!
# What holds of jobs

A job works by backend calls, notes in the log and draws of version identifiers. A property of
jobs that calls and notes have, and that is kept when jobs are put together, holds of every job
without a draw, so a proof has to look only at the one draw of a compilation.
-/

set_option autoImplicit false

namespace ShaderCache

/-- The calls that a backend offers. -/
inductive Backend.Offers (B : Backend) : {Value : Type} → StateM B.State Value → Prop where
  | compile (request : CompileRequest) : Offers B (B.compile request)
  | reflect (component : B.Component) : Offers B (B.reflect component)
  | rename (component : B.Component) (name : String) : Offers B (B.rename component name)
  | findType (scope : B.Component) (name : String) : Offers B (B.findType scope name)
  | conform (type interface : B.TypeHandle) (id : UInt32) : Offers B (B.conform type interface id)
  | compose (parts : List B.Component) : Offers B (B.compose parts)
  | entryPointName (component : B.Component) : Offers B (B.entryPointName component)
  | createDeviceProgram (scope : B.Component) (entries : List B.Component) :
      Offers B (B.createDeviceProgram scope entries)

open Backend (Offers)

namespace Job

variable {B : Backend} {Failure Value Result : Type}

theorem run_bind (job : Job B Failure Value) (next : Value → Job B Failure Result)
    (work : Work B.State) :
    (job >>= next).run work =
      match job.run work with
      | (.ok value, after) => (next value).run after
      | (.error stopped, after) => (.error stopped, after) := by
  change (ExceptT.bindCont next ((job.run work).1)) ((job.run work).2) = _
  cases reached : job.run work with
  | mk outcome after => cases outcome <;> rfl

/-- A property of jobs that is kept when jobs are put together. -/
structure Closed (holds : {Failure Value : Type} → Job B Failure Value → Prop) : Prop where
  pure : ∀ {Failure Value : Type} (value : Value), holds (pure value : Job B Failure Value)
  stop : ∀ {Failure Value : Type} (failure : Failure),
    holds (stop failure : Job B Failure Value)
  call : ∀ {Failure Value : Type} (service : StateM B.State Value), Offers B service →
    holds (call service : Job B Failure Value)
  note : ∀ {Failure : Type} (text : String), holds (note text : Job B Failure Unit)
  bind : ∀ {Failure Value Result : Type} {job : Job B Failure Value}
    {next : Value → Job B Failure Result}, holds job → (∀ value, holds (next value)) →
    holds (job >>= next)

namespace Closed

variable {holds : {Failure Value : Type} → Job B Failure Value → Prop} (closed : Closed holds)

include closed

theorem fail_with (failure : Failure) (line : String) :
    holds (failWith failure line : Job B Failure Value) :=
  closed.bind (closed.note _) fun _ => closed.stop failure

theorem or_fail (failure : Failure) (line : String → String) (answer : Except String Value) :
    holds (orFail failure line answer : Job B Failure Value) := by
  cases answer with
  | ok value => exact closed.pure value
  | error reason => exact closed.fail_with failure (line reason)

theorem call_noting (service : StateM B.State (Reply Value)) (offered : Offers B service) :
    holds (callNoting service : Job B Failure (Except String Value)) :=
  closed.bind (closed.call service offered) fun reply =>
    closed.bind (closed.note reply.log) fun _ => closed.pure reply.answer

theorem map_list {Item : Type} {step : Item → Job B Failure Value} (items : List Item)
    (each : ∀ item, holds (step item)) : holds (items.mapM step) := by
  induction items with
  | nil =>
      rw [List.mapM_nil]
      exact closed.pure []
  | cons item rest ih =>
      rw [List.mapM_cons]
      exact closed.bind (each item) fun value =>
        closed.bind ih fun values => closed.pure (value :: values)

theorem compose_and_reflect (failure : Failure) (components : List B.Component) :
    holds (composeAndReflect failure components) :=
  closed.bind (closed.call_noting _ (.compose components)) fun composed =>
    closed.bind (closed.or_fail failure _ composed) fun composite =>
      closed.bind (closed.call _ (.reflect composite)) fun reflected =>
        closed.or_fail failure _ reflected

/-! ## Compiling -/

theorem exported (entry : EntryPoint) (handle : B.Component) :
    holds (CompiledVersion.exported entry handle) := by
  unfold CompiledVersion.exported
  split
  · exact closed.pure handle
  · exact closed.bind (closed.call _ (.rename handle entry.exportName)) fun renamed =>
      closed.or_fail _ _ renamed

theorem gather (entries : List EntryPoint) (handles : List B.Component) :
    holds (CompiledVersion.gather entries handles) := by
  induction entries generalizing handles with
  | nil => exact closed.pure []
  | cons entry rest ih =>
      cases handles with
      | nil => exact closed.fail_with _ _
      | cons handle others =>
          exact closed.bind (closed.exported entry handle) fun own =>
            closed.bind (ih others) fun gathered => closed.pure (own :: gathered)

/-- What also holds of the one draw holds of a compilation as a whole. -/
theorem compile (draws : ∀ {Failure : Type}, holds (drawVersionId : Job B Failure UInt64))
    (desc : ProgramDesc) (request : CompileRequest) :
    holds (CompiledVersion.job desc request) := by
  apply closed.bind (closed.call _ (.compile request))
  intro output
  apply closed.bind (closed.note output.diagnostics)
  intro _
  cases output.program with
  | none => exact closed.stop _
  | some compiled =>
      apply closed.bind (closed.gather desc.entryPoints compiled.entryPoints)
      intro entryPoints
      apply closed.bind draws
      intro id
      exact closed.bind (closed.compose_and_reflect _ _) fun handle => closed.pure _

/-! ## Linking -/

theorem conform (scope : B.Component) (entry : Conformance × UInt32) :
    holds (LinkedKernels.conform scope entry) := by
  obtain ⟨conformance, id⟩ := entry
  apply closed.bind (closed.call _ (.findType scope conformance.typeName))
  intro found
  cases found with
  | none => exact closed.fail_with _ _
  | some type =>
      apply closed.bind (closed.call _ (.findType scope conformance.interfaceName))
      intro found
      cases found with
      | none => exact closed.fail_with _ _
      | some interface =>
          exact closed.bind (closed.call_noting _ (.conform type interface id)) fun created =>
            closed.or_fail _ _ created

theorem composite (scope : B.Component) (conformances : ConformanceList) :
    holds (LinkedKernels.composite scope conformances) := by
  apply closed.bind (closed.map_list conformances.entries (closed.conform scope))
  intro parts
  split
  · exact closed.pure none
  · exact closed.bind (closed.call_noting _ (.compose parts)) fun composed =>
      closed.bind (closed.or_fail _ _ composed) fun whole => closed.pure (some whole)

theorem with_conformances (composite : Option B.Component) (entry : EntryPoint)
    (handle : B.Component) : holds (LinkedKernels.withConformances composite entry handle) := by
  cases composite with
  | none => exact closed.pure handle
  | some conformances =>
      exact closed.bind (closed.call_noting _ (.compose _)) fun composed =>
        closed.or_fail _ _ composed

theorem specialize (input : LinkInput B) (composite : Option B.Component) (entry : EntryPoint) :
    holds (LinkedKernels.specialize input composite entry) := by
  unfold LinkedKernels.specialize
  cases LinkedKernels.handleOf? input entry with
  | none => exact closed.fail_with _ _
  | some handle =>
      exact closed.bind (closed.with_conformances composite entry handle) fun specialized =>
        closed.bind (closed.call_noting _ (.compose _)) fun composed =>
          closed.bind (closed.or_fail _ _ composed) fun linked => closed.pure _

theorem specialize_groups (input : LinkInput B)
    (groups : List (EntryPointGroup × Option B.Component)) :
    holds (LinkedKernels.specializeGroups input groups) := by
  induction groups with
  | nil => exact closed.pure []
  | cons first rest ih =>
      obtain ⟨group, composite⟩ := first
      exact closed.bind (closed.map_list group.entryPoints (closed.specialize input composite))
        fun own => closed.bind ih fun others => closed.pure (own ++ others)

theorem all_group_kernels (position : Nat) (groups : List EntryPointGroup)
    (left : List (SpecializedEntry B)) :
    holds (LinkedKernels.allGroupKernels position groups left) := by
  induction groups generalizing position left with
  | nil => exact closed.pure []
  | cons first rest ih =>
      refine closed.bind ?_ fun kernels =>
        closed.bind (ih (position + 1) _) fun others => closed.pure (kernels :: others)
      unfold LinkedKernels.groupKernels
      split
      · exact closed.pure _
      · exact closed.fail_with _ _

theorem device_name (entry : SpecializedEntry B) : holds (LinkedKernels.deviceName entry) :=
  closed.bind (closed.call _ (.entryPointName entry.specialized)) fun _ => closed.pure _

/-- Linking draws no identifiers, so whatever is closed holds of it as a whole. -/
theorem link (desc : ProgramDesc) (conformances : ConformanceList) (input : LinkInput B) :
    holds (LinkedKernels.job desc conformances input) := by
  apply closed.bind (closed.map_list desc.groups fun group => closed.composite input.globalScope _)
  intro composites
  apply closed.bind (closed.specialize_groups input _)
  intro entries
  apply closed.bind (closed.compose_and_reflect _ _)
  intro handle
  apply closed.bind (closed.all_group_kernels 0 _ _)
  intro groups
  apply closed.bind (closed.map_list _ closed.device_name)
  intro named
  apply closed.bind (closed.call_noting _ (.createDeviceProgram _ _))
  intro created
  exact closed.bind (closed.or_fail _ _ created) fun program => closed.pure _

end Closed

end Job

open Job

/-! ## Identifiers -/

namespace Job

variable {B : Backend} {Failure Value Result : Type}

/-- The job leaves the sequence of identifiers where it was. -/
def DrawsNothing (job : Job B Failure Value) : Prop :=
  ∀ work, (job.run work).2.versionIds = work.versionIds

theorem closed_draws_nothing : Closed (@DrawsNothing B) where
  pure _ _ := rfl
  stop _ _ := rfl
  call _ _ _ := rfl
  note _ _ := rfl
  bind {_ _ _ job next} first rest work := by
    have before := first work
    rw [run_bind]
    cases reached : job.run work with
    | mk outcome after =>
        rw [reached] at before
        cases outcome with
        | error stopped => exact before
        | ok value => exact (rest value after).trans before

/-- What holds of the outcome of a job and the work it leaves behind. -/
def Ends (job : Job B Failure Value) (work : Work B.State)
    (post : Except (Stopped Failure) Value → Work B.State → Prop) : Prop :=
  post (job.run work).1 (job.run work).2

theorem ends_bind {job : Job B Failure Value} {next : Value → Job B Failure Result}
    {work : Work B.State} (between : Except (Stopped Failure) Value → Work B.State → Prop)
    {post : Except (Stopped Failure) Result → Work B.State → Prop} (first : Ends job work between)
    (stops : ∀ stopped after, between (.error stopped) after → post (.error stopped) after)
    (goes : ∀ value after, between (.ok value) after → Ends (next value) after post) :
    Ends (job >>= next) work post := by
  unfold Ends at first ⊢
  rw [run_bind]
  cases reached : job.run work with
  | mk outcome after =>
      rw [reached] at first
      cases outcome with
      | error stopped => exact stops stopped after first
      | ok value => exact goes value after first

end Job

def IdSequence.OneDraw (before after : IdSequence) : Prop :=
  after = before ∨ after = before.draw.2

namespace CompiledVersion

variable {B : Backend}

/-- How a compilation uses identifiers: a version carries the one that was next, and a failure
used it up or not. -/
def Draws (ids : IdSequence) :
    Except (Stopped CompileFailure) (CompiledVersion B) → Work B.State → Prop
  | .ok compiled, after => compiled.id = ids.upcoming ∧ after.versionIds = ids.draw.2
  | .error _, after => ids.OneDraw after.versionIds

/-- Only one step of a compilation draws; all others respect the identifiers. -/
theorem job_draws (desc : ProgramDesc) (request : CompileRequest) (work : Work B.State) :
    Ends (job desc request) work (Draws work.versionIds) := by
  let ids := work.versionIds
  refine ends_bind (fun _ after => after.versionIds = ids) rfl (fun _ _ => .inl) ?_
  intro output called sameCalled
  refine ends_bind (fun _ after => after.versionIds = ids) sameCalled (fun _ _ => .inl) ?_
  intro _ noted sameNoted
  cases output.program with
  | none => exact .inl sameNoted
  | some compiled =>
      have gathers := closed_draws_nothing.gather desc.entryPoints compiled.entryPoints noted
      apply ends_bind (fun _ after => after.versionIds = ids) (gathers.trans sameNoted) (fun _ _ =>
        .inl)
      intro entryPoints gathered sameGathered
      refine ends_bind (fun outcome after => outcome = .ok ids.upcoming ∧
        after.versionIds = ids.draw.2) ?_ (fun _ _ failed => nomatch failed.1) ?_
      · rw [← sameGathered]
        exact ⟨rfl, rfl⟩
      intro id drawn ⟨idEq, sameDrawn⟩
      cases idEq
      have reflects := closed_draws_nothing.compose_and_reflect CompileFailure.rejected
        (compiled.globalScope :: entryPoints) drawn
      exact ends_bind (fun _ after => after.versionIds = ids.draw.2) (reflects.trans sameDrawn)
        (fun _ _ => .inr) fun handle after sameAfter => ⟨rfl, sameAfter⟩

end CompiledVersion

end ShaderCache
