import Mathlib.Data.List.Pairwise
import ShaderCache.Proofs.LinkChecks
import ShaderCache.Scripted.Backend
import ShaderCache.World.Kernels

/-!
# The first failure of linking

Linking makes its checks one after the other and stops at the first one that fails, with the error
of that check.
-/

set_option autoImplicit false

namespace ShaderCache

variable {B : Backend}

open LinkCheck (attempt perform)

/-! ## Jobs that make checks -/

namespace Job

variable {Value Result : Type}

/-- The job ends where the checks end, with the failure of the same check and the log as it is, or
with a value that is related to what is at hand. -/
inductive EndsWith (related : Value → LinkProgress B → Prop) :
    Except LinkCheck (LinkProgress B) × B.State →
      Except (Stopped LinkFailure) Value × Work B.State → Prop where
  | passed {progress : LinkProgress B} {value : Value} (work : Work B.State)
      (values : related value progress) :
      EndsWith related (.ok progress, work.service) (.ok value, work)
  | failed {check : LinkCheck} (work : Work B.State) :
      EndsWith related (.error check, work.service) (.error ⟨check.failure, work.log⟩, work)

section Ends

variable {related : Value → LinkProgress B → Prop}
  {performed : Except LinkCheck (LinkProgress B) × B.State}
  {reached : Except (Stopped LinkFailure) Value × Work B.State}
  (ends : EndsWith related performed reached)

include ends

theorem EndsWith.service : reached.2.service = performed.2 := by
  cases ends <;> rfl

theorem EndsWith.ok_iff : (∃ value, reached.1 = .ok value) ↔ ∃ later, performed.1 = .ok later := by
  cases ends <;> simp

theorem EndsWith.error_iff (stopped : Stopped LinkFailure) :
    reached.1 = .error stopped ↔
      ∃ check, performed.1 = .error check ∧ stopped = ⟨check.failure, reached.2.log⟩ := by
  cases ends with
  | passed => simp
  | failed => simp [eq_comm]

end Ends

/-- The job makes these checks and asks the backend for nothing else. -/
def Makes (input : LinkInput B) (checks : List LinkCheck) (progress : LinkProgress B)
    (related : Value → LinkProgress B → Prop) (job : Job B LinkFailure Value) : Prop :=
  ∀ work, EndsWith related ((perform input checks progress).run work.service) (job.run work)

variable {input : LinkInput B} {progress : LinkProgress B}

theorem makes_pure {related : Value → LinkProgress B → Prop} {value : Value}
    (values : related value progress) :
    Makes input [] progress related (pure value) :=
  fun work => .passed work values

theorem makes_bind {checks more : List LinkCheck} {between : Value → LinkProgress B → Prop}
    {related : Result → LinkProgress B → Prop} {job : Job B LinkFailure Value}
    {next : Value → Job B LinkFailure Result} (first : Makes input checks progress between job)
    (rest : ∀ value later, between value later → Makes input more later related (next value)) :
    Makes input (checks ++ more) progress related (job >>= next) := by
  intro work
  have ends := first work
  rw [LinkCheck.perform_append, run_bind]
  generalize (perform input checks progress).run work.service = performed at ends
  generalize job.run work = reached at ends
  cases ends with
  | @passed later value after values => exact rest value later values after
  | failed after => exact .failed after

theorem Makes.imp {checks : List LinkCheck} {related other : Value → LinkProgress B → Prop}
    {job : Job B LinkFailure Value} (makes : Makes input checks progress related job)
    (implies : ∀ value later, related value later → other value later) :
    Makes input checks progress other job := by
  intro work
  have ends := makes work
  generalize (perform input checks progress).run work.service = performed at ends ⊢
  generalize job.run work = reached at ends ⊢
  cases ends with
  | passed after values => exact .passed after (implies _ _ values)
  | failed after => exact .failed after

theorem makes_bind_pure {checks : List LinkCheck} {between : Value → LinkProgress B → Prop}
    {related : Result → LinkProgress B → Prop} {job : Job B LinkFailure Value}
    {give : Value → Result} (first : Makes input checks progress between job)
    (gives : ∀ value later, between value later → related (give value) later) :
    Makes input checks progress related (job >>= fun value => pure (give value)) := by
  have whole :
      Makes input (checks ++ []) progress related (job >>= fun value => pure (give value)) :=
    makes_bind first fun value later values => makes_pure (gives value later values)
  rwa [List.append_nil] at whole

theorem makes_note {checks : List LinkCheck} {related : Value → LinkProgress B → Prop}
    {job : Job B LinkFailure Value} (text : String)
    (makes : Makes input checks progress related job) :
    Makes input checks progress related (note text >>= fun _ => job) :=
  fun work => makes { work with log := work.log ++ text }

/-- A check that passes without a call. -/
theorem makes_passed {check : LinkCheck} {more : List LinkCheck} {later : LinkProgress B}
    {related : Value → LinkProgress B → Prop} {job : Job B LinkFailure Value}
    (passes : check.attempt input progress = pure (some later))
    (rest : Makes input more later related job) :
    Makes input (check :: more) progress related job := by
  intro work
  rw [LinkCheck.perform_cons, passes]
  exact rest work

/-- The job fails so, and does not ask the backend. -/
def Stops (failure : LinkFailure) (job : Job B LinkFailure Value) : Prop :=
  ∀ work, ∃ log, job.run work = (.error ⟨failure, log⟩, { work with log := log })

theorem stops_fail_with (failure : LinkFailure) (line : String) :
    Stops failure (failWith failure line : Job B LinkFailure Value) :=
  fun work => ⟨work.log ++ (line ++ "\n"), rfl⟩

theorem stops_bind {failure : LinkFailure} {job : Job B LinkFailure Value}
    (stops : Stops failure job) (next : Value → Job B LinkFailure Result) :
    Stops failure (job >>= next) := by
  intro work
  obtain ⟨log, reached⟩ := stops work
  exact ⟨log, by rw [run_bind, reached]⟩

theorem stops_note {failure : LinkFailure} {job : Job B LinkFailure Value} (text : String)
    (stops : Stops failure job) : Stops failure (note text >>= fun _ => job) :=
  fun work => stops { work with log := work.log ++ text }

/-- A job that stops where a check fails without a call. -/
theorem makes_stopped {check : LinkCheck} {more : List LinkCheck}
    {related : Value → LinkProgress B → Prop} {job : Job B LinkFailure Value}
    (fails : check.attempt input progress = pure none) (stops : Stops check.failure job) :
    Makes input (check :: more) progress related job := by
  intro work
  obtain ⟨log, reached⟩ := stops work
  rw [LinkCheck.perform_cons, fails, reached]
  exact .failed { work with log := log }

/-- A job that goes on where a call makes a check pass, and stops where it does not. -/
theorem makes_call {Answer : Type} {check : LinkCheck} {more : List LinkCheck}
    {service : StateM B.State Answer} {outcome : Answer → Option (LinkProgress B)}
    {related : Value → LinkProgress B → Prop} {next : Answer → Job B LinkFailure Value}
    (asks : check.attempt input progress = outcome <$> service)
    (passes : ∀ answer later, outcome answer = some later →
      Makes input more later related (next answer))
    (stops : ∀ answer, outcome answer = none → Stops check.failure (next answer)) :
    Makes input (check :: more) progress related (call service >>= next) := by
  intro work
  have attempted : (check.attempt input progress).run work.service =
      (outcome (service work.service).1, (service work.service).2) := by
    rw [asks]
    rfl
  have called : (call service : Job B LinkFailure Answer).run work =
      (.ok (service work.service).1, { work with service := (service work.service).2 }) := rfl
  rw [LinkCheck.perform_cons, attempted, run_bind, called]
  cases verdict : outcome (service work.service).1 with
  | some later =>
      exact passes _ later verdict { work with service := (service work.service).2 }
  | none =>
      obtain ⟨log, reached⟩ := stops _ verdict { work with service := (service work.service).2 }
      change EndsWith _ _ ((next (service work.service).1).run _)
      rw [reached]
      exact .failed { work with service := (service work.service).2, log := log }

/-- A job that goes on with what is found, if anything is. -/
theorem makes_find {Found : Type} {check : LinkCheck} {more : List LinkCheck}
    {line : String} {service : StateM B.State (Option Found)}
    {adds : Found → LinkProgress B} {related : Value → LinkProgress B → Prop}
    {next : Option Found → Job B LinkFailure Value}
    (asks : check.attempt input progress = do
      let found ← service
      return found.map adds)
    (fails : next none = failWith check.failure line)
    (rest : ∀ found, Makes input more (adds found) related (next (some found))) :
    Makes input (check :: more) progress related (call service >>= next) := by
  refine makes_call (asks.trans (bind_pure_comp _ _)) ?_ ?_
  · rintro (_ | found) later ⟨⟩
    exact rest found
  · rintro (_ | found) ⟨⟩
    exact fails ▸ stops_fail_with _ line

/-- A job that goes on with what a call has to answer. -/
theorem makes_noting_bind {Answer : Type} {check : LinkCheck} {more : List LinkCheck}
    {failure : LinkFailure} {line : String → String} {service : StateM B.State (Reply Answer)}
    {adds : Answer → LinkProgress B} {related : Value → LinkProgress B → Prop}
    {next : Answer → Job B LinkFailure Value}
    (asks : check.attempt input progress = do
      let reply ← service
      return reply.answer.toOption.map adds)
    (same : check.failure = failure)
    (rest : ∀ answer, Makes input more (adds answer) related (next answer)) :
    Makes input (check :: more) progress related
      (callNoting service >>= fun answer => orFail failure line answer >>= next) := by
  unfold callNoting
  simp only [bind_assoc, pure_bind]
  subst same
  refine makes_call (asks.trans (bind_pure_comp _ _)) ?_ ?_
  · rintro ⟨log, _ | answer⟩ later ⟨⟩
    exact makes_note log (rest answer)
  · rintro ⟨log, reason | answer⟩ ⟨⟩
    exact stops_note log (stops_bind (stops_fail_with _ (line reason)) next)

/-- A job that ends with what a call has to answer. -/
theorem makes_noting {Answer : Type} {check : LinkCheck} {failure : LinkFailure}
    {line : String → String} {service : StateM B.State (Reply Answer)}
    {adds : Answer → LinkProgress B}
    (asks : check.attempt input progress = do
      let reply ← service
      return reply.answer.toOption.map adds)
    (same : check.failure = failure) :
    Makes input [check] progress (fun answer later => later = adds answer)
      (callNoting service >>= orFail failure line) := by
  have makes : Makes input [check] progress (fun answer later => later = adds answer)
      (callNoting service >>= fun answer => orFail failure line answer >>= pure) :=
    makes_noting_bind asks same fun answer => makes_pure rfl
  simpa only [bind_pure] using makes

/-- A job that ends with the answer of a call that writes no diagnostics. -/
theorem makes_answer {Answer : Type} {check : LinkCheck} {failure : LinkFailure}
    {line : String → String} {service : StateM B.State (Except String Answer)}
    {adds : Answer → LinkProgress B}
    (asks : check.attempt input progress = do
      let answer ← service
      return answer.toOption.map adds)
    (same : check.failure = failure) :
    Makes input [check] progress (fun answer later => later = adds answer)
      (call service >>= orFail failure line) := by
  subst same
  refine makes_call (asks.trans (bind_pure_comp _ _)) ?_ ?_
  · rintro (_ | answer) later ⟨⟩
    exact makes_pure rfl
  · rintro (reason | _) ⟨⟩
    exact stops_fail_with _ (line reason)

theorem makes_map_list {Item : Type} {step : Item → Job B LinkFailure Value}
    {checksOf : Item → List LinkCheck} (holds : List Value → LinkProgress B → Prop)
    {items : List Item} (before : List Value) (now : holds before progress)
    (each : ∀ item ∈ items, ∀ values between, holds values between →
      Makes input (checksOf item) between (fun value later => holds (values ++ [value]) later)
        (step item)) :
    Makes input (items.flatMap checksOf) progress
      (fun values later => holds (before ++ values) later ∧ values.length = items.length)
      (items.mapM step) := by
  induction items generalizing progress before with
  | nil =>
      rw [List.mapM_nil]
      exact makes_pure ⟨by simpa using now, rfl⟩
  | cons item rest ih =>
      obtain ⟨here, others⟩ := List.forall_mem_cons.mp each
      rw [List.mapM_cons, List.flatMap_cons]
      refine makes_bind (here before progress now) fun value between first => ?_
      refine makes_bind_pure (ih (before ++ [value]) first others) ?_
      rintro values later ⟨held, length⟩
      exact ⟨by simpa using held, congrArg (· + 1) length⟩

end Job

open Job

namespace LinkedKernels

variable {input : LinkInput B} {progress : LinkProgress B}

/-! ## Conformances -/

theorem makes_conform (entry : Conformance × UInt32) :
    Makes input [.typeFound entry.1, .interfaceFound entry.1, .conformed entry.2] progress
      (fun part later => later.parts = progress.parts ++ [part] ∧
        later.composites = progress.composites ∧ later.entries = progress.entries)
      (conform input.globalScope entry) := by
  obtain ⟨conformance, id⟩ := entry
  unfold conform
  refine makes_find rfl rfl fun type => ?_
  refine makes_find rfl rfl fun interface => ?_
  refine (makes_noting rfl rfl).imp ?_
  rintro part _ rfl
  exact ⟨rfl, rfl, rfl⟩

/-- Between the groups nothing is at hand but their composites. -/
structure Combined (composites : List (Option B.Component)) (progress : LinkProgress B) : Prop where
  parts : progress.parts = []
  composites : progress.composites = composites
  entries : progress.entries = []

theorem makes_composite {composites : List (Option B.Component)}
    (combined : Combined composites progress) (conformances : ConformanceList) :
    Makes input (LinkCheck.ofConformances conformances ++ [.combined]) progress
      (fun composite later => Combined (composites ++ [composite]) later)
      (composite input.globalScope conformances) := by
  unfold composite LinkCheck.ofConformances
  let Gathered : List B.Component → LinkProgress B → Prop := fun parts later =>
    later.parts = parts ∧ later.composites = composites ∧ later.entries = []
  refine makes_bind (makes_map_list Gathered []
    ⟨combined.parts, combined.composites, combined.entries⟩ ?_) ?_
  · rintro entry _ parts between ⟨parts_eq, composites_eq, entries_eq⟩
    refine (makes_conform entry).imp ?_
    rintro part later ⟨isPart, isComposites, isEntries⟩
    exact ⟨parts_eq ▸ isPart, isComposites.trans composites_eq, isEntries.trans entries_eq⟩
  · rintro parts later ⟨⟨parts_eq, composites_eq, entries_eq⟩, _⟩
    rw [List.nil_append] at parts_eq
    cases parts with
    | nil =>
        have passes : attempt input later .combined =
            pure (some { later with composites := later.composites ++ [none] }) := by
          rw [attempt, if_pos (by simp [parts_eq])]
        exact makes_passed passes (makes_pure ⟨parts_eq, by rw [composites_eq], entries_eq⟩)
    | cons part others =>
        have asks : attempt input later .combined = do
            let reply ← B.compose (part :: others)
            return reply.answer.toOption.map fun composite =>
              { later with parts := [], composites := later.composites ++ [some composite] } := by
          rw [attempt, if_neg (by simp [parts_eq]), parts_eq]
        exact makes_noting_bind asks rfl fun composite =>
          makes_pure ⟨rfl, by rw [composites_eq], entries_eq⟩

theorem makes_composites (desc : ProgramDesc) (conformances : ConformanceList) :
    Makes input (desc.groups.flatMap (LinkCheck.ofComposite conformances)) {}
      (fun composites later => Combined composites later ∧ composites.length = desc.groups.length)
      (desc.groups.mapM fun group =>
        composite input.globalScope (effective conformances group)) :=
  makes_map_list Combined [] ⟨rfl, rfl, rfl⟩ fun _ _ _ _ combined => makes_composite combined _

/-! ## Entry points -/

theorem makes_with_conformances {position : Nat} {composite : Option B.Component}
    (isAt : progress.composites[position]? = some composite) {entry : EntryPoint}
    {handle : B.Component} (handled : handleOf? input entry = some handle) :
    Makes input [.specialized position entry] progress
      (fun specialized later => later = { progress with specialized := some specialized })
      (withConformances composite entry handle) := by
  cases composite with
  | none =>
      refine makes_passed ?_ (makes_pure rfl)
      simp only [attempt, handled, isAt, Option.join_some]
  | some whole =>
      refine makes_noting ?_ rfl
      simp only [attempt, handled, isAt, Option.join_some]

theorem makes_specialize {position : Nat} {composite : Option B.Component}
    (isAt : progress.composites[position]? = some composite) (entry : EntryPoint) :
    Makes input [.specialized position entry, .linked entry] progress
      (fun made later => later.composites = progress.composites ∧
        later.entries = progress.entries ++ [made])
      (specialize input composite entry) := by
  unfold specialize
  cases handled : handleOf? input entry with
  | none =>
      refine makes_stopped ?_ (stops_fail_with _ _)
      simp only [attempt, handled]
  | some handle =>
      change Makes input ([.specialized position entry] ++ [.linked entry]) _ _ _
      refine makes_bind (makes_with_conformances isAt handled) ?_
      rintro specialized _ rfl
      exact makes_noting_bind rfl rfl fun linked => makes_pure ⟨rfl, rfl⟩

theorem makes_specialize_groups {groups : List EntryPointGroup}
    {composites : List (Option B.Component)} (same : groups.length = composites.length)
    (position : Nat) (there : ∀ (place : Nat) composite, composites[place]? = some composite →
      progress.composites[position + place]? = some composite) :
    Makes input ((groups.zipIdx position).flatMap LinkCheck.ofEntryPoints) progress
      (fun made later => later.composites = progress.composites ∧
        later.entries = progress.entries ++ made)
      (specializeGroups input (groups.zip composites)) := by
  induction groups generalizing composites position progress with
  | nil =>
      rw [List.zip_nil_left]
      exact makes_pure ⟨rfl, by simp⟩
  | cons group others ih =>
      cases composites with
      | nil => simp at same
      | cons composite rest =>
          rw [List.zip_cons_cons, List.zipIdx_cons, List.flatMap_cons]
          let Linked : List (SpecializedEntry B) → LinkProgress B → Prop := fun made later =>
            later.composites = progress.composites ∧ later.entries = progress.entries ++ made
          refine makes_bind (makes_map_list Linked [] ⟨rfl, by simp⟩ ?_) ?_
          · rintro entry _ made between ⟨composites_eq, entries_eq⟩
            have isAt : between.composites[position]? = some composite :=
              composites_eq ▸ there 0 composite rfl
            refine (makes_specialize isAt entry).imp ?_
            rintro one later ⟨isComposites, isEntries⟩
            rw [entries_eq, List.append_assoc] at isEntries
            exact ⟨isComposites.trans composites_eq, isEntries⟩
          · rintro made between ⟨⟨composites_eq, entries_eq⟩, _⟩
            have further : ∀ (place : Nat) composite, rest[place]? = some composite →
                between.composites[position + 1 + place]? = some composite := by
              intro place other isAt
              have earlier := there (place + 1) other isAt
              rw [composites_eq, Nat.add_assoc, Nat.add_comm 1]
              exact earlier
            refine makes_bind_pure (ih (by simpa using same) (position + 1) further) ?_
            rintro more later ⟨isComposites, isEntries⟩
            refine ⟨isComposites.trans composites_eq, ?_⟩
            rw [isEntries, entries_eq, List.nil_append, List.append_assoc]

/-! ## Composing and reflecting -/

theorem makes_compose_and_reflect {composites : List (Option B.Component)}
    (composites_eq : progress.composites = composites) :
    Makes input [.composed, .reflected] progress
      (fun _ later => later.entries = progress.entries)
      (composeAndReflect .linking
        (input.globalScope :: input.entryPoints ++ composites.filterMap id)) := by
  subst composites_eq
  refine makes_noting_bind rfl rfl fun whole => ?_
  refine (makes_answer rfl rfl).imp ?_
  rintro handle _ rfl
  rfl

/-! ## Shapes of groups -/

theorem any_other_kind_iff (first : EntryPoint) (rest : List EntryPoint) :
    ((first :: rest).any fun entry =>
      PipelineKind.ofStage entry.stage ≠ PipelineKind.ofStage first.stage) = true ↔
    ¬ ((first :: rest).map fun entry => PipelineKind.ofStage entry.stage).Pairwise (· = ·) := by
  rw [List.map_cons, List.pairwise_cons, List.any_eq_true]
  constructor
  · rintro ⟨entry, held, other⟩ ⟨same, _⟩
    rcases List.mem_cons.mp held with rfl | later
    · simp at other
    · have sameKind := same _ (List.mem_map_of_mem later)
      simp [sameKind] at other
  · intro mixed
    by_contra none
    have same : ∀ entry ∈ rest,
        PipelineKind.ofStage first.stage = PipelineKind.ofStage entry.stage := by
      intro entry held
      by_contra other
      exact none ⟨entry, List.mem_cons_of_mem _ held, by simpa using Ne.symm other⟩
    refine mixed ⟨by simpa using same, List.pairwise_map.mpr ?_⟩
    exact List.pairwise_of_forall_mem_list fun one isOne other isOther =>
      (same one isOne).symm.trans (same other isOther)

theorem makes_group_kernels (position : Nat) (group : EntryPointGroup)
    (left : List (SpecializedEntry B)) :
    Makes input [.occupied position group, .unmixed position group] progress
      (fun _ later => later = progress) (groupKernels position group left) := by
  unfold groupKernels
  cases listed : group.entryPoints with
  | nil =>
      have empty : group.kind position = .error (.emptyEntryPointGroup position) := by
        simp [EntryPointGroup.kind, listed]
      rw [empty]
      exact makes_stopped (by simp [attempt, listed]) (stops_fail_with _ _)
  | cons first rest =>
      have occupied : attempt input progress (.occupied position group) = pure (some progress) := by
        simp [attempt, listed]
      refine makes_passed occupied ?_
      have shape := any_other_kind_iff first rest
      by_cases unmixed :
          (group.entryPoints.map fun entry => PipelineKind.ofStage entry.stage).Pairwise (· = ·)
      · have known : group.kind position = .ok (PipelineKind.ofStage first.stage) := by
          rw [listed] at unmixed
          simp only [EntryPointGroup.kind, listed]
          rw [if_neg fun mixed => shape.mp mixed unmixed]
        rw [known]
        exact makes_passed (by simp only [attempt, unmixed, ↓reduceIte]) (makes_pure rfl)
      · have known : group.kind position = .error (.mixedStageGroup position) := by
          rw [listed] at unmixed
          simp only [EntryPointGroup.kind, listed]
          rw [if_pos (shape.mpr unmixed)]
        rw [known]
        exact makes_stopped (by simp only [attempt, unmixed, ↓reduceIte]) (stops_fail_with _ _)

theorem makes_all_group_kernels (position : Nat) (groups : List EntryPointGroup)
    (left : List (SpecializedEntry B)) :
    Makes input ((groups.zipIdx position).flatMap LinkCheck.ofShape) progress
      (fun _ later => later = progress) (allGroupKernels position groups left) := by
  induction groups generalizing position left with
  | nil => exact makes_pure rfl
  | cons group others ih =>
      rw [List.zipIdx_cons, List.flatMap_cons]
      refine makes_bind (makes_group_kernels position group left) ?_
      rintro kernels _ rfl
      exact makes_bind_pure (ih (position + 1) _) fun _ _ held => held

/-! ## The device -/

/-- Asking for the names of entry points never fails. -/
theorem device_names_eq (entries : List (SpecializedEntry B)) :
    entries.mapM deviceName = (call (entries.mapM LinkCheck.nameFor) :
      Job B LinkFailure (List (String × B.Component))) := by
  induction entries with
  | nil => rfl
  | cons made rest ih =>
      rw [List.mapM_cons, List.mapM_cons, ih]
      rfl

/-- Two calls in a row are one call with both answers. -/
theorem call_call {First Second Value : Type} (service : StateM B.State First)
    (follow : First → StateM B.State Second) (next : First → Second → Job B LinkFailure Value) :
    (call service >>= fun first => call (follow first) >>= next first) =
      (call (do
        let first ← service
        let second ← follow first
        return (first, second)) >>= fun both => next both.1 both.2) :=
  rfl

theorem makes_device (desc : ProgramDesc) {entries : List (SpecializedEntry B)}
    (entries_eq : progress.entries = entries)
    (gives : List (String × B.Component) → B.DeviceProgram → LinkedKernels B) :
    Makes input [.device desc] progress (fun _ _ => True) (do
      let named ← entries.mapM deviceName
      let created ← callNoting
        (B.createDeviceProgram input.globalScope ((deviceEntries desc named).map Prod.snd))
      let program ← orFail .device
        (fun reason => s!"Creating device program failed: {reason}") created
      return gives named program) := by
  subst entries_eq
  rw [device_names_eq]
  simp only [callNoting, bind_assoc, pure_bind]
  rw [call_call]
  let Asked := List (String × B.Component) × Reply B.DeviceProgram
  let outcome : Asked → Option (LinkProgress B) := fun asked =>
    asked.2.answer.toOption.map fun _ => progress
  have asks : attempt input progress (.device desc) = outcome <$> (do
      let named ← progress.entries.mapM LinkCheck.nameFor
      let reply ← B.createDeviceProgram input.globalScope
        ((deviceEntries desc named).map Prod.snd)
      return (named, reply)) := rfl
  refine makes_call asks ?_ ?_
  · rintro ⟨named, log, _ | program⟩ later ⟨⟩
    exact makes_note log (makes_pure trivial)
  · rintro ⟨named, log, reason | _⟩ ⟨⟩
    exact stops_note log (stops_bind (stops_fail_with _ _) _)

theorem makes_job (desc : ProgramDesc) (conformances : ConformanceList) (input : LinkInput B) :
    Makes input (LinkCheck.all desc conformances) {} (fun _ _ => True)
      (job desc conformances input) := by
  simp only [LinkCheck.all, LinkCheck.compiling, List.append_assoc]
  refine makes_bind (makes_composites desc conformances) ?_
  rintro composites combined ⟨⟨_, composites_eq, entries_eq⟩, length⟩
  refine makes_bind (makes_specialize_groups length.symm 0 ?_) ?_
  · intro place composite isAt
    rw [composites_eq, Nat.zero_add]
    exact isAt
  rintro entries linked ⟨linkedComposites, linkedEntries⟩
  refine makes_bind (makes_compose_and_reflect (linkedComposites.trans composites_eq)) ?_
  rintro handle reflected reflectedEntries
  refine makes_bind (makes_all_group_kernels 0 desc.groups entries) ?_
  rintro groups _ rfl
  refine makes_device desc ?_ _
  rw [reflectedEntries, linkedEntries, entries_eq, List.nil_append]

end LinkedKernels

/-! ## Linking in a world -/

open LinkCheck (FailsAfter Pass)

namespace World

/-- How linking ends is how its job ends. -/
structure EndsAs (manager : Nat) (description : String)
    (reached : Except (Stopped LinkFailure) (LinkedKernels B) × Work B.State)
    (result : Logged (Kernels B) × World B) : Prop where
  log : result.1.log = reached.2.log
  ok : (∃ kernels, result.1.outcome = .ok kernels) ↔ ∃ linked, reached.1 = .ok linked
  error : ∀ error, result.1.outcome = .error error ↔ ∃ stopped,
    reached.1 = .error stopped ∧ error = stopped.cause.toError description stopped.log
  service : ∃ after, result.2.managers[manager]? = some after ∧ after.service = reached.2.service

theorem link_in_ends (world : World B) {manager : Nat} {found : Manager B}
    (managed : world.managers[manager]? = some found) (program : Program B)
    (conformances : ConformanceList) (version : Version B) (log : String) :
    EndsAs manager program.description
      ((LinkedKernels.job program.desc conformances version.linkInput).run
        ⟨found.service, log, world.versionIds⟩)
      (world.linkIn found.service manager program conformances version log) := by
  have absorbed : ∀ work : Work B.State, (world.absorb manager work).managers[manager]? =
      some { found with service := work.service } := by
    intro work
    simp [absorb, modifyManager, managed]
  unfold linkIn
  cases reached : (LinkedKernels.job program.desc conformances version.linkInput).run
      ⟨found.service, log, world.versionIds⟩ with
  | mk outcome work =>
      simp only [reached]
      cases outcome with
      | error stopped =>
          exact ⟨rfl, by simp, fun error => by simp [eq_comm], _, absorbed work, rfl⟩
      | ok linked =>
          refine ⟨rfl, by simp, fun error => by simp, ?_⟩
          simp only [recordKernels, modifyManager, emit, List.getElem?_modify_eq, absorbed work,
            Option.map_eq_map, Option.map_some, Option.some.injEq, exists_eq_left']

/-- Linking fails if and only if one of its checks fails, and with the error of the first one that
does. The backend is asked for a device program if all other checks pass, once, and else never. -/
theorem link_reports_first_failure (world : World B) {manager : Nat} {found : Manager B}
    (managed : world.managers[manager]? = some found) (program : Program B)
    (conformances : ConformanceList) (version : Version B) (log : String) :
    let input := version.linkInput
    let checks := LinkCheck.all program.desc conformances
    ∃ logged next after,
      world.link manager program conformances version log = some (logged, next) ∧
      next.managers[manager]? = some after ∧
      ((∃ kernels, logged.outcome = .ok kernels) ↔ Pass input {} checks found.service) ∧
      (∀ error, logged.outcome = .error error ↔ ∃ earlier check later,
        checks = earlier ++ check :: later ∧ FailsAfter input {} earlier check found.service ∧
          error = check.failure.toError program.description logged.log) ∧
      ∀ asked : B.State → Nat, B.CountsDevice asked →
        (Pass input {} (LinkCheck.compiling program.desc conformances) found.service →
          asked after.service = asked found.service + 1) ∧
        (¬ Pass input {} (LinkCheck.compiling program.desc conformances) found.service →
          asked after.service = asked found.service) := by
  intro input checks
  have links : world.link manager program conformances version log =
      some (world.linkIn found.service manager program conformances version log) := by
    simp only [link, managed, Option.bind_eq_bind, Option.bind_some]
  have result := world.link_in_ends managed program conformances version log
  generalize world.linkIn found.service manager program conformances version log = reached
    at links result
  have ends := LinkedKernels.makes_job program.desc conformances input
    ⟨found.service, log, world.versionIds⟩
  obtain ⟨after, isAfter, service⟩ := result.service
  refine ⟨reached.1, reached.2, after, links, isAfter, ?_, ?_, ?_⟩
  · rw [result.ok, ends.ok_iff]
    exact LinkCheck.pass_iff.symm
  · intro error
    have first := LinkCheck.perform_error_iff input checks {} found.service
    rw [result.error, result.log]
    constructor
    · rintro ⟨stopped, failed, rfl⟩
      obtain ⟨check, performed, rfl⟩ := (ends.error_iff stopped).mp failed
      obtain ⟨earlier, later, split, fails⟩ := (first check).mp performed
      exact ⟨earlier, check, later, split, fails, rfl⟩
    · rintro ⟨earlier, check, later, split, fails, rfl⟩
      have performed := (first check).mpr ⟨earlier, later, split, fails⟩
      exact ⟨_, (ends.error_iff _).mpr ⟨check, performed, rfl⟩, rfl⟩
  · intro asked counts
    rw [service, ends.service]
    exact LinkCheck.asked_perform_all input counts program.desc conformances found.service

end World

/-! ## Linking with a scripted backend -/

namespace Scripted

/-- How often the device was asked for a program. -/
def State.deviceCalls (state : State) : Nat :=
  state.calls.countP fun
    | .createDeviceProgram _ _ => true
    | _ => false

theorem counts_device_calls : backend.CountsDevice State.deviceCalls where
  findType scope name state := by
    simp [backend, findType, State.record, State.deviceCalls]
  conform type interface id state := by
    simp [backend, conform, State.record, State.deviceCalls]
  compose parts state := by
    simp only [backend, compose, State.record, State.deviceCalls]
    split <;> simp
  reflect whole state := by
    simp only [backend, reflect, State.record, State.deviceCalls]
    split <;> simp
  entryPointName entry state := rfl
  createDeviceProgram scope entries state := by
    simp [backend, createDeviceProgram, State.record, State.deviceCalls]

end Scripted

namespace World

/-- The faults of the first program, the missing type apart, are all further on: the backend fails
the second composition, the group with that type mixes stages, the last group is empty and the
device refuses the program. The second program has but the last of these faults. -/
theorem link_reports_missing_type_before_device :
    let lit : EntryPointGroup :=
      ⟨0, .ofTriples [("Lambert", "IMaterial", 1)], [⟨.compute, "trace", "trace", some 0⟩]⟩
    let mixed : EntryPointGroup := ⟨0, .ofTriples [("Missing", "IMaterial", 2)],
      [⟨.vertex, "place", "place", some 1⟩, ⟨.compute, "shade", "shade", some 2⟩]⟩
    let empty : EntryPointGroup := ⟨0, ∅, []⟩
    let script : Scripted.Script := { types := ["IMaterial", "Lambert"], failDevice := true }
    let world (script : Scripted.Script) : World Scripted.backend :=
      { files := {}, managers := [{ device := { type := .vulkan }, service := { script } }] }
    let program (groups : List EntryPointGroup) : Program Scripted.backend :=
      ⟨1, 0, { modules := [{}], groups := groups }, "tracer", { defines := ∅, conformances := ∅ }⟩
    let version : Version Scripted.backend := ⟨0, 0, "tracer", ∅, 1, .globalScope 1,
      [.entryPoint "trace" "trace" .compute, .entryPoint "place" "place" .vertex,
        .entryPoint "shade" "shade" .compute], 1, {}, []⟩
    (∃ logged next after, (world { script with failComposeIn := some 1 }).link 0
          (program [lit, mixed, empty]) ∅ version "" = some (logged, next) ∧
        logged.outcome = .error (.configuration (.unresolvedType "Missing") logged.log) ∧
        next.managers[0]? = some after ∧ after.service.deviceCalls = 0) ∧
      ∃ logged next after, (world script).link 0 (program [lit]) ∅ version "" =
          some (logged, next) ∧
        logged.outcome = .error (.device "tracer" logged.log) ∧
        next.managers[0]? = some after ∧ after.service.deviceCalls = 1 := by
  intro lit mixed empty script world program version
  have managed (script : Scripted.Script) : (world script).managers[0]? =
      some { device := { type := .vulkan }, service := { script } } := rfl
  constructor
  · let script := { script with failComposeIn := some 1 }
    obtain ⟨logged, next, after, linked, isAfter, _, errors, asks⟩ :=
      link_reports_first_failure (world script) (managed script) (program [lit, mixed, empty]) ∅
        version ""
    have missing := (errors _).mpr ⟨LinkCheck.ofComposite ∅ lit,
      .typeFound ⟨"Missing", "IMaterial"⟩, _, rfl, by decide +kernel, rfl⟩
    have never := (asks _ Scripted.counts_device_calls).2 (by decide +kernel)
    exact ⟨logged, next, after, linked, missing, isAfter, never⟩
  · obtain ⟨logged, next, after, linked, isAfter, _, errors, asks⟩ :=
      link_reports_first_failure (world script) (managed script) (program [lit]) ∅ version ""
    have refused := (errors _).mpr ⟨_, _, [], rfl, by decide +kernel, rfl⟩
    have once := (asks _ Scripted.counts_device_calls).1 (by decide +kernel)
    exact ⟨logged, next, after, linked, refused, isAfter, once⟩

end World

end ShaderCache
