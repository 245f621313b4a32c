import ShaderCache.Proofs.JobRules

/-!
# The checks of linking

Linking can fail at many points. In the order in which they come up these are a list of checks,
which depends on the description of the program and on its conformances only. Each check asks the
backend at most once, but for the last one, which asks for names before it asks the device.
-/

set_option autoImplicit false

namespace ShaderCache

/-- What linking has to get done, one thing at a time. -/
inductive LinkCheck where
  | typeFound (conformance : Conformance)
  | interfaceFound (conformance : Conformance)
  | conformed (id : UInt32)
  /-- The conformances of a group are put together, if it has any. -/
  | combined
  /-- An entry point is there, and takes the conformances of the group at `position`, if it has
  any. -/
  | specialized (position : Nat) (entry : EntryPoint)
  | linked (entry : EntryPoint)
  | composed
  | reflected
  | occupied (position : Nat) (group : EntryPointGroup)
  | unmixed (position : Nat) (group : EntryPointGroup)
  | device (desc : ProgramDesc)

namespace LinkCheck

def failure : LinkCheck → LinkFailure
  | typeFound conformance => .configuration (.unresolvedType conformance.typeName)
  | interfaceFound conformance => .configuration (.unresolvedInterface conformance.interfaceName)
  | conformed _ | combined | specialized _ _ | linked _ | composed | reflected => .linking
  | occupied position _ => .configuration (.emptyEntryPointGroup position)
  | unmixed position _ => .configuration (.mixedStageGroup position)
  | device _ => .device

/-! ## The order of the checks -/

def ofConformances (conformances : ConformanceList) : List LinkCheck :=
  conformances.entries.flatMap fun entry =>
    [typeFound entry.1, interfaceFound entry.1, conformed entry.2]

def ofComposite (conformances : ConformanceList) (group : EntryPointGroup) : List LinkCheck :=
  ofConformances (LinkedKernels.effective conformances group) ++ [combined]

def ofEntryPoints (numbered : EntryPointGroup × Nat) : List LinkCheck :=
  numbered.1.entryPoints.flatMap fun entry => [specialized numbered.2 entry, linked entry]

def ofShape (numbered : EntryPointGroup × Nat) : List LinkCheck :=
  [occupied numbered.2 numbered.1, unmixed numbered.2 numbered.1]

/-- All checks before the device is asked. -/
def compiling (desc : ProgramDesc) (conformances : ConformanceList) : List LinkCheck :=
  desc.groups.flatMap (ofComposite conformances) ++ desc.groups.zipIdx.flatMap ofEntryPoints ++
    [composed, reflected] ++ desc.groups.zipIdx.flatMap ofShape

def all (desc : ProgramDesc) (conformances : ConformanceList) : List LinkCheck :=
  compiling desc conformances ++ [device desc]

end LinkCheck

/-- What is at hand between two checks. -/
structure LinkProgress (B : Backend) where
  /-- The type and the interface of a conformance. -/
  type : Option B.TypeHandle := none
  interface : Option B.TypeHandle := none
  /-- The conformances of a group. -/
  parts : List B.Component := []
  /-- The composites of the groups so far. -/
  composites : List (Option B.Component) := []
  /-- An entry point that is to be linked. -/
  specialized : Option B.Component := none
  entries : List (SpecializedEntry B) := []
  whole : Option B.Component := none

/-- Tells how often the device was asked for a program; nothing else that linking asks the backend
for changes that. -/
structure Backend.CountsDevice (B : Backend) (asked : B.State → Nat) : Prop where
  findType : ∀ scope name state, asked (B.findType scope name state).2 = asked state
  conform : ∀ type interface id state, asked (B.conform type interface id state).2 = asked state
  compose : ∀ parts state, asked (B.compose parts state).2 = asked state
  reflect : ∀ whole state, asked (B.reflect whole state).2 = asked state
  entryPointName : ∀ entry state, asked (B.entryPointName entry state).2 = asked state
  createDeviceProgram : ∀ scope entries state,
    asked (B.createDeviceProgram scope entries state).2 = asked state + 1

namespace LinkCheck

variable {B : Backend}

open LinkedKernels (deviceEntries handleOf?)

/-- The name under which the device gets an entry point. -/
def nameFor (made : SpecializedEntry B) : StateM B.State (String × B.Component) := do
  let name ← B.entryPointName made.specialized
  return (name.getD made.entry.exportName, made.specialized)

/-- What the check adds to what is at hand, or nothing if it fails. -/
def attempt (input : LinkInput B) (progress : LinkProgress B) :
    LinkCheck → StateM B.State (Option (LinkProgress B))
  | typeFound conformance => do
      let found ← B.findType input.globalScope conformance.typeName
      return found.map fun type => { progress with type := some type }
  | interfaceFound conformance => do
      let found ← B.findType input.globalScope conformance.interfaceName
      return found.map fun interface => { progress with interface := some interface }
  | conformed id =>
      match progress.type, progress.interface with
      | some type, some interface => do
          let reply ← B.conform type interface id
          return reply.answer.toOption.map fun part =>
            { progress with parts := progress.parts ++ [part] }
      | _, _ => return none
  | combined =>
      if progress.parts.isEmpty then
        return some { progress with composites := progress.composites ++ [none] }
      else do
        let reply ← B.compose progress.parts
        return reply.answer.toOption.map fun composite =>
          { progress with parts := [], composites := progress.composites ++ [some composite] }
  | specialized position entry =>
      match handleOf? input entry, progress.composites[position]?.join with
      | none, _ => return none
      | some handle, none => return some { progress with specialized := some handle }
      | some handle, some composite => do
          let reply ← B.compose [handle, composite]
          return reply.answer.toOption.map fun specialized =>
            { progress with specialized := some specialized }
  | linked entry =>
      match progress.specialized with
      | none => return none
      | some made => do
          let reply ← B.compose [input.globalScope, made]
          return reply.answer.toOption.map fun linked =>
            { progress with entries := progress.entries ++ [⟨entry, made, linked⟩] }
  | composed => do
      let reply ← B.compose
        (input.globalScope :: input.entryPoints ++ progress.composites.filterMap id)
      return reply.answer.toOption.map fun whole => { progress with whole := some whole }
  | reflected =>
      match progress.whole with
      | none => return none
      | some whole => do
          let answer ← B.reflect whole
          return answer.toOption.map fun _ => progress
  | occupied _ group => return if group.entryPoints = [] then none else some progress
  | unmixed _ group =>
      let kinds := group.entryPoints.map fun entry => PipelineKind.ofStage entry.stage
      return if kinds.Pairwise (· = ·) then some progress else none
  | device desc => do
      let named ← progress.entries.mapM nameFor
      let reply ← B.createDeviceProgram input.globalScope
        ((deviceEntries desc named).map Prod.snd)
      return reply.answer.toOption.map fun _ => progress

/-- Makes the checks one after the other, up to the first one that fails. -/
def perform (input : LinkInput B) :
    List LinkCheck → LinkProgress B → StateM B.State (Except LinkCheck (LinkProgress B))
  | [], progress => return .ok progress
  | check :: rest, progress => do
      match ← check.attempt input progress with
      | some next => perform input rest next
      | none => return .error check

variable (input : LinkInput B)

theorem perform_cons (check : LinkCheck) (rest : List LinkCheck) (progress : LinkProgress B)
    (state : B.State) :
    (perform input (check :: rest) progress).run state =
      match (check.attempt input progress).run state with
      | (some next, later) => (perform input rest next).run later
      | (none, later) => (.error check, later) := by
  change StateT.run ((check.attempt input progress) >>= _) state = _
  rw [StateT.run_bind]
  cases (check.attempt input progress).run state with
  | mk outcome later => cases outcome <;> rfl

theorem perform_append (checks more : List LinkCheck) (progress : LinkProgress B)
    (state : B.State) :
    (perform input (checks ++ more) progress).run state =
      match (perform input checks progress).run state with
      | (.ok next, later) => (perform input more next).run later
      | (.error check, later) => (.error check, later) := by
  induction checks generalizing progress state with
  | nil => rfl
  | cons check rest ih =>
      rw [List.cons_append, perform_cons, perform_cons]
      cases (check.attempt input progress).run state with
      | mk outcome later =>
          cases outcome with
          | none => rfl
          | some next => exact ih next later

/-- The checks pass, one after the other. -/
def Pass (input : LinkInput B) (progress : LinkProgress B) (checks : List LinkCheck)
    (state : B.State) : Prop :=
  ∃ next later, (perform input checks progress).run state = (.ok next, later)

theorem pass_iff {input : LinkInput B} {progress : LinkProgress B} {checks : List LinkCheck}
    {state : B.State} :
    Pass input progress checks state ↔
      ∃ next, ((perform input checks progress).run state).1 = .ok next := by
  constructor
  · rintro ⟨next, later, passes⟩
    exact ⟨next, congrArg Prod.fst passes⟩
  · rintro ⟨next, passes⟩
    exact ⟨next, _, Prod.ext passes rfl⟩

/-- The earlier checks pass, and the check fails right after them. -/
def FailsAfter (input : LinkInput B) (progress : LinkProgress B) (earlier : List LinkCheck)
    (check : LinkCheck) (state : B.State) : Prop :=
  ∃ next later, (perform input earlier progress).run state = (.ok next, later) ∧
    ((check.attempt input next).run later).1 = none

instance {input : LinkInput B} {progress : LinkProgress B} {checks : List LinkCheck}
    {state : B.State} : Decidable (Pass input progress checks state) :=
  match reached : (perform input checks progress).run state with
  | (.ok next, later) => isTrue ⟨next, later, reached⟩
  | (.error _, _) => isFalse fun ⟨_, _, passes⟩ => nomatch reached.symm.trans passes

instance {input : LinkInput B} {progress : LinkProgress B} {earlier : List LinkCheck}
    {check : LinkCheck} {state : B.State} :
    Decidable (FailsAfter input progress earlier check state) :=
  match reached : (perform input earlier progress).run state with
  | (.ok next, later) =>
      match failing : ((check.attempt input next).run later).1 with
      | none => isTrue ⟨next, later, reached, failing⟩
      | some _ => isFalse fun ⟨_, _, passes, fails⟩ => by
          cases reached.symm.trans passes
          cases failing.symm.trans fails
  | (.error _, _) => isFalse fun ⟨_, _, passes, _⟩ => nomatch reached.symm.trans passes

theorem fails_after_nil {input : LinkInput B} {progress : LinkProgress B} {check : LinkCheck}
    {state : B.State} :
    FailsAfter input progress [] check state ↔
      ((check.attempt input progress).run state).1 = none := by
  constructor
  · rintro ⟨next, later, ⟨⟩, fails⟩
    exact fails
  · exact fun fails => ⟨progress, state, rfl, fails⟩

theorem fails_after_cons {input : LinkInput B} {first check : LinkCheck} {rest : List LinkCheck}
    {progress : LinkProgress B} {state : B.State} :
    FailsAfter input progress (first :: rest) check state ↔ ∃ next later,
      (first.attempt input progress).run state = (some next, later) ∧
        FailsAfter input next rest check later := by
  unfold FailsAfter
  rw [perform_cons]
  cases (first.attempt input progress).run state with
  | mk outcome later =>
      cases outcome with
      | none =>
          constructor
          · rintro ⟨_, _, ⟨⟩, _⟩
          · rintro ⟨_, _, ⟨⟩, _⟩
      | some next =>
          constructor
          · exact fun fails => ⟨next, later, rfl, fails⟩
          · rintro ⟨_, _, ⟨⟩, fails⟩
            exact fails

/-- The checks stop at the first one that fails. -/
theorem perform_error_iff (checks : List LinkCheck) (progress : LinkProgress B) (state : B.State)
    (check : LinkCheck) :
    ((perform input checks progress).run state).1 = .error check ↔
      ∃ earlier more, checks = earlier ++ check :: more ∧
        FailsAfter input progress earlier check state := by
  induction checks generalizing progress state with
  | nil =>
      refine iff_of_false (by rintro ⟨⟩) ?_
      rintro ⟨earlier, more, same, _⟩
      simp at same
  | cons first rest ih =>
      rw [perform_cons]
      cases attempted : (first.attempt input progress).run state with
      | mk outcome later =>
          cases outcome with
          | none =>
              constructor
              · rintro ⟨⟩
                exact ⟨[], rest, rfl, fails_after_nil.mpr (by rw [attempted])⟩
              · rintro ⟨earlier, more, same, fails⟩
                cases earlier with
                | nil =>
                    cases same
                    rfl
                | cons passed others =>
                    cases same
                    obtain ⟨next, _, passes, _⟩ := fails_after_cons.mp fails
                    cases attempted.symm.trans passes
          | some next =>
              refine (ih next later).trans ?_
              constructor
              · rintro ⟨earlier, more, rfl, fails⟩
                exact ⟨first :: earlier, more, rfl,
                  fails_after_cons.mpr ⟨next, later, attempted, fails⟩⟩
              · rintro ⟨earlier, more, same, fails⟩
                cases earlier with
                | nil =>
                    cases same
                    rw [fails_after_nil, attempted] at fails
                    simp at fails
                | cons passed others =>
                    cases same
                    obtain ⟨_, _, passes, fails⟩ := fails_after_cons.mp fails
                    cases attempted.symm.trans passes
                    exact ⟨others, more, rfl, fails⟩

/-! ## Asking the device -/

def isDevice : LinkCheck → Bool
  | device _ => true
  | _ => false

theorem compiling_other (desc : ProgramDesc) (conformances : ConformanceList) :
    ∀ check ∈ compiling desc conformances, check.isDevice = false := by
  intro check held
  simp only [compiling, ofComposite, ofConformances, ofEntryPoints, ofShape, List.mem_append,
    List.mem_flatMap, List.mem_cons, List.not_mem_nil, or_false] at held
  rcases held with ((⟨_, _, ⟨_, _, rfl | rfl | rfl⟩ | rfl⟩ | ⟨_, _, _, _, rfl | rfl⟩) | rfl | rfl) |
    ⟨_, _, rfl | rfl⟩ <;> rfl

section Counts

variable {asked : B.State → Nat} (counts : B.CountsDevice asked)

include counts

theorem asked_attempt (check : LinkCheck) (progress : LinkProgress B) (state : B.State) :
    asked ((check.attempt input progress).run state).2 =
      asked state + if check.isDevice then 1 else 0 := by
  cases check with
  | typeFound conformance => exact counts.findType _ _ state
  | interfaceFound conformance => exact counts.findType _ _ state
  | conformed id =>
      rw [attempt]
      split
      · exact counts.conform _ _ _ state
      · rfl
  | combined =>
      rw [attempt]
      split
      · rfl
      · exact counts.compose _ state
  | specialized position entry =>
      rw [attempt]
      split
      · rfl
      · rfl
      · exact counts.compose _ state
  | linked entry =>
      rw [attempt]
      split
      · rfl
      · exact counts.compose _ state
  | composed => exact counts.compose _ state
  | reflected =>
      rw [attempt]
      split
      · rfl
      · exact counts.reflect _ state
  | occupied position group => rfl
  | unmixed position group => rfl
  | device desc =>
      have named : ∀ (entries : List (SpecializedEntry B)) state,
          asked ((entries.mapM nameFor).run state).2 = asked state := by
        intro entries
        induction entries with
        | nil => exact fun _ => rfl
        | cons made rest ih =>
            intro state
            rw [List.mapM_cons]
            exact (ih _).trans (counts.entryPointName _ state)
      exact (counts.createDeviceProgram _ _ _).trans (congrArg (· + 1) (named _ state))

/-- The device is asked by the check for it and by no other one. -/
theorem asked_perform {checks : List LinkCheck} (others : ∀ check ∈ checks, check.isDevice = false)
    (progress : LinkProgress B) (state : B.State) :
    asked ((perform input checks progress).run state).2 = asked state := by
  induction checks generalizing progress state with
  | nil => rfl
  | cons first rest ih =>
      obtain ⟨here, later⟩ := List.forall_mem_cons.mp others
      have step := asked_attempt input counts first progress state
      rw [here] at step
      rw [perform_cons]
      cases attempted : (first.attempt input progress).run state with
      | mk outcome next =>
          rw [attempted] at step
          cases outcome with
          | none => exact step
          | some progress => exact (ih later progress next).trans step

/-- The device is asked once if the checks before it pass, and never if one of them fails. -/
theorem asked_perform_all (desc : ProgramDesc) (conformances : ConformanceList)
    (state : B.State) :
    (Pass input {} (compiling desc conformances) state →
      asked ((perform input (all desc conformances) {}).run state).2 = asked state + 1) ∧
    (¬ Pass input {} (compiling desc conformances) state →
      asked ((perform input (all desc conformances) {}).run state).2 = asked state) := by
  have before := asked_perform input counts (compiling_other desc conformances) {} state
  have whole := perform_append input (compiling desc conformances) [device desc] {} state
  change (perform input (all desc conformances) {}).run state = _ at whole
  unfold Pass
  rw [whole]
  cases performed : (perform input (compiling desc conformances) {}).run state with
  | mk outcome later =>
      rw [performed] at before
      change asked later = asked state at before
      cases outcome with
      | error check =>
          refine ⟨?_, fun _ => before⟩
          rintro ⟨_, _, ⟨⟩⟩
      | ok next =>
          refine ⟨fun _ => ?_, fun fails => absurd ⟨next, later, rfl⟩ fails⟩
          have step := asked_attempt input counts (device desc) next later
          have last := perform_cons input (device desc) [] next later
          change asked ((perform input [device desc] next).run later).2 = asked state + 1
          rw [last, ← before]
          cases attempted : ((device desc).attempt input next).run later with
          | mk outcome final =>
              rw [attempted] at step
              cases outcome <;> exact step

end Counts

end LinkCheck

end ShaderCache
