import Mathlib.Data.List.Induction
import ShaderCache.Proofs.KernelCalls

/-!
# The configuration that a call sees

A call for the kernels of the active version looks at the configuration of the program twice: for
the defines when it resolves the version, and for the conformances when it links. Other threads
may change the configuration in between, so the two need not have been there together.
-/

set_option autoImplicit false

namespace ShaderCache

variable {B : Backend}

def World.configuration? (world : World B) (program : Nat) : Option ProgramKey :=
  (world.program? program).map fun found => found.state.key

/-- The configuration of a program after so many of the actions. -/
def Shared.configuredAt (shared : Shared B) (actions : List Action) (program moment : Nat) :
    Option ProgramKey :=
  (shared.run (actions.take moment)).archive.world.configuration? program

/-! ## What a call has seen -/

/-- At one moment up to now the version's defines were configured, and at the same or a later one
the conformances. -/
structure Spanned (configured : Nat → Option ProgramKey) (now : Nat) (defines : DefineList)
    (conformances : ConformanceList) (resolved read : Nat) : Prop where
  ordered : resolved ≤ read
  past : read ≤ now
  defines : (configured resolved).map ProgramKey.defines = some defines
  conformances : (configured read).map ProgramKey.conformances = some conformances

namespace KernelCall

/-- What a call that was asked for a program has seen of its configuration. -/
def Traced (configured : Nat → Option ProgramKey) (now program : Nat) : KernelCall B → Prop
  | .asked other => other = program
  | .resolved version => version.program = program ∧
      ∃ resolved ≤ now, (configured resolved).map ProgramKey.defines = some version.defines
  | .configured version owner | .missed version owner | .linked version owner _ =>
      version.program = program ∧ ∃ resolved read,
        Spanned configured now version.defines owner.state.conformances resolved read
  | .answered version conformances _ =>
      version.program = program ∧ ∃ resolved read,
        Spanned configured now version.defines conformances resolved read
  | .failed _ => True

theorem Traced.later {configured other : Nat → Option ProgramKey} {now program : Nat}
    {call : KernelCall B} (traced : call.Traced configured now program)
    (same : ∀ moment ≤ now, other moment = configured moment) :
    call.Traced other (now + 1) program := by
  have spanned : ∀ {defines conformances resolved read},
      Spanned configured now defines conformances resolved read →
        Spanned other (now + 1) defines conformances resolved read := by
    intro defines conformances resolved read spanned
    refine ⟨spanned.ordered, Nat.le_succ_of_le spanned.past, ?_, ?_⟩
    · rw [same resolved (Nat.le_trans spanned.ordered spanned.past)]
      exact spanned.defines
    · rw [same read spanned.past]
      exact spanned.conformances
  cases call with
  | asked asked => exact traced
  | resolved version =>
      obtain ⟨owner, resolved, past, defines⟩ := traced
      refine ⟨owner, resolved, Nat.le_succ_of_le past, ?_⟩
      rw [same resolved past]
      exact defines
  | configured | missed | linked | answered =>
      obtain ⟨owner, resolved, read, seen⟩ := traced
      exact ⟨owner, resolved, read, spanned seen⟩
  | failed error => trivial

/-- The step of a call looks at the configuration of now. -/
theorem Traced.advance {archive : Archive B} {configured : Nat → Option ProgramKey}
    {now program : Nat} {call : KernelCall B} (traced : call.Traced configured now program)
    (sound : archive.Sound) (here : configured now = archive.world.configuration? program) :
    (call.advance archive).2.Traced configured now program := by
  cases call with
  | asked asked =>
      cases traced
      simp only [KernelCall.advance]
      split
      next version next answered =>
        have facts := sound.resolved_version answered
        obtain ⟨found, present, defines⟩ := facts.configured
        refine ⟨facts.owner, now, Nat.le_refl now, ?_⟩
        rw [here, World.configuration?, present, defines]
        rfl
      next => trivial
      next => rfl
  | resolved version =>
      obtain ⟨rfl, resolved, past, defines⟩ := traced
      simp only [KernelCall.advance]
      split
      next owner owned =>
        refine ⟨rfl, resolved, now, past, Nat.le_refl now, defines, ?_⟩
        rw [here, World.configuration?, World.program_of_owner owned]
        rfl
      next => trivial
  | configured version owner =>
      simp only [KernelCall.advance]
      split
      next => exact traced
      next => exact traced
  | missed version owner =>
      simp only [KernelCall.advance]
      split
      next => exact traced
      next => trivial
      next => exact traced
  | linked version owner kernels => exact traced
  | answered version conformances kernels => exact traced
  | failed error => trivial

end KernelCall

namespace Shared

variable {shared : Shared B}

/-- A call is where it was, unless the action was its own step. -/
theorem calls_step {number : Nat} {call : KernelCall B}
    (started : shared.calls[number]? = some call) (action : Action) :
    (shared.step action).calls[number]? = some call ∨
      (shared.step action).calls[number]? = some (call.advance shared.archive).2 := by
  have inRange := (List.getElem?_eq_some_iff.mp started).1
  cases action with
  | request request => exact .inl started
  | askActive program => exact .inl ((List.getElem?_append_left inRange).trans started)
  | ask serial => exact .inl ((List.getElem?_append_left inRange).trans started)
  | proceed other =>
      by_cases own : other = number
      · subst own
        right
        simp only [step, started]
        exact List.getElem?_set_self inRange
      · left
        cases rival : shared.calls[other]? with
        | none => simpa only [step, rival] using started
        | some call =>
            simp only [step, rival]
            exact (List.getElem?_set_ne own).trans started

theorem configured_at_append (shared : Shared B) (actions more : List Action) (program : Nat)
    {moment : Nat} (past : moment ≤ actions.length) :
    shared.configuredAt (actions ++ more) program moment =
      shared.configuredAt actions program moment := by
  rw [configuredAt, configuredAt, List.take_append_of_le_length past]

theorem configured_at_end (shared : Shared B) (actions : List Action) (program : Nat) :
    shared.configuredAt actions program actions.length =
      (shared.run actions).archive.world.configuration? program := by
  rw [configuredAt, List.take_length]

/-- By induction on the actions, the last one being the step: a call never knows of a
configuration that was not there after it was asked. -/
theorem traced_run (valid : shared.Valid) {number program : Nat}
    (asked : shared.calls[number]? = some (.asked program)) (actions : List Action) :
    ∃ call, (shared.run actions).calls[number]? = some call ∧
      call.Traced (shared.configuredAt actions program) actions.length program := by
  induction actions using List.reverseRecOn with
  | nil => exact ⟨_, asked, rfl⟩
  | append_singleton actions action ih =>
      obtain ⟨call, started, traced⟩ := ih
      have last : shared.run (actions ++ [action]) = (shared.run actions).step action :=
        shared.run_append actions [action]
      have same : ∀ moment ≤ actions.length,
          shared.configuredAt (actions ++ [action]) program moment =
            shared.configuredAt actions program moment :=
        fun moment past => shared.configured_at_append actions [action] program past
      rw [last, List.length_append, List.length_singleton]
      rcases calls_step started action with stays | moves
      · exact ⟨call, stays, traced.later same⟩
      · have advanced := traced.advance (valid.run actions).1.sound
          (shared.configured_at_end actions program)
        exact ⟨_, moves, advanced.later same⟩

/-! ## Calls for the kernels of active versions -/

theorem key_of_parts {configured : Option ProgramKey} {defines : DefineList}
    {conformances : ConformanceList}
    (hasDefines : configured.map ProgramKey.defines = some defines)
    (hasConformances : configured.map ProgramKey.conformances = some conformances) :
    configured = some ⟨defines, conformances⟩ := by
  obtain ⟨key, rfl, rfl⟩ := Option.map_eq_some_iff.mp hasDefines
  rw [Option.map_some, Option.some.injEq] at hasConformances
  rw [← hasConformances]

/-- A call for the kernels of the active version of a program that was answered has kernels of the
version that it resolved. While it went on, there was a moment at which the defines of the version
were configured, and the same or a later one at which the conformances of the kernels were. If
nobody changed the defines between the two, or nobody the conformances, then both were configured
at a single moment. -/
theorem active_kernels_configured (files : FileTree) (managers : List (Manager B))
    (earlier actions : List Action) {number program : Nat} {version : Version B}
    {conformances : ConformanceList} {kernels : Kernels B}
    (asked : ((opening files managers).run earlier).calls[number]? = some (.asked program))
    (answered : (((opening files managers).run earlier).run actions).calls[number]? =
      some (.answered version conformances kernels)) :
    let configured := ((opening files managers).run earlier).configuredAt actions program
    let defines := fun moment => (configured moment).map ProgramKey.defines
    let conformancesAt := fun moment => (configured moment).map ProgramKey.conformances
    version.program = program ∧ kernels.linked.versionId = version.id ∧
    ∃ resolved read, resolved ≤ read ∧ read ≤ actions.length ∧
      defines resolved = some version.defines ∧
      conformancesAt read = some kernels.linked.conformances ∧
      ((∀ moment, resolved ≤ moment → moment ≤ read → defines moment = defines resolved) ∨
        (∀ moment, resolved ≤ moment → moment ≤ read →
          conformancesAt moment = conformancesAt read) →
        ∃ moment ≤ actions.length,
          configured moment = some ⟨version.defines, kernels.linked.conformances⟩) := by
  intro configured defines conformancesAt
  obtain ⟨valid, _⟩ := (valid_opening files managers).run earlier
  obtain ⟨validLater, _⟩ := valid.run actions
  obtain ⟨call, isCall, traced⟩ := traced_run valid asked actions
  cases answered.symm.trans isCall
  obtain ⟨owner, resolved, read, spanned⟩ := traced
  have genuine := (validLater.calls _ (List.mem_of_getElem? answered)).genuine
    validLater.sound validLater.kept
  have labelled : kernels.linked.conformances = conformances := genuine.labels.2
  rw [labelled]
  refine ⟨owner, genuine.labels.1, resolved, read, spanned.ordered, spanned.past, spanned.defines,
    spanned.conformances, ?_⟩
  rintro (sameDefines | sameConformances)
  · have together := (sameDefines read spanned.ordered (Nat.le_refl read)).trans spanned.defines
    exact ⟨read, spanned.past, key_of_parts together spanned.conformances⟩
  · have together := (sameConformances resolved (Nat.le_refl resolved) spanned.ordered).trans
      spanned.conformances
    exact ⟨resolved, Nat.le_trans spanned.ordered spanned.past,
      key_of_parts spanned.defines together⟩

/-- The defines change after the version is resolved, and then the conformances do: the two halves
of what gets linked were never configured together. -/
theorem torn_configuration :
    let actions : List Action := [.proceed 0,
      .request (.operate (.editProgram 0 (.addDefine "QUALITY" "2"))),
      .request (.operate (.editProgram 0 (.addConformance "Lambert" "IMaterial" 1))),
      .proceed 0, .proceed 0, .proceed 0, .proceed 0]
    let start := (opening {} [Manager.echo]).run
      [.request (.operate (.newProgram 0 .oneKernel ∅)), .askActive 0]
    start.calls[0]? = some (.asked 0) ∧ ∃ version conformances kernels,
      (start.run actions).calls[0]? = some (.answered version conformances kernels) ∧
      ∀ moment ≤ actions.length, start.configuredAt actions 0 moment ≠
        some ⟨version.defines, kernels.linked.conformances⟩ := by
  intro actions start
  have evaluated : ((start.run actions).calls[0]?.bind KernelCall.answer?).map (fun answer =>
      (answer.1.defines, answer.2.2.linked.conformances)) =
        some (∅, (∅ : ConformanceList).add "Lambert" "IMaterial" 1) := by
    decide +kernel
  have never : ∀ moment ≤ actions.length, start.configuredAt actions 0 moment ≠
      some ⟨∅, (∅ : ConformanceList).add "Lambert" "IMaterial" 1⟩ := by
    decide +kernel
  refine ⟨rfl, ?_⟩
  clear_value start
  obtain ⟨⟨version, conformances, kernels⟩, answer, values⟩ :=
    Option.map_eq_some_iff.mp evaluated
  obtain ⟨defines, configured⟩ := Prod.mk.inj values
  refine ⟨version, conformances, kernels, KernelCall.answered_of_answer answer, ?_⟩
  rw [defines, configured]
  exact never

/-- Only the conformances change while the call goes on. -/
theorem active_kernels_configured_late :
    let actions : List Action := [.proceed 0,
      .request (.operate (.editProgram 0 (.addConformance "Lambert" "IMaterial" 1))),
      .proceed 0, .proceed 0, .proceed 0, .proceed 0]
    let start := (opening {} [Manager.echo]).run
      [.request (.operate (.newProgram 0 .oneKernel ∅)), .askActive 0]
    start.calls[0]? = some (.asked 0) ∧ ∃ version conformances kernels,
      (start.run actions).calls[0]? = some (.answered version conformances kernels) ∧
      ∃ moment ≤ actions.length, start.configuredAt actions 0 moment =
        some ⟨version.defines, kernels.linked.conformances⟩ := by
  intro actions start
  have evaluated : ((start.run actions).calls[0]?.bind KernelCall.answer?).isSome = true := by
    decide +kernel
  have constant : ∀ moment ≤ actions.length,
      (start.configuredAt actions 0 moment).map ProgramKey.defines = some ∅ := by
    decide +kernel
  have asked : start.calls[0]? = some (.asked 0) := rfl
  obtain ⟨⟨version, conformances, kernels⟩, answer⟩ := Option.isSome_iff_exists.mp evaluated
  have answered := KernelCall.answered_of_answer answer
  obtain ⟨_, _, resolved, read, ordered, past, _, _, together⟩ :=
    active_kernels_configured {} [Manager.echo] _ actions asked answered
  refine ⟨asked, version, conformances, kernels, answered, together (.inl ?_)⟩
  intro moment _ before
  exact (constant moment (Nat.le_trans before past)).trans
    (constant resolved (Nat.le_trans ordered past)).symm

end Shared

end ShaderCache
