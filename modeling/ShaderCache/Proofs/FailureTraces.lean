import ShaderCache.Proofs.ArchiveTwins

/-!
# Failures without a trace

Calls for versions and for kernels that fail can be left out of a run, and everything else is
answered as before, up to identifiers.
-/

set_option autoImplicit false

namespace ShaderCache

variable {B : Backend}

/-- The call is not one for the active version or for kernels that fails. -/
def succeeded : Request × Response B → Bool
  | (.operate (.activeVersion _), .version _ (.error _)) => false
  | (.kernelsOf _, .kernels _ (.error _)) => false
  | _ => true

namespace Archive

/-! ## Calls -/

/-- The calls that a request is made of. Asking for the kernels of the active version asks for the
version first, and then that version for its kernels. -/
def calls (archive : Archive B) : Request → List Request
  | .operate (.activeKernels program) =>
      .operate (.activeVersion program) ::
        match archive.world.activeVersion program with
        | some (.ok version, _) => [.kernelsOf version.serial]
        | _ => []
  | request => [request]

def allCalls (archive : Archive B) : List Request → List Request
  | [] => []
  | request :: rest => archive.calls request ++ (archive.after request).allCalls rest

theorem Sound.kernels_answered {archive : Archive B} (sound : archive.Sound) (version : Version B) :
    ∃ outcome next, archive.world.kernelsOf version = some (outcome, next) := by
  cases owned : archive.world.owner? version with
  | none =>
      refine ⟨.error .orphaned, archive.world, ?_⟩
      simp only [World.kernelsOf, owned]
  | some owner =>
      obtain ⟨setup, managed⟩ := setup_of_owner sound.world owned
      obtain ⟨outcome, next, answered, _⟩ := archive.world.kernels_of_supplies owned managed
      exact ⟨outcome, next, answered⟩

theorem Sound.run_active_kernels {archive : Archive B} (sound : archive.Sound) (program : Nat) :
    archive.run (archive.calls (.operate (.activeKernels program))) =
      archive.after (.operate (.activeKernels program)) := by
  cases answered : archive.world.activeVersion program with
  | none =>
      have unanswered : archive.world.activeKernels program = none := by
        simp only [World.activeKernels, answered, Option.bind_eq_bind, Option.bind_none]
      have unmade : archive.world.activeMade? program = none := by
        simp only [World.activeMade?, answered]
      simp only [calls, answered, Archive.run, Archive.after, World.serve, World.perform,
        unanswered, World.conclude, World.made?, unmade]
  | some pair =>
      obtain ⟨outcome, between⟩ := pair
      have between_eq := after_active_version answered
      cases outcome with
      | error error =>
          have failed : archive.world.activeKernels program = some (.error error, between) := by
            simp only [World.activeKernels, answered, Option.bind_eq_bind, Option.bind_some]
          simp only [calls, answered, Archive.run, between_eq, after_active_kernels failed]
      | ok version =>
          -- The second call names the version by its serial number, where the archive has it now.
          have soundBetween := sound.after (.operate (.activeVersion program))
          have held := (sound.resolved_version answered).held
          have lookup := soundBetween.lookup held
          obtain ⟨outcome, next, supplied⟩ := soundBetween.kernels_answered version
          have after_eq := after_kernels_of lookup supplied
          rw [between_eq] at supplied after_eq
          have provided : archive.world.activeKernels program = some (outcome, next) := by
            simp only [World.activeKernels, answered, Option.bind_eq_bind, Option.bind_some,
              supplied]
          simp only [calls, answered, Archive.run, between_eq, after_eq,
            after_active_kernels provided]

theorem Sound.run_calls {archive : Archive B} (sound : archive.Sound) (request : Request) :
    archive.run (archive.calls request) = archive.after request := by
  cases request with
  | operate operation =>
      cases operation with
      | activeKernels program => exact sound.run_active_kernels program
      | _ => rfl
  | _ => rfl

/-- The calls that a run is made of lead where the run leads. -/
theorem Sound.run_all_calls {archive : Archive B} (sound : archive.Sound)
    (requests : List Request) : archive.run (archive.allCalls requests) = archive.run requests := by
  induction requests generalizing archive with
  | nil => rfl
  | cons request rest ih =>
      rw [allCalls, run_append, sound.run_calls]
      exact ih (sound.after request)

/-! ## Leaving out -/

variable {close : B.State → B.State → Prop} {archive other : Archive B}

/-- A call that fails makes no version and leaves the world as it was. -/
theorem unmoved_failed (forgets : B.Forgets close) {request : Request}
    (failed : succeeded (request, archive.respond request) = false) :
    World.Unmoved close archive.world (archive.after request).world ∧
      (archive.after request).versions = archive.versions := by
  cases request with
  | operate operation =>
      cases operation with
      | activeVersion program =>
          cases answered : archive.world.activeVersion program with
          | none =>
              simp [respond, World.serve, World.reply, answered, World.respondWith,
                succeeded] at failed
          | some pair =>
              obtain ⟨outcome, next⟩ := pair
              cases outcome with
              | ok version =>
                  simp [respond, World.serve, World.reply, answered, World.respondWith,
                    succeeded] at failed
              | error error =>
                  have unmade : archive.world.activeMade? program = none := by
                    simp only [World.activeMade?, answered]
                  rw [after_active_version answered, unmade, Option.toList_none, List.append_nil]
                  exact ⟨World.active_version_failed forgets answered, rfl⟩
      | _ => simp [succeeded] at failed
  | kernelsOf serial =>
      cases lookup : archive.versions[serial]? with
      | none => simp [respond, World.serve, lookup, World.respondWith, succeeded] at failed
      | some version =>
          cases answered : archive.world.kernelsOf version with
          | none =>
              simp [respond, World.serve, lookup, answered, World.respondWith,
                succeeded] at failed
          | some pair =>
              obtain ⟨outcome, next⟩ := pair
              cases outcome with
              | ok kernels =>
                  simp [respond, World.serve, lookup, answered, World.respondWith,
                    succeeded] at failed
              | error error =>
                  rw [after_kernels_of lookup answered]
                  exact ⟨World.kernels_of_failed forgets answered, rfl⟩
  | _ => simp [succeeded] at failed

/-- A call that fails can be left out: the archive stays a twin. -/
theorem Twin.failed (twin : Twin close archive other) (equivalence : Equivalence close)
    (forgets : B.Forgets close) {request : Request}
    (failed : succeeded (request, archive.respond request) = false) :
    Twin close (archive.after request) other := by
  obtain ⟨unmoved, versions⟩ := unmoved_failed forgets failed
  refine ⟨twin.world.unmoved equivalence unmoved, ?_⟩
  rw [versions]
  exact twin.versions

/-- What is answered after some of the calls that fail are left out, by induction on the calls. -/
theorem Twin.remaining (twin : Twin close archive other) (sound : archive.Sound)
    (respects : B.Respects close) (equivalence : Equivalence close) (forgets : B.Forgets close)
    (calls : List Request) :
    let kept := (calls.zip (archive.responses calls)).filter succeeded
    (other.responses (kept.map Prod.fst)).map Response.unnumbered =
      kept.map fun entry => entry.2.unnumbered := by
  induction calls generalizing archive other with
  | nil => rfl
  | cons call rest ih =>
      have step := twin.serve respects sound call
      cases succeeds : succeeded (call, archive.respond call) with
      | false =>
          -- Only the longer run takes a step, and it stays a twin of the shorter one.
          have later := ih (twin.failed equivalence forgets succeeds) (sound.after call)
          simpa [responses, succeeds] using later
      | true =>
          have later := ih (twin.after respects sound call) (sound.after call)
          simp only [responses, List.zip_cons_cons, List.filter_cons, succeeds, ↓reduceIte,
            List.map_cons]
          exact congrArg₂ List.cons step.response later

theorem twin_refl (equivalence : Equivalence close) (archive : Archive B) :
    Twin close archive archive := by
  refine ⟨⟨rfl, ?_, fun _ => rfl, rfl, rfl, rfl, rfl, rfl, rfl⟩, rfl⟩
  intro manager
  cases archive.world.managers[manager]? with
  | none => exact .none
  | some found => exact .some ⟨rfl, equivalence.refl found.service⟩

/-- In every archive that a run reaches, a call for the active version or for kernels that fails
leaves everything but the backend's state, identifiers and reports as it was. If answers of the
backend do not depend on calls that failed, all such calls of a run can be left out, and the others
are answered the same, up to identifiers. -/
theorem failures_leave_no_trace (files : FileTree) (managers : List (Manager B))
    (requests : List Request) :
    let start := opening files managers
    let archive := start.run requests
    let calls := start.allCalls requests
    let kept := (calls.zip (start.responses calls)).filter succeeded
    (∀ program error next, archive.world.activeVersion program = some (.error error, next) →
      World.Unmoved (fun _ _ => True) archive.world next) ∧
    (∀ version error next, archive.world.kernelsOf version = some (.error error, next) →
      World.Unmoved (fun _ _ => True) archive.world next) ∧
    start.run calls = archive ∧
    (B.ForgetsFailures → (start.responses (kept.map Prod.fst)).map Response.unnumbered =
      kept.map fun entry => entry.2.unnumbered) := by
  intro start archive calls kept
  have sound : start.Sound := sound_opening files managers
  refine ⟨?_, ?_, sound.run_all_calls requests, ?_⟩
  · intro program error next failed
    exact World.active_version_failed B.forgets_everything failed
  · intro version error next failed
    exact World.kernels_of_failed B.forgets_everything failed
  · rintro ⟨close, equivalence, respects, forgets⟩
    exact (twin_refl equivalence start).remaining sound respects equivalence forgets calls

theorem failed_of_map {Value : Type} {answer : Option (Except ProgramError Value × World B)}
    (fails : answer.map (fun pair => pair.1.toOption.isSome) = some false) :
    ∃ error next, answer = some (.error error, next) := by
  obtain ⟨⟨outcome, next⟩, rfl, isNone⟩ := Option.map_eq_some_iff.mp fails
  cases outcome with
  | ok value => simp [Except.toOption] at isNone
  | error error => exact ⟨error, next, rfl⟩

/-- A program whose only group is empty compiles but cannot be linked, and once it defines `BROKEN`
it does not compile either. -/
theorem failures_leave_no_trace_empty_group :
    let desc : ProgramDesc := { modules := [{}], groups := [⟨0, ∅, []⟩] }
    let requests : List Request := [.operate (.newProgram 0 desc ∅), .operate (.activeKernels 0),
      .operate (.editProgram 0 (.addDefine "BROKEN" "1")), .operate (.activeVersion 0),
      .operate (.editProgram 0 (.setDefines ∅)),
      .operate (.editProgram 0 (.addDefine "COLOR" "1")), .operate (.activeVersion 0),
      .operate (.editProgram 0 (.addDefine "BROKEN" "1"))]
    let start := opening {} [Manager.echo]
    let archive := start.run requests
    let calls := start.allCalls requests
    let kept := (calls.zip (start.responses calls)).filter succeeded
    Backend.echo.ForgetsFailures ∧ calls.length = 9 ∧ kept.length = 7 ∧
      (∃ error next, archive.world.activeVersion 0 = some (.error error, next) ∧
        World.Unmoved (fun _ _ => True) archive.world next) ∧
      (∃ version error next, archive.world.kernelsOf version = some (.error error, next) ∧
        World.Unmoved (fun _ _ => True) archive.world next) ∧
      (start.responses (kept.map Prod.fst)).map Response.unnumbered =
        kept.map fun entry => entry.2.unnumbered := by
  intro desc requests start archive calls kept
  have callCount : calls.length = 9 := by decide +kernel
  have keptCount : kept.length = 7 := by decide +kernel
  have rejected : (archive.world.activeVersion 0).map (fun pair => pair.1.toOption.isSome) =
      some false := by
    decide +kernel
  have unlinked : (archive.versions[0]?.bind archive.world.kernelsOf).map
      (fun pair => pair.1.toOption.isSome) = some false := by
    decide +kernel
  obtain ⟨versions, kernels, _, remaining⟩ := failures_leave_no_trace {} [Manager.echo] requests
  have forgets := echo_steady.forgets_failures
  refine ⟨forgets, callCount, keptCount, ?_, ?_, remaining forgets⟩
  · obtain ⟨error, next, answered⟩ := failed_of_map rejected
    exact ⟨error, next, answered, versions 0 error next answered⟩
  · obtain ⟨error, next, answered⟩ := failed_of_map unlinked
    obtain ⟨version, _, called⟩ := Option.bind_eq_some_iff.mp answered
    exact ⟨version, error, next, called, kernels version error next called⟩

end Archive

end ShaderCache
