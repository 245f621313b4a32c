import ShaderCache.Proofs.TwinCalls

/-!
# Twins in lockstep

A client that asks two twin archives for the same gets the same responses up to identifiers, one
request after the other.
-/

set_option autoImplicit false

namespace ShaderCache

variable {B : Backend}

theorem except_to_option_map {Failure Value Result : Type} (change : Value → Result)
    (outcome : Except Failure Value) :
    (outcome.map change).toOption = outcome.toOption.map change := by
  cases outcome <;> rfl

/-- The response without the identifiers of versions. -/
def Response.unnumbered : Response B → Response B
  | .version log outcome => .version log (outcome.map Version.unnumbered)
  | .kernels log outcome => .kernels log (outcome.map Kernels.unnumbered)
  | .versionView view => .versionView { view with version := view.version.unnumbered }
  | response => response

theorem Archive.Sound.fits {archive : Archive B} (sound : archive.Sound) {version : Version B}
    (held : version ∈ archive.versions) : archive.world.Fits version := by
  intro owner owned group present entry entryPresent
  have ownerPresent := World.program_of_owner owned
  obtain ⟨_, _, length⟩ := sound.owned version held owner ownerPresent
  have indexed := sound.indexed _ owner ownerPresent group present entry entryPresent
  rw [← length] at indexed
  exact indexed

theorem Program.view_unnumbered (program : Program B) : program.unnumbered.view = program.view := by
  simp [view, unnumbered, ProgramState.unnumbered, ProgramState.key]

/-- Both twins answer alike and lead to twins. -/
structure World.AnswersAlike (close : B.State → B.State → Prop)
    (one other : Response B × World B) : Prop where
  response : other.1.unnumbered = one.1.unnumbered
  twin : Twin close one.2 other.2

namespace World.Twin

variable {close : B.State → B.State → Prop} {world other : World B}
  (twin : Twin close world other)

include twin

theorem version_view {version another : Version B}
    (same : another.unnumbered = version.unnumbered) :
    (Response.versionView (other.versionView another)).unnumbered =
      (Response.versionView (world.versionView version)).unnumbered := by
  have orphaned : other.isOrphaned another = world.isOrphaned version := by
    have owners := congrArg Option.isNone (twin.owner same)
    simpa [isOrphaned] using owners
  have kept : (other.cachedKernels another).length = (world.cachedKernels version).length := by
    have lengths := congrArg List.length (twin.cached_kernels (Version.mk.inj same).1)
    simpa using lengths
  simp only [Response.unnumbered, versionView, same, orphaned, kept]

theorem respond_with {Value Kept : Type} {view : Value → Kept} {response : Value → Response B}
    {answer otherAnswer : Option (Value × World B)}
    (parallel : Parallel close view answer otherAnswer)
    (shown : ∀ value another, view another = view value →
      (response another).unnumbered = (response value).unnumbered) :
    AnswersAlike close (world.respondWith response answer)
      (other.respondWith response otherAnswer) := by
  cases parallel with
  | none => exact ⟨rfl, twin⟩
  | some same after => exact ⟨shown _ _ same, after⟩

/-- The same for an operation, which concludes with the world that a response comes with. -/
theorem conclude {Value Kept : Type} {view : Value → Kept} {response : Value → Response B}
    {answer otherAnswer : Option (Value × World B)} (conclusion : Value → Answer B)
    (parallel : Parallel close view answer otherAnswer)
    (shown : ∀ value another, view another = view value →
      (response another).unnumbered = (response value).unnumbered) :
    AnswersAlike close
      ((world.respondWith response answer).1, (world.conclude conclusion answer).2)
      ((other.respondWith response otherAnswer).1, (other.conclude conclusion otherAnswer).2) := by
  have alike := twin.respond_with parallel shown
  cases parallel <;> exact alike

end World.Twin

namespace Archive

/-- The worlds are twins, and the versions are the same up to identifiers. -/
structure Twin (close : B.State → B.State → Prop) (archive other : Archive B) : Prop where
  world : World.Twin close archive.world other.world
  versions : other.versions.map Version.unnumbered = archive.versions.map Version.unnumbered

namespace Twin

variable {close : B.State → B.State → Prop} {archive other : Archive B}
  (twin : Twin close archive other) (respects : B.Respects close)

include twin

theorem lookup (serial : Nat) :
    (other.versions[serial]?).map Version.unnumbered =
      (archive.versions[serial]?).map Version.unnumbered := by
  rw [← List.getElem?_map, twin.versions, List.getElem?_map]

theorem ask {Value Kept : Type} {view : Value → Kept}
    (call : World B → Version B → Option (Value × World B))
    (parallel : ∀ version another, version ∈ archive.versions →
      another.unnumbered = version.unnumbered →
        World.Parallel close view (call archive.world version) (call other.world another))
    (serial : Nat) :
    World.Parallel close view (archive.versions[serial]?.bind (call archive.world))
      (other.versions[serial]?.bind (call other.world)) := by
  cases lookup : archive.versions[serial]? with
  | none =>
      rw [none_of_map_eq (twin.lookup serial) lookup]
      exact .none
  | some version =>
      obtain ⟨another, otherLookup, same⟩ := some_of_map_eq (twin.lookup serial) lookup
      rw [otherLookup]
      exact parallel version another (List.mem_of_getElem? lookup) same

theorem inspect_manager (manager : Nat) :
    other.respond (.inspectManager manager) = archive.respond (.inspectManager manager) := by
  simp only [respond, World.serve]
  cases lookup : archive.world.managers[manager]? with
  | none => rw [twin.world.unmanaged lookup]
  | some found =>
      obtain ⟨service, otherLookup, _⟩ := twin.world.managed lookup
      rw [otherLookup]
      rfl

theorem inspect_program (program : Nat) :
    other.respond (.inspectProgram program) = archive.respond (.inspectProgram program) := by
  simp only [respond, World.serve]
  cases present : archive.world.program? program with
  | none => rw [twin.world.absent present]
  | some found =>
      obtain ⟨another, otherPresent, same⟩ :=
        some_of_map_eq (twin.world.programs program) present
      have views : another.view = found.view := by
        rw [← another.view_unnumbered, same, found.view_unnumbered]
      rw [otherPresent]
      exact congrArg Response.programView views

theorem inspect_version (serial : Nat) :
    (other.respond (.inspectVersion serial)).unnumbered =
      (archive.respond (.inspectVersion serial)).unnumbered := by
  simp only [respond, World.serve]
  cases lookup : archive.versions[serial]? with
  | none =>
      rw [none_of_map_eq (twin.lookup serial) lookup]
      rfl
  | some version =>
      obtain ⟨another, otherLookup, same⟩ := some_of_map_eq (twin.lookup serial) lookup
      rw [otherLookup]
      exact twin.world.version_view same

include respects

theorem active_kernels (sound : archive.Sound) (program : Nat) :
    World.Parallel close (Except.map Kernels.unnumbered) (archive.world.activeKernels program)
      (other.world.activeKernels program) := by
  unfold World.activeKernels
  apply (twin.world.active_version respects program).bind
  intro outcome otherOutcome between otherBetween answered same after
  cases agree_of_map_eq same with
  | error error => exact .some rfl after
  | ok versions =>
      -- The version may be a new one, which only the archive after the first call has.
      have held := (sound.resolved_version answered).held
      have fits := (sound.after (.operate (.activeVersion program))).fits held
      rw [after_active_version answered] at fits
      exact after.kernels_of respects versions fits

theorem perform (sound : archive.Sound) (operation : Operation) :
    World.AnswersAlike close
      (archive.world.reply operation, (archive.world.perform operation).2)
      (other.world.reply operation, (other.world.perform operation).2) := by
  have world := twin.world
  cases operation with
  | newProgram manager desc defines =>
      apply world.conclude _ (world.new_program manager desc defines)
      intro serial another same
      exact congrArg Response.number same
  | dropProgram program =>
      have dropped := world.drop_program program
      simp only [World.reply, World.perform]
      generalize archive.world.dropProgram program = next at dropped ⊢
      generalize other.world.dropProgram program = otherNext at dropped ⊢
      cases dropped with
      | none => exact ⟨rfl, world⟩
      | some after => exact ⟨rfl, after⟩
  | editProgram program edit =>
      apply world.conclude _ (world.edit_program program edit)
      intro changed another same
      exact congrArg Response.flag same
  | resetProgram program => exact ⟨rfl, world.reset program⟩
  | editSettings manager edit => exact ⟨rfl, world.edit_settings manager edit⟩
  | reload manager force =>
      obtain ⟨same, after⟩ := world.reload manager force
      exact ⟨congrArg Response.flag same, after⟩
  | activeVersion program =>
      apply world.conclude _ (world.active_version respects program)
      intro outcome another same
      exact congrArg (Response.version "") same
  | activeKernels program =>
      apply world.conclude _ (twin.active_kernels respects sound program)
      intro outcome another same
      exact congrArg (Response.kernels "") same

theorem serve (sound : archive.Sound) (request : Request) :
    World.AnswersAlike close (archive.world.serve archive.versions request)
      (other.world.serve other.versions request) := by
  have world := twin.world
  cases request with
  | operate operation => exact twin.perform respects sound operation
  | createVersion manager program log =>
      apply world.respond_with (world.create_version respects manager program log)
      rintro ⟨log, outcome⟩ ⟨otherLog, another⟩ same
      obtain ⟨logs, outcomes⟩ := Logged.mk.inj same
      exact congrArg₂ Response.version logs outcomes
  | kernelsOf serial =>
      have asked := twin.ask World.kernelsOf (fun version another held same =>
        world.kernels_of respects same (sound.fits held)) serial
      apply world.respond_with asked
      intro outcome another same
      exact congrArg (Response.kernels "") same
  | createKernels manager program serial log =>
      have asked := twin.ask
        (fun one version => one.createKernels manager program version log)
        (fun version another held same =>
          world.create_kernels respects same (sound.fits held) manager program log) serial
      apply world.respond_with asked
      rintro ⟨log, outcome⟩ ⟨otherLog, another⟩ same
      obtain ⟨logs, outcomes⟩ := Logged.mk.inj same
      exact congrArg₂ Response.kernels logs outcomes
  | addSearchPath manager path =>
      obtain ⟨same, after⟩ := world.add_search_path manager path
      exact ⟨congrArg Response.flag same, after⟩
  | findFile manager path =>
      have same := world.find_file manager path
      exact ⟨congrArg Response.file same, world⟩
  | resetCounts manager => exact ⟨rfl, world.reset_counts manager⟩
  | inspectManager manager =>
      exact ⟨congrArg Response.unnumbered (twin.inspect_manager manager), world⟩
  | inspectProgram program =>
      exact ⟨congrArg Response.unnumbered (twin.inspect_program program), world⟩
  | inspectVersion serial => exact ⟨twin.inspect_version serial, world⟩

theorem active_made (program : Nat) :
    (other.world.activeMade? program).map Version.unnumbered =
      (archive.world.activeMade? program).map Version.unnumbered := by
  have answered := twin.world.active_version respects program
  unfold World.activeMade?
  generalize archive.world.activeVersion program = answer at answered ⊢
  generalize other.world.activeVersion program = otherAnswer at answered ⊢
  cases answered with
  | none => rfl
  | some same after =>
      cases agree_of_map_eq same with
      | error error => rfl
      | ok versions =>
          simp only [(Version.mk.inj versions).1, twin.world.versionCount]
          split
          next => exact congrArg some versions
          next => rfl

theorem made (request : Request) :
    (other.world.made? request).map Version.unnumbered =
      (archive.world.made? request).map Version.unnumbered := by
  cases request with
  | operate operation =>
      cases operation with
      | activeVersion program => exact twin.active_made respects program
      | activeKernels program => exact twin.active_made respects program
      | _ => rfl
  | createVersion manager program log =>
      have created := twin.world.create_version respects manager program log
      simp only [World.made?]
      generalize archive.world.createVersion manager program log = answer at created ⊢
      generalize other.world.createVersion manager program log = otherAnswer at created ⊢
      cases created with
      | none => rfl
      | some same after =>
          have outcomes := congrArg Except.toOption (Logged.mk.inj same).2
          rw [except_to_option_map, except_to_option_map] at outcomes
          exact outcomes
  | _ => rfl

theorem after (sound : archive.Sound) (request : Request) :
    Twin close (archive.after request) (other.after request) := by
  refine ⟨(twin.serve respects sound request).twin, ?_⟩
  have made := twin.made respects request
  simp only [Archive.after, List.map_append, twin.versions, ← Option.toList_map, made]

end Twin

end Archive

end ShaderCache
