import ShaderCache.Proofs.Assembly
import ShaderCache.Proofs.KernelsCache
import ShaderCache.Proofs.Origins

/-!
# Origins of kernels

Whoever asks for kernels, and whether they were kept or are linked now, they were linked from a
version that was made, for the conformances that its program is configured with.
-/

set_option autoImplicit false

namespace ShaderCache

variable {B : Backend}

/-! ## Answers -/

/-- What is told of the kernels that a program gets is told of those that it is answered with. -/
theorem Archive.answered_active {archive : Archive B} {program : Nat} {Value : Type}
    {tell : Kernels B → Value} {value : Value}
    (told : (archive.world.activeKernels program).map (fun answer => answer.1.toOption.map tell) =
      some (some value)) :
    ∃ kernels, archive.respond (.operate (.activeKernels program)) = .kernels "" (.ok kernels) ∧
      tell kernels = value := by
  obtain ⟨⟨outcome, next⟩, called, contents⟩ := Option.map_eq_some_iff.mp told
  cases outcome with
  | error error => simp [Except.toOption] at contents
  | ok kernels =>
      refine ⟨kernels, ?_, Option.some.inj contents⟩
      simp only [respond, World.serve, World.reply, called, World.respondWith]

theorem World.answered_kernels {world : World B}
    {answer : Option (Except ProgramError (Kernels B) × World B)} {noted log : String}
    {kernels : Kernels B}
    (answered : (world.respondWith (.kernels noted) answer).1 = .kernels log (.ok kernels)) :
    ∃ next, answer = some (.ok kernels, next) := by
  cases answer with
  | none => simp [World.respondWith] at answered
  | some pair =>
      simp only [World.respondWith, Response.kernels.injEq] at answered
      exact ⟨pair.2, by rw [← answered.2]⟩

theorem World.respond_with_other {Value : Type} {world : World B} {response : Value → Response B}
    {call : Option (Value × World B)} {log : String} {kernels : Kernels B}
    (other : ∀ value, response value ≠ .kernels log (.ok kernels)) :
    (world.respondWith response call).1 ≠ .kernels log (.ok kernels) := by
  cases call with
  | none => simp [World.respondWith]
  | some pair => exact other pair.1

theorem World.inspected_other {Value : Type} {found : Option Value} {view : Value → Response B}
    {answer : Response B} (spoken : answer ≠ .silence) (other : ∀ value, view value ≠ answer) :
    found.elim .silence view ≠ answer := by
  cases found with
  | none => exact spoken.symm
  | some value => exact other value

theorem World.create_kernels_linked {world next : World B} {manager program : Nat}
    {version : Version B} {log : String} {logged : Logged (Kernels B)} {kernels : Kernels B}
    (created : world.createKernels manager program version log = some (logged, next))
    (succeeds : logged.outcome = .ok kernels) :
    ∃ owner, world.program? version.program = some owner ∧ ∃ work : Work B.State,
      linkOutcome owner.desc owner.description owner.state.conformances version.linkInput work =
        .ok kernels.linked := by
  rcases World.create_kernels_ends created with ⟨_, error, fails⟩ | ⟨owner, owned, links⟩
  · rw [succeeds] at fails
    cases fails
  · obtain ⟨work, _, outcome_eq⟩ := links.outcome
    rw [succeeds] at outcome_eq
    exact ⟨owner, World.program_of_owner owned, work, outcome_eq⟩

namespace Archive

open World (Supplies)

variable {archive : Archive B}

/-- The kernels are what a version was linked to for what its program is configured with. -/
structure LinksTo (archive : Archive B) (version : Version B) (found : Program B)
    (kernels : Kernels B) : Prop where
  held : version ∈ archive.versions
  present : archive.world.program? version.program = some found
  linked : ∃ work : Work B.State, linkOutcome found.desc found.description
    found.state.conformances version.linkInput work = .ok kernels.linked

/-- The version that a request asks kernels of. For a program it is the one that answers a call for
its active version. -/
def asked? (archive : Archive B) : Request → Option (Version B)
  | .kernelsOf serial => archive.versions[serial]?
  | .createKernels _ _ serial _ => archive.versions[serial]?
  | .operate (.activeKernels program) =>
      (archive.world.activeVersion program).bind fun answer => answer.1.toOption
  | _ => none

theorem Kept.links_supplied (kept : archive.Kept) (sound : archive.Sound) {version : Version B}
    (held : version ∈ archive.versions) {owner : Program B}
    (present : archive.world.program? version.program = some owner) {kernels : Kernels B}
    {next : World B} (supplies : Supplies archive.world version owner (.ok kernels) next) :
    LinksTo ⟨next, archive.versions⟩ version owner kernels := by
  obtain ⟨work, _, linked⟩ := kept.supplied sound held present supplies
  obtain ⟨_, quiet, _⟩ := supplies.quiet
  exact ⟨held, (quiet.programs _).trans present, work, linked⟩

theorem Kept.links_kernels_of (kept : archive.Kept) (sound : archive.Sound) {serial : Nat}
    {log : String} {kernels : Kernels B}
    (answered : archive.respond (.kernelsOf serial) = .kernels log (.ok kernels)) :
    ∃ version found, archive.asked? (.kernelsOf serial) = some version ∧
      LinksTo (archive.after (.kernelsOf serial)) version found kernels := by
  obtain ⟨next, called⟩ := World.answered_kernels answered
  obtain ⟨version, lookup, answers⟩ := Option.bind_eq_some_iff.mp called
  have held := List.mem_of_getElem? lookup
  cases owned : archive.world.owner? version with
  | none => simp [World.kernelsOf, owned] at answers
  | some owner =>
      obtain ⟨setup, managed⟩ := setup_of_owner sound.world owned
      obtain ⟨outcome, later, kernels_eq, supplies⟩ :=
        archive.world.kernels_of_supplies owned managed
      cases kernels_eq.symm.trans answers
      rw [after_kernels_of lookup answers]
      exact ⟨version, owner, lookup,
        kept.links_supplied sound held (World.program_of_owner owned) supplies⟩

theorem Kept.links_active_kernels (kept : archive.Kept) (sound : archive.Sound) {program : Nat}
    {log : String} {kernels : Kernels B}
    (answered : archive.respond (.operate (.activeKernels program)) = .kernels log (.ok kernels)) :
    ∃ version found, archive.asked? (.operate (.activeKernels program)) = some version ∧
      LinksTo (archive.after (.operate (.activeKernels program))) version found kernels := by
  obtain ⟨next, called⟩ := World.answered_kernels answered
  cases present : archive.world.program? program with
  | none => simp [World.active_kernels_absent _ present] at called
  | some found =>
      obtain ⟨outcome, later, kernels_eq, provides⟩ := sound.world.active_kernels_provides present
      cases kernels_eq.symm.trans called
      cases provides with
      | @resolved version state between _ _ resolved resolves settled supplies =>
          -- The version is asked for its kernels in the archive that the first call leaves.
          have soundBetween := sound.after (.operate (.activeVersion program))
          have keptBetween := kept.after sound (.operate (.activeVersion program))
          have facts := sound.resolved_version resolved
          have held := facts.held
          rw [after_active_version resolved] at soundBetween keptBetween held
          have nowPresent := settled.present
          rw [← facts.owner] at nowPresent
          have asked : archive.asked? (.operate (.activeKernels program)) = some version := by
            rw [asked?, resolved]
            rfl
          rw [after_active_kernels called]
          exact ⟨version, _, asked,
            keptBetween.links_supplied soundBetween held nowPresent supplies⟩

theorem links_created {manager program serial : Nat} {asked log : String} {kernels : Kernels B}
    (answered : archive.respond (.createKernels manager program serial asked) =
      .kernels log (.ok kernels)) :
    ∃ version found,
      archive.asked? (.createKernels manager program serial asked) = some version ∧
      LinksTo (archive.after (.createKernels manager program serial asked)) version found
        kernels := by
  cases called : archive.versions[serial]?.bind fun version =>
      archive.world.createKernels manager program version asked with
  | none => simp [respond, World.serve, called, World.respondWith] at answered
  | some pair =>
      obtain ⟨logged, next⟩ := pair
      obtain ⟨version, lookup, created⟩ := Option.bind_eq_some_iff.mp called
      have succeeds : logged.outcome = .ok kernels := by
        simp only [respond, World.serve, called, World.respondWith, Response.kernels.injEq]
          at answered
        exact answered.2
      have after_eq : archive.after (.createKernels manager program serial asked) =
          ⟨next, archive.versions⟩ := by
        simp [after, World.serve, called, World.respondWith, World.made?]
      obtain ⟨owner, present, work, linked⟩ := World.create_kernels_linked created succeeds
      have quiet := World.quiet_create_kernels created
      rw [after_eq]
      exact ⟨version, owner, lookup, List.mem_of_getElem? lookup, (quiet.programs _).trans present,
        work, linked⟩

/-- Whoever answers with kernels, they were linked from the version that was asked. -/
theorem Kept.answered_asked (kept : archive.Kept) (sound : archive.Sound) {request : Request}
    {log : String} {kernels : Kernels B}
    (answered : archive.respond request = .kernels log (.ok kernels)) :
    ∃ version found, archive.asked? request = some version ∧
      LinksTo (archive.after request) version found kernels := by
  cases request with
  | kernelsOf serial => exact kept.links_kernels_of sound answered
  | createKernels manager program serial asked => exact links_created answered
  | operate operation =>
      cases operation with
      | activeKernels program => exact kept.links_active_kernels sound answered
      | newProgram | editProgram | activeVersion =>
          exact absurd answered (World.respond_with_other fun _ => by simp)
      | _ => simp [respond, World.serve, World.reply] at answered
  | createVersion => exact absurd answered (World.respond_with_other fun _ => by simp)
  | inspectManager | inspectProgram | inspectVersion =>
      exact absurd answered (World.inspected_other (by simp) fun _ => by simp)
  | _ => simp [respond, World.serve] at answered

theorem Kept.answered_links (kept : archive.Kept) (sound : archive.Sound) {request : Request}
    {log : String} {kernels : Kernels B}
    (answered : archive.respond request = .kernels log (.ok kernels)) :
    ∃ version found, LinksTo (archive.after request) version found kernels := by
  obtain ⟨version, found, _, links⟩ := kept.answered_asked sound answered
  exact ⟨version, found, links⟩

/-- They were put together of the entry points of the program, under its conformances. -/
theorem Kept.answered_assembles (kept : archive.Kept) (sound : archive.Sound) {request : Request}
    {log : String} {kernels : Kernels B}
    (answered : archive.respond request = .kernels log (.ok kernels)) :
    ∃ version found entries named,
      version ∈ (archive.after request).versions ∧
      (archive.after request).world.program? version.program = some found ∧
      kernels.linked.versionId = version.id ∧
      kernels.linked.conformances = found.state.conformances ∧
      LinkedKernels.Assembles found.desc kernels.linked.conformances version.linkInput entries named
        kernels.linked := by
  obtain ⟨version, found, held, present, work, makes⟩ := kept.answered_links sound answered
  obtain ⟨entries, named, assembles⟩ :=
    link_outcome_yields (LinkedKernels.yields_job _ _ version.linkInput) makes
  obtain ⟨versionId, conformances⟩ := link_outcome_labels makes
  refine ⟨version, found, entries, named, held, present, versionId, conformances, ?_⟩
  rw [conformances]
  exact assembles

end Archive

end ShaderCache
