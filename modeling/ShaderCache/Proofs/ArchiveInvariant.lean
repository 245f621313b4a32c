import ShaderCache.Proofs.Archive

/-!
# The invariant of archives

What a request can do to programs and versions is said once. From it follows that every archive
that a run of requests reaches is sound: its world is, and each version that was made belongs to
the one program it was made for, whatever that program has forgotten since.
-/

set_option autoImplicit false

namespace ShaderCache

variable {B : Backend}

namespace Archive

open World (Alters Compiles Creates Drops MakesActive Performs Quiet Supplies changeOf)

/-! ## Steps -/

/-- A program as it goes on: its state may be another one, but it produced nothing except what
was made. -/
structure Remains (made : Option (Version B)) (former later : Program B) : Prop where
  manager : later.manager = former.manager
  desc : later.desc = former.desc
  description : later.description = former.description
  produced : ∀ version ∈ later.state.produced,
    version ∈ former.state.produced ∨ made = some version

theorem remains_refl (made : Option (Version B)) (found : Program B) : Remains made found found :=
  ⟨rfl, rfl, rfl, fun _ => .inl⟩

/-- The ways in which a program can be there after a step. -/
inductive Continues (world : World B) (made : Option (Version B)) (program : Nat)
    (later : Program B) : Prop where
  | newborn (number : world.programCount ≤ program) (indexed : later.desc.Indexed)
      (unproduced : later.state.produced = [])
  | remaining {former : Program B} (present : world.program? program = some former)
      (remains : Remains made former later)

/-- What is known of a version when it is made. -/
structure Made (world : World B) (found : Program B) (version : Version B) : Prop where
  present : world.program? version.program = some found
  serial : version.serial = world.versionCount
  name : version.name = found.description
  length : version.compiled.entryPoints.length = found.desc.entryPoints.length

structure Advances (archive : Archive B) (made : Option (Version B)) (next : World B) : Prop where
  versionCount : next.versionCount = archive.world.versionCount + made.toList.length
  programCount : archive.world.programCount ≤ next.programCount
  programs : ∀ program later, next.program? program = some later →
    Continues archive.world made program later
  /-- Versions are cut off only from programs that are gone. -/
  orphans : ∀ serial ∈ next.orphans, serial ∈ archive.world.orphans ∨
    ∃ version ∈ archive.versions, version.serial = serial ∧
      next.program? version.program = none
  made : ∀ version, made = some version → ∃ found, Made archive.world found version

namespace Advances

variable {archive : Archive B} {made : Option (Version B)} {next later : World B}

theorem altered {change : Nat → ProgramState B → ProgramState B}
    (alters : Alters archive.world next change)
    (produced : ∀ program state, (change program state).produced = state.produced) :
    Advances archive none next where
  versionCount := alters.versionCount
  programCount := Nat.le_of_eq alters.programCount.symm
  programs program later present := by
    obtain ⟨former, formerPresent, rfl⟩ := alters.program present
    exact .remaining formerPresent
      ⟨rfl, rfl, rfl, fun version isProduced => .inl (produced program former.state ▸ isProduced)⟩
  orphans serial orphaned := .inl (alters.orphans ▸ orphaned)
  made version none := nomatch none

theorem quiet (quiet : Quiet archive.world next) : Advances archive none next :=
  altered quiet.alters fun _ _ => rfl

/-- Managers and kernels take no part in a step. -/
theorem followed (advances : Advances archive made next) (quiet : Quiet next later) :
    Advances archive made later where
  versionCount := quiet.versionCount.trans advances.versionCount
  programCount := quiet.programCount.symm ▸ advances.programCount
  programs program found present := advances.programs program found (quiet.programs _ ▸ present)
  orphans serial orphaned := by
    rcases advances.orphans serial (quiet.orphans ▸ orphaned) with earlier | ⟨version, fresh⟩
    · exact .inl earlier
    · rw [← quiet.programs] at fresh
      exact .inr ⟨version, fresh⟩
  made := advances.made

theorem created {manager : Nat} {found : Manager B} {desc : ProgramDesc} {defines : DefineList}
    (creates : Creates manager found
      (archive.world.newbornOf manager found desc defines) archive.world next) :
    Advances archive none next where
  versionCount := creates.versionCount
  programCount := by
    rw [creates.programCount]
    exact Nat.le_succ _
  programs program later present := by
    rw [creates.programs] at present
    split at present
    next number =>
      cases present
      exact .newborn (Nat.le_of_eq number.symm) (ProgramDesc.indexed_finalize desc) rfl
    next => exact .remaining present (remains_refl none later)
  orphans serial orphaned := .inl (creates.orphans ▸ orphaned)
  made version none := nomatch none

theorem resolved {program : Nat} {found : Program B}
    (present : archive.world.program? program = some found)
    (makes : MakesActive archive.world program found made next) : Advances archive made next := by
  cases makes with
  | unmade alters produced => exact .altered alters (World.change_of_keeps _ program produced)
  | @made manager compiled _ managed makes quiet =>
      let version := archive.world.freshVersion program found compiled
      refine ⟨?_, ?_, ?_, ?_, ?_⟩
      · simp [quiet.versionCount]
      · simp [quiet.programCount]
      · intro other later laterPresent
        have alters := (World.alters_modify_state
          { archive.world with versionCount := archive.world.versionCount + 1 } program
          _).followed quiet
        obtain ⟨former, formerPresent, rfl⟩ := alters.program laterPresent
        refine .remaining formerPresent ⟨rfl, rfl, rfl, ?_⟩
        intro rival isProduced
        refine (World.mem_produced_committed.mp isProduced).imp_right ?_
        rintro ⟨_, rfl⟩
        rfl
      · intro serial orphaned
        exact .inl (by simpa [quiet.orphans] using orphaned)
      · rintro _ ⟨⟩
        exact ⟨found, present, rfl, rfl, compile_outcome_entries makes⟩

/-- Writing settings changes no programs. -/
theorem written {operation : Operation}
    (advances : Advances ⟨archive.world.written operation, archive.versions⟩ made next) :
    Advances archive made next := by
  cases operation with
  | editSettings manager edit =>
      refine ⟨advances.versionCount, advances.programCount, ?_, advances.orphans, ?_⟩
      · intro program later present
        cases advances.programs program later present with
        | newborn number indexed unproduced => exact .newborn number indexed unproduced
        | remaining former remains => exact .remaining former remains
      · intro version isMade
        obtain ⟨found, facts⟩ := advances.made version isMade
        exact ⟨found, facts.present, facts.serial, facts.name, facts.length⟩
  | _ => exact advances

theorem supplied {version : Version B} {owner : Program B}
    {outcome : Except ProgramError (Kernels B)} (advances : Advances archive made next)
    (supplies : Supplies next version owner outcome later) : Advances archive made later := by
  obtain ⟨kernels, quiet, _⟩ := supplies.quiet
  have unkept : Advances archive made { next with kernels := kernels } :=
    ⟨advances.versionCount, advances.programCount, advances.programs, advances.orphans,
      advances.made⟩
  exact unkept.followed quiet

theorem searched (manager : Nat) (path : Path) :
    Advances archive none (archive.world.addSearchPath manager path).2 := by
  unfold World.addSearchPath
  split
  next =>
    exact ⟨rfl, Nat.le_refl _, fun _ later present => .remaining present (remains_refl none later),
      fun _ => .inl, fun _ none => nomatch none⟩
  next => exact .quiet (Quiet.refl _)

end Advances

theorem made_of_untargeted {world : World B} {operation : Operation} {program : Nat}
    (target : operation.target? = some program) (absent : world.program? program = none) :
    world.made? (.operate operation) = none := by
  have unmade : world.activeMade? program = none := by
    simp [World.activeMade?, World.active_version_absent world absent]
  cases operation with
  | activeVersion called =>
      cases target
      exact unmade
  | activeKernels called =>
      cases target
      exact unmade
  | _ => rfl

theorem made_of_sweeping {world : World B} {operation : Operation}
    (sweeping : operation.sweeping = true) : world.made? (.operate operation) = none := by
  cases operation with
  | resetProgram | editSettings | reload => rfl
  | _ => simp [Operation.sweeping] at sweeping

/-! ## Soundness -/

/-- The versions of an archive belong to the programs of its world, dead or alive. -/
structure Sound (archive : Archive B) : Prop where
  world : archive.world.Sound
  size : archive.versions.length = archive.world.versionCount
  serials : ∀ (serial : Nat) (version : Version B), archive.versions[serial]? = some version →
    version.serial = serial
  produced : ∀ program found, archive.world.program? program = some found →
    ∀ version ∈ found.state.produced, version ∈ archive.versions
  programs : ∀ version ∈ archive.versions, version.program < archive.world.programCount
  /-- A version is cut off from its program only when the program is dropped. -/
  owned : ∀ version ∈ archive.versions, ∀ found,
    archive.world.program? version.program = some found →
      version.serial ∉ archive.world.orphans ∧ version.name = found.description ∧
        version.compiled.entryPoints.length = found.desc.entryPoints.length
  indexed : ∀ program found, archive.world.program? program = some found → found.desc.Indexed

namespace Sound

variable {archive : Archive B} (sound : archive.Sound)

include sound

theorem lookup {version : Version B} (held : version ∈ archive.versions) :
    archive.versions[version.serial]? = some version := by
  obtain ⟨place, isAt⟩ := List.mem_iff_getElem?.mp held
  rw [sound.serials place version isAt]
  exact isAt

theorem below {version : Version B} (held : version ∈ archive.versions) :
    version.serial < archive.world.versionCount := by
  rw [← sound.size]
  exact (List.getElem?_eq_some_iff.mp (sound.lookup held)).1

/-- Serial numbers tell versions apart. -/
theorem unique {version other : Version B} (held : version ∈ archive.versions)
    (otherHeld : other ∈ archive.versions) (same : version.serial = other.serial) :
    version = other := by
  have here := sound.lookup held
  rw [same, sound.lookup otherHeld] at here
  exact (Option.some.inj here).symm

theorem owner {version : Version B} (held : version ∈ archive.versions) :
    archive.world.owner? version = archive.world.program? version.program := by
  unfold World.owner?
  split
  next orphaned =>
    cases present : archive.world.program? version.program with
    | none => rfl
    | some found => exact absurd orphaned (sound.owned version held found present).1
  next => rfl

/-- The versions that a drop cuts off are those that the program produced. -/
theorem dropped {next : World B} {program : Nat} {found : Program B}
    (gone : archive.world.program? program = some found)
    (drops : Drops program found archive.world next) : Advances archive none next where
  versionCount := drops.versionCount
  programCount := Nat.le_of_eq drops.programCount.symm
  programs other later present := by
    rw [drops.programs] at present
    split at present
    next => simp at present
    next => exact .remaining present (remains_refl none later)
  orphans serial orphaned := by
    rw [drops.orphans] at orphaned
    rcases List.mem_append.mp orphaned with earlier | fresh
    · exact .inl earlier
    · obtain ⟨version, isProduced, rfl⟩ := List.mem_map.mp fresh
      have owner := (sound.world.owned program found gone version isProduced).1
      refine .inr ⟨version, sound.produced program found gone version isProduced, rfl, ?_⟩
      rw [drops.programs, if_pos owner]
  made version none := nomatch none

/-- Of a version that was there and of one that is made, the same is known. -/
theorem known {made : Option (Version B)} {next : World B}
    (advances : Advances archive made next) {version : Version B}
    (held : version ∈ archive.versions ++ made.toList) :
    version.program < archive.world.programCount ∧ ∀ former,
      archive.world.program? version.program = some former →
        version.serial ∉ archive.world.orphans ∧ version.name = former.description ∧
          version.compiled.entryPoints.length = former.desc.entryPoints.length := by
  rcases List.mem_append.mp held with earlier | last
  · exact ⟨sound.programs version earlier, sound.owned version earlier⟩
  · obtain ⟨found, facts⟩ := advances.made version (Option.mem_toList.mp last)
    refine ⟨sound.world.numbered version.program found facts.present, ?_⟩
    intro former formerPresent
    cases facts.present.symm.trans formerPresent
    refine ⟨?_, facts.name, facts.length⟩
    intro orphaned
    exact Nat.ne_of_lt (sound.world.orphans _ orphaned) facts.serial

/-- A version of a program that is there after a step was not cut off in it. -/
theorem attached {made : Option (Version B)} {next : World B}
    (advances : Advances archive made next) {version : Version B}
    (held : version ∈ archive.versions ++ made.toList) {later : Program B}
    (present : next.program? version.program = some later)
    (stays : version.serial ∉ archive.world.orphans) : version.serial ∉ next.orphans := by
  intro orphaned
  rcases advances.orphans version.serial orphaned with earlier | ⟨rival, rivalHeld, same, gone⟩
  · exact stays earlier
  · rcases List.mem_append.mp held with earlier | last
    · cases sound.unique rivalHeld earlier same
      simp [gone] at present
    · obtain ⟨found, facts⟩ := advances.made version (Option.mem_toList.mp last)
      exact Nat.ne_of_lt (sound.below rivalHeld) (same.trans facts.serial)

theorem advanced {made : Option (Version B)} {next : World B} (soundNext : next.Sound)
    (advances : Advances archive made next) :
    (⟨next, archive.versions ++ made.toList⟩ : Archive B).Sound where
  world := soundNext
  size := by rw [List.length_append, sound.size, advances.versionCount]
  serials place version isAt := by
    rw [List.getElem?_append] at isAt
    split at isAt
    next => exact sound.serials place version isAt
    next beyond =>
      cases isMade : made with
      | none => simp [isMade] at isAt
      | some last =>
          obtain ⟨found, facts⟩ := advances.made last isMade
          rw [isMade, Option.toList_some, List.getElem?_singleton] at isAt
          split at isAt
          next =>
            cases isAt
            rw [facts.serial, ← sound.size]
            omega
          next => simp at isAt
  produced program later present version isProduced := by
    rw [List.mem_append, Option.mem_toList]
    cases advances.programs program later present with
    | newborn number indexed unproduced => simp [unproduced] at isProduced
    | remaining former remains =>
        exact (remains.produced version isProduced).imp_left
          (sound.produced program _ former version)
  programs version held :=
    Nat.lt_of_lt_of_le (sound.known advances held).1 advances.programCount
  owned version held later present := by
    obtain ⟨numbered, owned⟩ := sound.known advances held
    cases advances.programs version.program later present with
    | newborn number => exact absurd number (Nat.not_le_of_lt numbered)
    | @remaining former formerPresent remains =>
        obtain ⟨stays, name, length⟩ := owned former formerPresent
        rw [remains.description, remains.desc]
        exact ⟨sound.attached advances held present stays, name, length⟩
  indexed program later present := by
    cases advances.programs program later present with
    | newborn number indexed unproduced => exact indexed
    | remaining former remains =>
        rw [remains.desc]
        exact sound.indexed program _ former

/-! ## Requests -/

theorem performed {operation : Operation} {answer : Answer B} {next : World B}
    (performs : Performs archive.world operation answer next) :
    Advances archive (archive.world.made? (.operate operation)) next := by
  cases performs with
  | unmanaged absent => exact .quiet (Quiet.refl _)
  | untargeted target absent =>
      rw [made_of_untargeted target absent]
      exact .quiet (Quiet.refl _)
  | created managed creates => exact .created creates
  | dropped present drops => exact sound.dropped present drops
  | @edited program edit found _ present alters ids =>
      exact .altered alters (World.change_of_keeps _ program fun state =>
        (ProgramState.edited_from state edit).produced)
  | swept sweeping alters ids =>
      rw [made_of_sweeping sweeping]
      exact (Advances.altered alters
        (World.reset_due_keeps ProgramState.produced (fun _ => rfl) _)).written
  | resolved present answered resolves =>
      exact .resolved present (sound.world.makes_active present answered resolves)
  | provided present provides =>
      cases provides with
      | unresolved answered resolves =>
          exact .resolved present (sound.world.makes_active present answered resolves)
      | resolved answered resolves settled supplies =>
          exact (Advances.resolved present
            (sound.world.makes_active present answered resolves)).supplied supplies

theorem advances (request : Request) :
    Advances archive (archive.world.made? request)
      (archive.world.serve archive.versions request).2 := by
  have serves := archive.serves sound.world request
  generalize (archive.world.serve archive.versions request).2 = next at serves ⊢
  generalize archive.world.made? request = made at serves ⊢
  cases serves with
  | operated performs => exact sound.performed performs
  | compiled present compiles =>
      cases compiles with
      | failed managed fails quiet ids => exact .quiet quiet
      | made managed makes quiet id ids =>
          refine ⟨quiet.versionCount, Nat.le_of_eq quiet.programCount.symm, ?_, ?_, ?_⟩
          · intro other later laterPresent
            rw [quiet.programs] at laterPresent
            exact .remaining laterPresent (remains_refl _ later)
          · intro serial orphaned
            exact .inl (quiet.orphans ▸ orphaned)
          · rintro _ ⟨⟩
            exact ⟨_, present, rfl, rfl, compile_outcome_entries makes⟩
  | supplied lookup owned answered supplies =>
      exact (Advances.quiet (Quiet.refl _)).supplied supplies
  | searched => exact .searched _ _
  | passed quiet => exact .quiet quiet

/-- The world that a request leaves behind is sound. -/
theorem served (request : Request) :
    (archive.world.serve archive.versions request).2.Sound := by
  have serves := archive.serves sound.world request
  generalize (archive.world.serve archive.versions request).2 = next at serves ⊢
  generalize archive.world.made? request = made at serves
  cases serves with
  | operated performs => exact sound.world.performed performs
  | compiled present compiles =>
      cases compiles with
      | failed managed fails quiet ids => exact sound.world.quiet quiet
      | made managed makes quiet id ids => exact sound.world.count_version.quiet quiet
  | supplied lookup owned answered supplies =>
      exact sound.world.supplies (sound.below (List.mem_of_getElem? lookup)) supplies
  | searched => exact sound.world.searched _ _
  | passed quiet => exact sound.world.quiet quiet

theorem after (request : Request) : (archive.after request).Sound :=
  sound.advanced (sound.served request) (sound.advances request)

/-- Runs keep soundness, by induction on the requests. -/
theorem run (requests : List Request) : (archive.run requests).Sound := by
  induction requests generalizing archive with
  | nil => exact sound
  | cons request rest ih => exact ih (sound.after request)

/-- What is known of a version that a program answers with. -/
structure Resolved (archive : Archive B) (program : Nat) (version : Version B) : Prop where
  held : version ∈ (archive.after (.operate (.activeVersion program))).versions
  owner : version.program = program
  configured : ∃ found, archive.world.program? program = some found ∧
    version.defines = found.state.defines

theorem resolved_version {program : Nat} {version : Version B} {next : World B}
    (answered : archive.world.activeVersion program = some (.ok version, next)) :
    Resolved archive program version := by
  cases present : archive.world.program? program with
  | none => simp [World.active_version_absent _ present] at answered
  | some found =>
      obtain ⟨outcome, later, version_eq, resolves⟩ :=
        sound.world.active_version_resolves present
      cases version_eq.symm.trans answered
      obtain ⟨state, settled⟩ := sound.world.settled present resolves
      have soundAfter := sound.after (.operate (.activeVersion program))
      have after_eq : (archive.after (.operate (.activeVersion program))).world = next :=
        congrArg Archive.world (after_active_version answered)
      have nowPresent := settled.present
      rw [← after_eq] at nowPresent
      have isProduced := soundAfter.world.produced _ _ nowPresent _ settled.kept
      refine ⟨soundAfter.produced _ _ nowPresent _ isProduced, ?_, found, present, ?_⟩
      · exact (soundAfter.world.owned _ _ nowPresent _ isProduced).1
      · exact (soundAfter.world.coherent _ _ nowPresent).defines _ _ settled.kept

end Sound

theorem sound_opening (files : FileTree) (managers : List (Manager B)) :
    (opening files managers).Sound where
  world := World.sound_opening files managers
  size := rfl
  serials serial version isAt := by simp [opening] at isAt
  produced program found present := by simp [opening, World.program_opening] at present
  programs version held := by simp [opening] at held
  owned version held := by simp [opening] at held
  indexed program found present := by simp [opening, World.program_opening] at present

theorem sound_reached (files : FileTree) (managers : List (Manager B))
    (requests : List Request) : ((opening files managers).run requests).Sound :=
  (sound_opening files managers).run requests

end Archive

end ShaderCache
