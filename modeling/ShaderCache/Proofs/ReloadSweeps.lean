import Mathlib.Data.List.Induction
import ShaderCache.Proofs.Lifetimes

/-!
# Reload sweeps

A sweep reaches the programs that are registered with its manager, and these are the ones that
were made by it and are not dropped. A sweep that is not forced passes by a program that has
nothing to forget. Such a program is as it would be after a reset, so nobody can tell whether a
sweep was forced except by its answer and its report.
-/

set_option autoImplicit false

namespace ShaderCache

variable {B : Backend}

namespace World

/-! ## Registries -/

/-- Whoever is listed at a manager is alive and was made by it. -/
def Enlisted (world : World B) : Prop :=
  ∀ manager, ∀ program ∈ world.registry manager,
    ∃ found, world.program? program = some found ∧ found.manager = manager

variable {world next : World B}

theorem alive_of_registered {manager program : Nat}
    (listed : program ∈ world.registered manager) :
    ∃ found, world.program? program = some found :=
  Option.isSome_iff_exists.mp (List.mem_filter.mp listed).2

/-- Where nobody else is listed, a sweep gets hold of all that are listed. -/
theorem Enlisted.registered (enlisted : world.Enlisted) (manager : Nat) :
    world.registered manager = world.registry manager := by
  apply List.filter_eq_self.mpr
  intro program listed
  obtain ⟨found, present, _⟩ := enlisted manager program listed
  rw [present, Option.isSome_some]

theorem Creates.registry {manager : Nat} {found : Manager B} {program : Program B}
    (creates : Creates manager found program world next)
    (managed : world.managers[manager]? = some found) (other : Nat) :
    next.registry other =
      world.registry other ++ if other = manager then [world.programCount] else [] := by
  simp only [registry_of_setup, creates.setups]
  by_cases here : other = manager
  · simp [here, world.setup_of_manager managed, Manager.setup]
  · simp [here]

/-- A drop takes the program off the list of its manager and leaves the other lists alone. -/
theorem Drops.registry {program : Nat} {found : Program B}
    (drops : Drops program found world next) (manager : Nat) :
    next.registry manager =
      if manager = found.manager then (world.registry manager).filter (· ≠ program)
      else world.registry manager := by
  simp only [registry_of_setup, drops.setups]
  split
  next => cases world.setup? manager <;> rfl
  next => rfl

/-- Other managers do not list the program, so it is off every list. -/
theorem Drops.unlists {program : Nat} {found : Program B}
    (drops : Drops program found world next) (enlisted : world.Enlisted)
    (present : world.program? program = some found) (manager : Nat) :
    next.registry manager = (world.registry manager).filter (· ≠ program) := by
  rw [drops.registry]
  split
  next => rfl
  next elsewhere =>
    symm
    apply List.filter_eq_self.mpr
    intro other listed
    obtain ⟨owner, alive, made⟩ := enlisted manager other listed
    have differs : other ≠ program := by
      rintro rfl
      cases alive.symm.trans present
      exact elsewhere made.symm
    simp [differs]

theorem registry_search (world : World B) (manager other : Nat) (path : Path) :
    (world.addSearchPath manager path).2.registry other = world.registry other := by
  unfold addSearchPath
  split
  next found managed =>
    exact registry_modify_manager world
      (fun former => { former with resolver := (found.resolver.add path).2 }) (fun _ => rfl)
      manager other
  next => rfl

theorem registry_reload (world : World B) (manager other : Nat) (force : Bool) :
    (world.reload manager force).2.registry other = world.registry other := by
  simp only [registry_of_setup, (alters_reload world manager force).setups]

/-! ## What a sweep leaves -/

theorem reset_all_eq (world : World B) (due : List Nat) :
    due.foldl resetProgram world =
      { world with programs := (due.foldl resetProgram world).programs } := by
  induction due generalizing world with
  | nil => rfl
  | cons first rest ih =>
      rw [List.foldl_cons, ih, resetProgram, modify_state_eq]

end World

namespace ProgramState.Coherent

variable {state : ProgramState B}

/-- What can be forgotten is versions: an active one is among them. -/
theorem has_cached_state_iff (coherent : state.Coherent) :
    state.hasCachedState = true ↔ state.versions ≠ [] := by
  constructor
  · intro remembers none
    simp [hasCachedState, none, (coherent.without_versions none).2] at remembers
  · intro kept
    simp [hasCachedState, kept]

theorem reset_without_versions (coherent : state.Coherent) (none : state.versions = []) :
    state.reset = state := by
  obtain ⟨dirty, active⟩ := coherent.without_versions none
  simp only [reset, ← dirty, ← active, ← none]

end ProgramState.Coherent

namespace World

variable {world : World B}

theorem has_cached_state_of {program : Nat} {found : Program B}
    (present : world.program? program = some found) :
    world.hasCachedState program = found.state.hasCachedState := by
  simp only [hasCachedState, present]

/-- Whether it is forced or not, a sweep leaves every registered program as a reset would. -/
theorem Sound.program_reload (sound : world.Sound) (manager : Nat) (force : Bool)
    (program : Nat) :
    (world.reload manager force).2.program? program =
      (world.program? program).map fun found =>
        { found with state := resetDue (world.registered manager) program found.state } := by
  rw [(alters_reload world manager force).programs]
  cases present : world.program? program with
  | none => rfl
  | some found =>
      have coherent := sound.coherent program found present
      have passed : program ∈ world.registered manager →
          program ∉ world.dueForReset manager force → found.state.reset = found.state := by
        intro listed undue
        apply coherent.reset_without_versions
        by_contra kept
        have remembers := coherent.has_cached_state_iff.mpr kept
        rw [← has_cached_state_of present] at remembers
        exact undue (List.mem_filter.mpr ⟨listed, by simp [remembers]⟩)
      have due_listed : program ∈ world.dueForReset manager force →
          program ∈ world.registered manager := List.mem_of_mem_filter
      simp only [Option.map_some, resetDue]
      by_cases listed : program ∈ world.registered manager
      · by_cases due : program ∈ world.dueForReset manager force
        · simp [listed, due]
        · simp [listed, due, passed listed due]
      · simp [listed, mt due_listed listed]

theorem Sound.reload_unforced (sound : world.Sound) (manager : Nat) :
    { (world.reload manager true).2 with events := [] } =
      { (world.reload manager false).2 with events := [] } := by
  have programs : (world.reload manager true).2.programs =
      (world.reload manager false).2.programs := by
    refine SortedMap.eq_of_get_eq fun program => ?_
    exact (sound.program_reload manager true program).trans
      (sound.program_reload manager false program).symm
  simp only [reload, emit] at programs ⊢
  rw [reset_all_eq, programs, ← reset_all_eq]

theorem Sound.reload_flag (sound : world.Sound) (manager : Nat) (force : Bool) :
    (world.reload manager force).1 = true ↔
      (force = true ∧ world.registered manager ≠ []) ∨
        ∃ program ∈ world.registered manager, ∃ found,
          world.program? program = some found ∧ found.state.versions ≠ [] := by
  have remembers : ∀ program, world.hasCachedState program = true ↔
      ∃ found, world.program? program = some found ∧ found.state.versions ≠ [] := by
    intro program
    cases present : world.program? program with
    | none => simp [hasCachedState, present]
    | some found =>
        rw [has_cached_state_of present,
          (sound.coherent program found present).has_cached_state_iff]
        simp
  have flag : (world.reload manager force).1 = true ↔
      ∃ program ∈ world.registered manager,
        force = true ∨ world.hasCachedState program = true := by
    have nonempty : (world.reload manager force).1 = true ↔
        ∃ program, program ∈ world.dueForReset manager force := by
      rw [reload, Bool.not_eq_true', List.isEmpty_eq_false_iff_exists_mem]
    simp only [nonempty, dueForReset, List.mem_filter, Bool.or_eq_true]
  simp only [flag, ← remembers]
  constructor
  · rintro ⟨program, listed, forced | kept⟩
    · exact .inl ⟨forced, List.ne_nil_of_mem listed⟩
    · exact .inr ⟨program, listed, kept⟩
  · rintro (⟨forced, nonempty⟩ | ⟨program, listed, kept⟩)
    · obtain ⟨program, listed⟩ := List.exists_mem_of_ne_nil _ nonempty
      exact ⟨program, listed, .inl forced⟩
    · exact ⟨program, listed, .inr kept⟩

theorem registered_reload (world : World B) (manager other : Nat) (force : Bool) :
    (world.reload manager force).2.registered other = world.registered other := by
  have alive : ∀ program, ((world.reload manager force).2.program? program).isSome =
      (world.program? program).isSome := by
    intro program
    rw [(alters_reload world manager force).programs, Option.isSome_map]
  simp only [registered, registry_reload, alive]

theorem Sound.reload_again (sound : world.Sound) (manager : Nat) (force : Bool) :
    ((world.reload manager force).2.reload manager false).1 = false := by
  have soundSwept := sound.reset_due _ (alters_reload world manager force)
  rw [Bool.eq_false_iff, ne_eq, soundSwept.reload_flag]
  rintro (⟨forced, _⟩ | ⟨program, listed, later, present, kept⟩)
  · simp at forced
  · rw [registered_reload] at listed
    rw [sound.program_reload] at present
    obtain ⟨found, _, rfl⟩ := Option.map_eq_some_iff.mp present
    simp [resetDue, listed, ProgramState.reset] at kept

end World

namespace Request

def dropped? : Request → Option Nat
  | .operate (.dropProgram program) => some program
  | _ => none

theorem dropped_iff {request : Request} {program : Nat} :
    request.dropped? = some program ↔ request = .operate (.dropProgram program) := by
  cases request with
  | operate operation => cases operation <;> simp [dropped?]
  | _ => simp [dropped?]

end Request

namespace World

/-- The program that a request makes and registers with a manager, if it makes one. -/
def enrolled (world : World B) (manager : Nat) : Request → List Nat
  | .operate (.newProgram maker _ _) =>
      if manager = maker ∧ (world.setup? maker).isSome then [world.programCount] else []
  | _ => []

/-- A request takes who is dropped off the list of a manager, and puts who is made at its end. -/
def Enrols (world : World B) (request : Request) (manager : Nat) (next : World B) : Prop :=
  next.registry manager =
    (world.registry manager).filter (fun program => request.dropped? ≠ some program) ++
      world.enrolled manager request

variable {world next : World B} {request : Request} {manager : Nat}

theorem enrols_of_same (undropped : ∀ program ∈ world.registry manager,
      request.dropped? ≠ some program) (unmade : world.enrolled manager request = [])
    (same : next.registry manager = world.registry manager) :
    Enrols world request manager next := by
  unfold Enrols
  rw [unmade, List.append_nil, same]
  exact (List.filter_eq_self.mpr fun program listed => by simp [undropped program listed]).symm

theorem enrols_drop (enlisted : world.Enlisted) (program manager : Nat) :
    Enrols world (.operate (.dropProgram program)) manager
      ((world.dropProgram program).getD world) := by
  cases present : world.program? program with
  | none =>
      rw [drop_program_absent world present]
      apply enrols_of_same _ rfl rfl
      intro other listed
      obtain ⟨found, alive, _⟩ := enlisted manager other listed
      rintro ⟨⟩
      simp [present] at alive
  | some found =>
      obtain ⟨next, dropped, drops⟩ := drop_program_drops world present
      rw [dropped]
      simp [Enrols, drops.unlists enlisted present, Request.dropped?, enrolled, eq_comm]

theorem enrols_create (world : World B) (maker manager : Nat) (desc : ProgramDesc)
    (defines : DefineList) :
    Enrols world (.operate (.newProgram maker desc defines)) manager
      (world.perform (.newProgram maker desc defines)).2 := by
  cases managed : world.managers[maker]? with
  | none =>
      have unmanaged : world.setup? maker = none := by simp [setup?, managed]
      simp only [perform, new_program_absent world managed, conclude]
      exact enrols_of_same (fun _ _ => by simp [Request.dropped?]) (by simp [enrolled, unmanaged])
        rfl
  | some found =>
      obtain ⟨next, made, creates⟩ := world.new_program_creates managed desc defines
      simp only [perform, made, conclude]
      simp [Enrols, creates.registry managed, Request.dropped?, enrolled,
        world.setup_of_manager managed]

/-! ### Whoever is listed -/

theorem Moves.remaining (moves : Moves world request next) (sound : world.Sound) {program : Nat}
    {found : Program B} (present : world.program? program = some found)
    (undropped : request.dropped? ≠ some program) :
    ∃ later, next.program? program = some later ∧ later.manager = found.manager := by
  cases moves with
  | created managed creates =>
      have older := Nat.ne_of_lt (sound.numbered program found present)
      exact ⟨found, by rw [creates.programs, if_neg older, present], rfl⟩
  | dropped gone drops =>
      have other : program ≠ _ := fun same => undropped (congrArg some same.symm)
      exact ⟨found, by rw [drops.programs, if_neg other, present], rfl⟩
  | searched => exact ⟨found, by rw [program_search, present], rfl⟩
  | configured alters => exact ⟨_, (alters.programs program).trans (congrArg _ present), rfl⟩
  | altered _ _ alters => exact ⟨_, (alters.programs program).trans (congrArg _ present), rfl⟩

theorem alive_of_enrolled {maker manager program : Nat} {desc : ProgramDesc}
    {defines : DefineList}
    (fresh : program ∈ world.enrolled manager (.operate (.newProgram maker desc defines))) :
    ∃ found, (world.perform (.newProgram maker desc defines)).2.program? program = some found ∧
      found.manager = manager := by
  simp only [enrolled] at fresh
  split at fresh
  next both =>
    obtain ⟨rfl, managed⟩ := both
    cases List.mem_singleton.mp fresh
    obtain ⟨setup, managed⟩ := Option.isSome_iff_exists.mp managed
    obtain ⟨found, managed, _⟩ := world.manager_of_setup managed
    obtain ⟨next, made, creates⟩ := world.new_program_creates managed desc defines
    simp only [perform, made, conclude]
    exact ⟨_, by rw [creates.programs, if_pos rfl], rfl⟩
  next => simp at fresh

end World

namespace Archive

open World (Enrols Moves)

variable {archive : Archive B}

theorem Sound.enrols (sound : archive.Sound) (enlisted : archive.world.Enlisted)
    (request : Request) (manager : Nat) :
    Enrols archive.world request manager (archive.after request).world := by
  by_cases isDrop : ∃ program, request = .operate (.dropProgram program)
  · obtain ⟨program, rfl⟩ := isDrop
    exact World.enrols_drop enlisted program manager
  by_cases isCreation : ∃ maker desc defines, request = .operate (.newProgram maker desc defines)
  · obtain ⟨maker, desc, defines, rfl⟩ := isCreation
    exact World.enrols_create _ maker manager desc defines
  have undropped : ∀ program ∈ archive.world.registry manager,
      request.dropped? ≠ some program :=
    fun program _ same => isDrop ⟨program, Request.dropped_iff.mp same⟩
  have unmade : archive.world.enrolled manager request = [] := by
    unfold World.enrolled
    split
    next maker desc defines => exact absurd ⟨maker, desc, defines, rfl⟩ isCreation
    next => rfl
  apply World.enrols_of_same undropped unmade
  have moves := sound.moves request
  generalize (archive.after request).world = next at moves ⊢
  cases moves with
  | created managed creates => exact absurd ⟨_, _, _, rfl⟩ isCreation
  | dropped present drops => exact absurd ⟨_, rfl⟩ isDrop
  | searched => exact World.registry_search _ _ _ _
  | @configured maker edit _ _ alters =>
      have written := World.registry_modify_manager archive.world
        (fun former => { former with settings := edit.apply former.settings })
        (fun _ => rfl) maker manager
      simp only [World.registry_of_setup, alters.setups] at written ⊢
      exact written
  | altered _ _ alters =>
      simp only [World.registry_of_setup, alters.setups]
      rfl

theorem Sound.enlisted_after (sound : archive.Sound) (enlisted : archive.world.Enlisted)
    (request : Request) : (archive.after request).world.Enlisted := by
  intro manager program listed
  rw [sound.enrols enlisted request manager, List.mem_append, List.mem_filter] at listed
  rcases listed with ⟨earlier, undropped⟩ | fresh
  · obtain ⟨found, present, made⟩ := enlisted manager program earlier
    obtain ⟨later, remains, same⟩ :=
      (sound.moves request).remaining sound.world present (by simpa using undropped)
    exact ⟨later, remains, same.trans made⟩
  · by_cases isCreation : ∃ maker desc defines,
        request = .operate (.newProgram maker desc defines)
    · obtain ⟨maker, desc, defines, rfl⟩ := isCreation
      exact World.alive_of_enrolled fresh
    · unfold World.enrolled at fresh
      split at fresh
      next maker desc defines => exact absurd ⟨maker, desc, defines, rfl⟩ isCreation
      next => simp at fresh

/-! ## Registered programs -/

/-- A program was made by a manager in the course of a run and has not been dropped since. -/
def Undropped (start : Archive B) (requests : List Request) (manager program : Nat) : Prop :=
  ∃ earlier desc defines later,
    requests = earlier ++ .operate (.newProgram manager desc defines) :: later ∧
    (start.run earlier).respond (.operate (.newProgram manager desc defines)) = .number program ∧
    .operate (.dropProgram program) ∉ later

theorem undropped_snoc (start : Archive B) (requests : List Request) (request : Request)
    (manager program : Nat) :
    start.Undropped (requests ++ [request]) manager program ↔
      (start.Undropped requests manager program ∧ request ≠ .operate (.dropProgram program)) ∨
        ∃ desc defines, request = .operate (.newProgram manager desc defines) ∧
          (start.run requests).respond request = .number program := by
  constructor
  · rintro ⟨earlier, desc, defines, later, history, answered, kept⟩
    rcases later.eq_nil_or_concat with rfl | ⟨front, last, rfl⟩
    · obtain ⟨rfl, same⟩ := List.append_inj' history rfl
      cases same
      exact .inr ⟨desc, defines, rfl, answered⟩
    · rw [List.concat_eq_append, ← List.cons_append, ← List.append_assoc] at history
      rw [List.concat_eq_append] at kept
      obtain ⟨rfl, same⟩ := List.append_inj' history rfl
      cases same
      rw [List.mem_append, List.mem_singleton, not_or] at kept
      exact .inl ⟨⟨earlier, desc, defines, front, rfl, answered, kept.1⟩, Ne.symm kept.2⟩
  · rintro (⟨⟨earlier, desc, defines, later, rfl, answered, kept⟩, stays⟩ |
      ⟨desc, defines, rfl, answered⟩)
    · refine ⟨earlier, desc, defines, later ++ [request], by simp, answered, ?_⟩
      simp [kept, Ne.symm stays]
    · exact ⟨requests, desc, defines, [], rfl, answered, by simp⟩

/-- A program that a request registers is the one that it answers. -/
theorem mem_enrolled (archive : Archive B) (manager program : Nat) (request : Request) :
    program ∈ archive.world.enrolled manager request ↔
      ∃ desc defines, request = .operate (.newProgram manager desc defines) ∧
        archive.respond request = .number program := by
  have answer : ∀ maker desc defines,
      archive.respond (.operate (.newProgram maker desc defines)) = .number program ↔
        (archive.world.setup? maker).isSome ∧ archive.world.programCount = program := by
    intro maker desc defines
    change (archive.world.respondWith .number (archive.world.newProgram maker desc defines)).1 =
      .number program ↔ _
    cases managed : archive.world.managers[maker]? with
    | none =>
        rw [World.new_program_absent _ managed]
        simp [World.respondWith, World.setup?, managed]
    | some found =>
        obtain ⟨next, made, _⟩ := archive.world.new_program_creates managed desc defines
        simp [World.respondWith, World.setup?, managed, made]
  unfold World.enrolled
  split
  next maker desc defines =>
    simp only [answer, Request.operate.injEq, Operation.newProgram.injEq]
    split
    next both =>
      obtain ⟨rfl, managed⟩ := both
      simp [managed, eq_comm]
    next unregistered =>
      refine iff_of_false List.not_mem_nil ?_
      rintro ⟨_, _, ⟨rfl, _, _⟩, managed, _⟩
      exact unregistered ⟨rfl, managed⟩
  next unmade =>
    refine iff_of_false List.not_mem_nil ?_
    rintro ⟨desc, defines, same, _⟩
    exact unmade _ _ _ same

theorem registry_opening (files : FileTree) (managers : List (Manager B)) (manager : Nat) :
    (World.opening files managers).registry manager = [] := by
  simp only [World.registry, World.opening, List.getElem?_map]
  cases managers[manager]? <;> rfl

theorem enlisted_reached (files : FileTree) (managers : List (Manager B))
    (requests : List Request) : ((opening files managers).run requests).world.Enlisted := by
  induction requests using List.reverseRecOn with
  | nil =>
      intro manager program listed
      change program ∈ (World.opening files managers).registry manager at listed
      simp [registry_opening] at listed
  | append_singleton requests request ih =>
      rw [run_append]
      exact (sound_reached files managers requests).enlisted_after ih request

theorem enrols_reached (files : FileTree) (managers : List (Manager B))
    (requests : List Request) (request : Request) (manager : Nat) :
    Enrols ((opening files managers).run requests).world request manager
      ((opening files managers).run (requests ++ [request])).world := by
  rw [run_append]
  exact (sound_reached files managers requests).enrols (enlisted_reached files managers requests)
    request manager

theorem undropped_listed (files : FileTree) (managers : List (Manager B))
    (requests : List Request) (manager program : Nat) :
    program ∈ ((opening files managers).run requests).world.registry manager ↔
      (opening files managers).Undropped requests manager program := by
  induction requests using List.reverseRecOn with
  | nil =>
      change program ∈ (World.opening files managers).registry manager ↔ _
      simp [registry_opening, Undropped]
  | append_singleton requests request ih =>
      have enrols := enrols_reached files managers requests request manager
      rw [undropped_snoc, ← ih, ← mem_enrolled, enrols]
      simp only [List.mem_append, List.mem_filter, decide_eq_true_eq, ne_eq, Request.dropped_iff]

/-- The programs are listed in the order in which they were made, each once. -/
theorem registry_ordered (files : FileTree) (managers : List (Manager B))
    (requests : List Request) (manager : Nat) :
    (((opening files managers).run requests).world.registry manager).Pairwise (· < ·) := by
  induction requests using List.reverseRecOn with
  | nil =>
      change ((World.opening files managers).registry manager).Pairwise (· < ·)
      rw [registry_opening]
      exact .nil
  | append_singleton requests request ih =>
      rw [enrols_reached files managers requests request manager]
      refine List.pairwise_append.mpr ⟨ih.filter _, ?_, ?_⟩
      · unfold World.enrolled
        split
        · split <;> simp
        · exact .nil
      · intro former listed fresh isFresh
        obtain ⟨found, present, _⟩ :=
          enlisted_reached files managers requests manager former (List.mem_of_mem_filter listed)
        have below :=
          (sound_reached files managers requests).world.numbered former found present
        unfold World.enrolled at isFresh
        split at isFresh
        · split at isFresh
          · exact List.mem_singleton.mp isFresh ▸ below
          · simp at isFresh
        · simp at isFresh

/-- What a sweep of a manager does at any moment of a run. The registry lists the programs that the
manager made and that are not dropped, and nothing else, so a sweep gets hold of all that are
registered. The sweep, forced or not, makes each of them forget its versions and touches nothing
else of it and no other program. A sweep that is not forced leaves the same world as a forced one up
to its report; it answers whether a registered program kept a version. When there was a sweep, none
is left to do. -/
theorem reload_sweeps_registered (files : FileTree) (managers : List (Manager B))
    (requests : List Request) (manager : Nat) (force : Bool) :
    let start := opening files managers
    let world := (start.run requests).world
    let swept := (world.reload manager force).2
    world.registry manager = world.registered manager ∧
    swept.registry manager = world.registry manager ∧
    (world.registered manager).Pairwise (· < ·) ∧
    (∀ program, program ∈ world.registered manager ↔ start.Undropped requests manager program) ∧
    swept.registered manager = world.registered manager ∧
    (∀ program ∈ world.registered manager, ∃ found, world.program? program = some found ∧
      swept.program? program = some { found with
        state := { found.state with dirty := true, active := none, versions := [] } }) ∧
    (∀ program ∉ world.registered manager, swept.program? program = world.program? program) ∧
    { (world.reload manager true).2 with events := [] } =
      { (world.reload manager false).2 with events := [] } ∧
    ((world.reload manager force).1 = true ↔
      (force = true ∧ world.registered manager ≠ []) ∨
        ∃ program ∈ world.registered manager, ∃ found,
          world.program? program = some found ∧ found.state.versions ≠ []) ∧
    (swept.reload manager false).1 = false ∧
    ∀ settings edit, world.settings? manager = some settings →
      World.SettingsEdit.sweeps settings edit = true →
        ((world.editSettings manager edit).reload manager false).1 = false := by
  intro start world swept
  have sound : world.Sound := (sound_reached files managers requests).world
  have programs := sound.program_reload manager force
  have listed : world.registered manager = world.registry manager :=
    (enlisted_reached files managers requests).registered manager
  refine ⟨listed.symm, World.registry_reload world manager manager force,
    listed ▸ registry_ordered files managers requests manager,
    fun program => listed ▸ undropped_listed files managers requests manager program,
    World.registered_reload world manager manager force, ?_, ?_, sound.reload_unforced manager,
    sound.reload_flag manager force, sound.reload_again manager force, ?_⟩
  · intro program listed
    obtain ⟨found, present⟩ := World.alive_of_registered listed
    refine ⟨found, present, ?_⟩
    rw [programs, present]
    simp [World.resetDue, listed, ProgramState.reset]
  · intro program unlisted
    rw [programs]
    simp [World.resetDue, unlisted]
  · intro settings edit managed sweeps
    simp only [World.editSettings, managed, sweeps, ↓reduceIte]
    exact (sound.configure manager _).reload_again manager true

/-- Of three programs one is dropped, one is compiled and one is not. -/
theorem reload_sweeps_compiled :
    let requests : List Request := [.operate (.newProgram 0 .oneKernel ∅),
      .operate (.newProgram 0 .oneKernel ∅), .operate (.newProgram 0 .oneKernel ∅),
      .operate (.dropProgram 1), .operate (.activeVersion 2)]
    let world := ((opening {} [Manager.echo]).run requests).world
    world.registry 0 = [0, 2] ∧ world.registered 0 = [0, 2] ∧ world.hasCachedState 0 = false ∧
      world.hasCachedState 2 = true ∧ (world.reload 0 false).1 = true ∧
      ((world.reload 0 false).2.reload 0 false).1 = false ∧
      ((world.reload 0 false).2.reload 0 true).1 = true ∧
      ∀ program ∈ world.registered 0, ∃ found,
        (world.reload 0 false).2.program? program = some found ∧ found.state.versions = [] := by
  intro requests world
  obtain ⟨listed, _, _, _, _, forgets, _, _, _, again, _⟩ :=
    reload_sweeps_registered {} [Manager.echo] requests 0 false
  have registry_eq : world.registry 0 = [0, 2] := by
    decide +kernel
  refine ⟨registry_eq, listed.symm.trans registry_eq, by decide +kernel, by decide +kernel,
    by decide +kernel, again, by decide +kernel, ?_⟩
  intro program listed
  obtain ⟨found, _, swept⟩ := forgets program listed
  exact ⟨_, swept, rfl⟩

end Archive

end ShaderCache
