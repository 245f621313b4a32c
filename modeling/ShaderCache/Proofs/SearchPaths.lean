import ShaderCache.Proofs.Echo
import ShaderCache.Proofs.Origins
import ShaderCache.Proofs.RequestContents
import ShaderCache.Proofs.RequestEffects

/-!
# Search directories of versions

What is sent to the compiler has the search directories that the manager has at that moment.
Directories are only ever added, and adding one resets no program. So a version that a program
answers with was compiled with the first of the directories that there are; the others came after
it was made.
-/

set_option autoImplicit false

namespace ShaderCache

variable {B : Backend}

namespace World

def searchPaths? (world : World B) (manager : Nat) : Option (List Path) :=
  (world.setup? manager).map fun setup => setup.resolver.searchPaths

/-- The directory that a request adds to those of a manager. -/
def addedPath? (world : World B) (manager : Nat) : Request → Option Path
  | .addSearchPath other path =>
      if other = manager ∧ (world.addSearchPath other path).1 = true then some path.normalize
      else none
  | _ => none

theorem search_paths_search (world : World B) (manager other : Nat) (path : Path) :
    (world.addSearchPath other path).2.searchPaths? manager =
      (world.searchPaths? manager).map
        (· ++ (world.addedPath? manager (.addSearchPath other path)).toList) := by
  cases managed : world.managers[other]? with
  | none => simp [addSearchPath, addedPath?, managed]
  | some found =>
      have added : world.addSearchPath other path = ((found.resolver.add path).1,
          world.modifyManager other fun manager =>
            { manager with resolver := (found.resolver.add path).2 }) := by
        simp only [addSearchPath, managed]
      by_cases here : manager = other
      · subst here
        rw [added, searchPaths?, setup_modify_manager, if_pos rfl, searchPaths?,
          world.setup_of_manager managed, managed]
        simp only [addedPath?, added, Option.map_some, Manager.setup, found.resolver.add_paths,
          true_and]
        split <;> rfl
      · have unadded : world.addedPath? manager (.addSearchPath other path) = none := by
          simp [addedPath?, Ne.symm here]
        rw [added, searchPaths?, setup_modify_manager, if_neg here, unadded]
        simp [searchPaths?, Function.comp_def]

theorem search_paths_unadded {world next : World B} {manager : Nat} {request : Request}
    (unadded : world.addedPath? manager request = none)
    (same : next.searchPaths? manager = world.searchPaths? manager) :
    next.searchPaths? manager =
      (world.searchPaths? manager).map (· ++ (world.addedPath? manager request).toList) := by
  simp [unadded, same]

theorem search_paths_of_setups {world next : World B}
    (setups : ∀ manager, next.setup? manager = world.setup? manager) (manager : Nat) :
    next.searchPaths? manager = world.searchPaths? manager := by
  rw [searchPaths?, setups, searchPaths?]

theorem search_paths_configure (world : World B) (manager other : Nat)
    (change : Settings → Settings) :
    (world.configure other change).searchPaths? manager = world.searchPaths? manager := by
  simp only [searchPaths?, setup_configure]
  split
  next here => simp [here, Function.comp_def]
  next => rfl

/-- Search directories are added by requests to do so, and never changed otherwise. -/
theorem Moves.search_paths {world next : World B} {request : Request}
    (moves : Moves world request next) (manager : Nat) :
    next.searchPaths? manager =
      (world.searchPaths? manager).map (· ++ (world.addedPath? manager request).toList) := by
  cases moves with
  | @created made found _ _ _ managed creates =>
      apply search_paths_unadded rfl
      simp only [searchPaths?, creates.setups]
      split
      next here => simp [here, world.setup_of_manager managed]
      next => rfl
  | dropped present drops =>
      apply search_paths_unadded rfl
      cases managed : world.setup? manager with
      | none => simp [searchPaths?, drops.unmanaged managed, managed]
      | some setup =>
          obtain ⟨registry, after, _⟩ := drops.keeps managed
          simp [searchPaths?, after, managed]
  | searched => exact search_paths_search _ _ _ _
  | configured alters =>
      apply search_paths_unadded rfl
      rw [search_paths_of_setups alters.setups]
      exact search_paths_configure world manager _ _
  | altered undropped unsearched alters =>
      apply search_paths_unadded
      · cases request with
        | addSearchPath other path => exact absurd rfl (unsearched other path)
        | _ => rfl
      · exact search_paths_of_setups alters.setups manager

end World

theorem World.Sound.settled_version {world next : World B} (sound : world.Sound) {program : Nat}
    {version : Version B} (answered : world.activeVersion program = some (.ok version, next)) :
    ∃ found state, World.Settled world program found version state next := by
  cases present : world.program? program with
  | none => simp [World.active_version_absent world present] at answered
  | some found =>
      obtain ⟨outcome, later, version_eq, resolves⟩ := sound.active_version_resolves present
      cases version_eq.symm.trans answered
      obtain ⟨state, settled⟩ := sound.settled present resolves
      exact ⟨found, state, settled⟩

namespace Archive

/-- The directories that the requests of a run add to those of a manager. -/
def addedPaths (archive : Archive B) (manager : Nat) : List Request → List Path
  | [] => []
  | request :: rest =>
      (archive.world.addedPath? manager request).toList ++
        (archive.after request).addedPaths manager rest

theorem Sound.search_paths_run {archive : Archive B} (sound : archive.Sound)
    (manager : Nat) (requests : List Request) :
    (archive.run requests).world.searchPaths? manager =
      (archive.world.searchPaths? manager).map (· ++ archive.addedPaths manager requests) := by
  induction requests generalizing archive with
  | nil => simp [Archive.run, addedPaths]
  | cons request rest ih =>
      rw [Archive.run, ih (sound.after request), (sound.moves request).search_paths,
        Option.map_map]
      simp [addedPaths, Function.comp_def]

/-- A request has sent something to the compiler, and the version came of it. -/
structure SentFor (before : Archive B) (request : Request) (manager : Nat) (sent : CompileRequest)
    (version : Version B) : Prop where
  made : before.world.made? request = some version
  compiled : ∃ compiler found log, before.world.managers[manager]? = some compiler ∧
    before.world.CompiledFrom found compiler log version ∧
    (compiler.context before.world.files).request found.desc found.state.defines = .ok sent

theorem Sound.sent_for {before : Archive B} (sound : before.Sound) {request : Request}
    {version : Version B} {manager : Nat} (made : before.world.made? request = some version)
    (compiles : before.world.compiler? request = some manager) :
    ∃ sent, SentFor before request manager sent version ∧
      before.world.searchPaths? manager = some sent.searchPaths := by
  obtain ⟨other, compiler, found, log, compilesToo, managed, compiled⟩ :=
    (sound.world.originates made).compiled
  cases compiles.symm.trans compilesToo
  obtain ⟨sent, requested, _⟩ :=
    compile_outcome_yields (fun _ => Job.yields_any _) compiled.compiled
  refine ⟨sent, ⟨made, compiler, found, log, managed, compiled, requested⟩, ?_⟩
  rw [World.searchPaths?, before.world.setup_of_manager managed,
    (CompileContext.request_contents requested).searchPaths]
  rfl

/-- The version that a program answers with was made by this call or an earlier one. What was sent
to the compiler then had the search directories of that moment, and lacks those that were added
since. Nor does a directory that is added now bring the program to compile again. -/
theorem active_version_search_paths (files : FileTree) (managers : List (Manager B))
    (requests : List Request) {program : Nat} {version : Version B} {next : World B}
    (answered : ((opening files managers).run requests).world.activeVersion program =
      some (.ok version, next)) :
    let start := opening files managers
    (∃ earlier request later manager sent,
      requests ++ [.operate (.activeVersion program)] = earlier ++ request :: later ∧
      request.activates? = some program ∧
      SentFor (start.run earlier) request manager sent version ∧
      (next.program? program).map Program.manager = some manager ∧
      (start.run requests).world.searchPaths? manager =
        some (sent.searchPaths ++ (start.run earlier).addedPaths manager (request :: later))) ∧
    ∀ manager path, (next.addSearchPath manager path).2.activeVersion program =
      some (.ok version, (next.addSearchPath manager path).2) := by
  intro start
  let call : Request := .operate (.activeVersion program)
  let archive := start.run requests
  have soundStart : start.Sound := sound_opening files managers
  have sound : archive.Sound := soundStart.run requests
  have last : (archive.after call).world = next :=
    congrArg Archive.world (after_active_version answered)
  obtain ⟨found, state, settled⟩ := sound.world.settled_version answered
  constructor
  · have whole : start.run (requests ++ [call]) = archive.after call := run_append start requests _
    have present : (start.run (requests ++ [call])).world.program? program =
        some { found with state := state } := by
      rw [whole, last]
      exact settled.present
    have isProduced := (soundStart.run _).world.produced _ _ present _ settled.kept
    rcases soundStart.produced_in_run present isProduced with
      ⟨former, formerPresent, _⟩ | ⟨earlier, request, later, split, asked, made, compiles⟩
    · simp [start, opening, World.program_opening] at formerPresent
    · have soundBefore := soundStart.run earlier
      obtain ⟨sent, sentFor, paths⟩ := soundBefore.sent_for made compiles
      refine ⟨earlier, request, later, found.manager, sent, split, asked, sentFor, ?_, ?_⟩
      · rw [settled.present]
        rfl
      · calc archive.world.searchPaths? found.manager
          _ = (start.run (requests ++ [call])).world.searchPaths? found.manager := by
            rw [whole, (sound.moves call).search_paths]
            simp [call, World.addedPath?]
          _ = ((start.run earlier).run (request :: later)).world.searchPaths? found.manager := by
            rw [split, run_append]
          _ = some (sent.searchPaths ++
                (start.run earlier).addedPaths found.manager (request :: later)) := by
            rw [soundBefore.search_paths_run, paths, Option.map_some]
  · intro manager path
    simp [World.activeVersion, settled.present, ProgramState.current?, settled.clean,
      settled.active]

/-- A version that was compiled without search directories is answered also when there is one. -/
theorem active_version_without_added_path :
    let start := opening {} [Manager.echo]
    let archive := start.run [.operate (.newProgram 0 .oneKernel ∅)]
    ∃ version next, archive.world.activeVersion 0 = some (.ok version, next) ∧
      (∃ earlier request sent, SentFor (start.run earlier) request 0 sent version ∧
        sent.searchPaths = []) ∧
      let (added, searched) := next.addSearchPath 0 ⟨"inc"⟩
      added = true ∧ (searched.searchPaths? 0).map (List.map Path.text) = some ["inc"] ∧
        searched.activeVersion 0 = some (.ok version, searched) := by
  intro start archive
  have answers : (archive.world.activeVersion 0).map (fun answer =>
      (answer.1.toOption.isSome, (answer.2.program? 0).map Program.manager,
        (answer.2.addSearchPath 0 ⟨"inc"⟩).1,
        ((answer.2.addSearchPath 0 ⟨"inc"⟩).2.searchPaths? 0).map (List.map Path.text))) =
      some (true, some 0, true, some ["inc"]) := by
    decide +kernel
  have pathless : (archive.world.searchPaths? 0).map (List.map Path.text) = some [] := by
    decide +kernel
  obtain ⟨⟨outcome, next⟩, answered, facts⟩ := Option.map_eq_some_iff.mp answers
  obtain ⟨succeeds, managed, added, searched⟩ : outcome.toOption.isSome = true ∧
      (next.program? 0).map Program.manager = some 0 ∧ (next.addSearchPath 0 ⟨"inc"⟩).1 = true ∧
      ((next.addSearchPath 0 ⟨"inc"⟩).2.searchPaths? 0).map (List.map Path.text) =
        some ["inc"] := by
    simpa using facts
  cases outcome with
  | error error => simp [Except.toOption] at succeeds
  | ok version =>
      obtain ⟨⟨earlier, request, later, manager, sent, _, _, sentFor, manager_eq, paths⟩, stays⟩ :=
        active_version_search_paths {} [Manager.echo] _ answered
      cases manager_eq.symm.trans managed
      refine ⟨version, next, answered, ⟨earlier, request, sent, sentFor, ?_⟩, added, searched,
        stays 0 ⟨"inc"⟩⟩
      rw [paths] at pathless
      simp at pathless
      exact pathless.1

end Archive

end ShaderCache
