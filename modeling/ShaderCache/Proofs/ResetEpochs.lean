import Mathlib.Data.List.Dedup
import ShaderCache.Proofs.Echo
import ShaderCache.Proofs.RunInvariant

/-!
# Reset epochs

Between two resets a program keeps every version that it was given, so it is compiled at most
once for each configuration, whatever edits lead to it. After a reset all its versions are new.
-/

set_option autoImplicit false

namespace ShaderCache

variable {B : Backend}

namespace World

/-! ## Histories of one program -/

/-- The configuration for which a call for the active version gets one, if it does. -/
def answeredKey? (world : World B) (program : Nat) : Option ProgramKey :=
  match world.activeVersion program with
  | some (.ok _, _) => (world.program? program).map fun found => found.state.key
  | _ => none

/-- The configuration for which an operation gets a version of the program, if it does. Kernels
are those of the active version, which is found even if it cannot be linked. -/
def resolvedKey? (world : World B) (program : Nat) : Operation → Option ProgramKey
  | .activeVersion called => if called = program then world.answeredKey? called else none
  | .activeKernels called => if called = program then world.answeredKey? called else none
  | _ => none

/-- The configurations that have been resolved after one more operation. -/
def nextResolved (world : World B) (program : Nat) (resolved : List ProgramKey)
    (operation : Operation) : List ProgramKey :=
  if program ∈ world.resets operation then []
  else resolved ++ (world.resolvedKey? program operation).toList

/-- The configurations that a program got a version for since it was last reset, in order and
with repetitions, when those in `resolved` come before the run. -/
def resolvedSince (world : World B) (program : Nat) (resolved : List ProgramKey) :
    List Operation → List ProgramKey
  | [] => resolved
  | operation :: rest =>
      (world.perform operation).2.resolvedSince program
        (world.nextResolved program resolved operation) rest

def resetsIn (world : World B) (program : Nat) : List Operation → Bool
  | [] => false
  | operation :: rest =>
      decide (program ∈ world.resets operation) ||
        (world.perform operation).2.resetsIn program rest

theorem answered_key_ok {world next : World B} {program : Nat} {found : Program B}
    {version : Version B} (answered : world.activeVersion program = some (.ok version, next))
    (present : world.program? program = some found) :
    world.answeredKey? program = some found.state.key := by
  simp [answeredKey?, answered, present]

theorem answered_key_error {world next : World B} {program : Nat} {error : ProgramError}
    (answered : world.activeVersion program = some (.error error, next)) :
    world.answeredKey? program = none := by
  simp [answeredKey?, answered]

/-! ## What an operation does to the versions of one program -/

/-- The ways in which the versions that a program keeps after an operation come about. -/
inductive Retains (world : World B) (program : Nat) (operation : Operation) :
    List (ProgramKey × Version B) → Prop where
  | newborn (number : program = world.programCount)
      (spared : program ∉ world.resets operation)
      (unresolved : world.resolvedKey? program operation = none) :
      Retains world program operation []
  | reset (due : program ∈ world.resets operation) : Retains world program operation []
  | unchanged {found : Program B} (present : world.program? program = some found)
      (spared : program ∉ world.resets operation)
      (known : ∀ key, world.resolvedKey? program operation = some key →
        key ∈ found.state.versions.map Prod.fst) :
      Retains world program operation found.state.versions
  | committed {found : Program B} {version : Version B}
      (present : world.program? program = some found)
      (spared : program ∉ world.resets operation)
      (resolved : world.resolvedKey? program operation = some found.state.key)
      (serial : version.serial = world.versionCount) :
      Retains world program operation (found.state.versions ++ [(found.state.key, version)])

/-- Calls for versions, in their own right or on the way to kernels. -/
theorem Sound.retains_resolved {world next : World B} (sound : world.Sound) {called : Nat}
    {found : Program B} {outcome : Except ProgramError (Version B)} {operation : Operation}
    (present : world.program? called = some found)
    (answered : world.activeVersion called = some (outcome, next))
    (resolves : Resolves world called found outcome next)
    (spares : world.resets operation = [])
    (resolving : ∀ program, world.resolvedKey? program operation =
      if called = program then world.answeredKey? called else none)
    {program : Nat} {later : Program B} (laterPresent : next.program? program = some later) :
    Retains world program operation later.state.versions := by
  have spared : program ∉ world.resets operation := by simp [spares]
  have resolvedHere : program = called →
      world.resolvedKey? program operation = world.answeredKey? called := fun here => by
    rw [resolving, if_pos here.symm]
  -- A program that is not called keeps its versions, and none is resolved for it.
  have elsewhere : program ≠ called → world.program? program = some later →
      Retains world program operation later.state.versions := by
    intro differs former
    refine .unchanged former spared ?_
    intro key resolved
    rw [resolving, if_neg (Ne.symm differs)] at resolved
    simp at resolved
  have coherent := sound.coherent called found present
  cases resolves with
  | @current version clean =>
      by_cases here : program = called
      · subst here
        cases present.symm.trans laterPresent
        refine .unchanged present spared ?_
        intro key resolved
        rw [resolvedHere rfl, answered_key_ok answered present] at resolved
        cases resolved
        exact List.mem_map.mpr ⟨_, coherent.current_cached clean, rfl⟩
      · exact elsewhere here laterPresent
  | @adopted version _ unclean cached quiet ids =>
      rw [quiet.programs, program_modify_state] at laterPresent
      by_cases here : program = called
      · subst here
        simp only [↓reduceIte, present, Option.map_some, Option.some.injEq] at laterPresent
        subst laterPresent
        change Retains world program operation found.state.versions
        refine .unchanged present spared ?_
        intro key resolved
        rw [resolvedHere rfl, answered_key_ok answered present] at resolved
        cases resolved
        exact List.mem_map.mpr ⟨_, (coherent.cached_iff _ _).mp cached, rfl⟩
      · rw [if_neg here] at laterPresent
        exact elsewhere here laterPresent
  | compiled unclean missing managed compiles =>
      cases compiles with
      | failed managedBy fails quiet ids =>
          rw [quiet.programs] at laterPresent
          by_cases here : program = called
          · subst here
            cases present.symm.trans laterPresent
            refine .unchanged present spared ?_
            intro key resolved
            rw [resolvedHere rfl, answered_key_error answered] at resolved
            simp at resolved
          · exact elsewhere here laterPresent
      | @made _ compiled _ managedBy makes quiet id ids =>
          rw [quiet.programs, program_modify_state] at laterPresent
          by_cases here : program = called
          · subst here
            have counted : World.program? { world with versionCount := world.versionCount + 1 }
                program = some found := present
            simp only [↓reduceIte, counted, Option.map_some, Option.some.injEq] at laterPresent
            subst laterPresent
            have resolved : world.resolvedKey? program operation = some found.state.key :=
              (resolvedHere rfl).trans (answered_key_ok answered present)
            rw [ProgramState.commit_versions _ missing]
            exact .committed present spared resolved rfl
          · rw [if_neg here] at laterPresent
            exact elsewhere here laterPresent

theorem Sound.retains {world : World B} (sound : world.Sound) (operation : Operation)
    {program : Nat} {later : Program B}
    (laterPresent : (world.perform operation).2.program? program = some later) :
    Retains world program operation later.state.versions := by
  have performs := sound.performs operation
  generalize (world.perform operation).1 = answer at performs
  generalize (world.perform operation).2 = next at performs laterPresent
  cases performs with
  | unmanaged absent =>
      exact .unchanged laterPresent (by simp [resets]) (by simp [resolvedKey?])
  | @untargeted operation target targeted absent =>
      have differs : target ≠ program := by
        rintro rfl
        simp [absent] at laterPresent
      refine .unchanged laterPresent ?_ ?_
      · cases operation <;> simp_all [resets, Operation.target?]
      · cases operation <;> simp_all [resolvedKey?, Operation.target?]
  | created managed creates =>
      rw [creates.programs] at laterPresent
      split at laterPresent
      next number =>
        cases laterPresent
        exact .newborn number (by simp [resets]) rfl
      next => exact .unchanged laterPresent (by simp [resets]) (by simp [resolvedKey?])
  | dropped present drops =>
      rw [drops.programs] at laterPresent
      split at laterPresent
      next => simp at laterPresent
      next => exact .unchanged laterPresent (by simp [resets]) (by simp [resolvedKey?])
  | @edited edited edit _ _ present alters ids =>
      obtain ⟨former, formerPresent, rfl⟩ := alters.program laterPresent
      have same := change_of_keeps ProgramState.versions edited
        (fun state => (ProgramState.edited_from state edit).versions) program former.state
      rw [same]
      exact .unchanged formerPresent (by simp [resets]) (by simp [resolvedKey?])
  | swept sweeping alters ids =>
      obtain ⟨former, writtenPresent, rfl⟩ := alters.program laterPresent
      have formerPresent : world.program? program = some former := by
        cases operation <;> exact writtenPresent
      by_cases due : program ∈ world.resets operation
      · simp only [resetDue, due, ↓reduceIte]
        exact .reset due
      · simp only [resetDue, due, ↓reduceIte]
        refine .unchanged formerPresent due ?_
        cases operation <;> simp_all [resolvedKey?, Operation.sweeping]
  | resolved present answered resolves =>
      exact sound.retains_resolved present answered resolves rfl (fun _ => rfl) laterPresent
  | provided present provides =>
      cases provides with
      | unresolved answered resolves =>
          exact sound.retains_resolved present answered resolves rfl (fun _ => rfl) laterPresent
      | resolved answered resolves settled supplies =>
          obtain ⟨kernels, quiet, _⟩ := supplies.quiet
          have between := (quiet.programs program).symm.trans laterPresent
          exact sound.retains_resolved present answered resolves rfl (fun _ => rfl) between

theorem Resolves.counts {world next : World B} {program : Nat} {found : Program B}
    {outcome : Except ProgramError (Version B)}
    (resolves : Resolves world program found outcome next) :
    next.programCount = world.programCount ∧ world.versionCount ≤ next.versionCount := by
  cases resolves with
  | current clean => exact ⟨rfl, Nat.le_refl _⟩
  | adopted unclean cached quiet ids =>
      simp [quiet.programCount, quiet.versionCount]
  | compiled unclean missing managed compiles =>
      cases compiles with
      | failed managedBy fails quiet ids => simp [quiet.programCount, quiet.versionCount]
      | made managedBy makes quiet id ids => simp [quiet.programCount, quiet.versionCount]

/-- Serial numbers are never given out twice. -/
theorem Sound.counts {world : World B} (sound : world.Sound) (operation : Operation) :
    world.programCount ≤ (world.perform operation).2.programCount ∧
      world.versionCount ≤ (world.perform operation).2.versionCount := by
  have performs := sound.performs operation
  generalize (world.perform operation).1 = answer at performs
  generalize (world.perform operation).2 = next at performs
  cases performs with
  | unmanaged absent => exact ⟨Nat.le_refl _, Nat.le_refl _⟩
  | untargeted target absent => exact ⟨Nat.le_refl _, Nat.le_refl _⟩
  | created managed creates => simp [creates.programCount, creates.versionCount]
  | dropped present drops => simp [drops.programCount, drops.versionCount]
  | edited present alters ids => simp [alters.programCount, alters.versionCount]
  | swept sweeping alters ids =>
      rw [alters.programCount, alters.versionCount]
      cases operation <;> exact ⟨Nat.le_refl _, Nat.le_refl _⟩
  | resolved present answered resolves =>
      exact ⟨Nat.le_of_eq resolves.counts.1.symm, resolves.counts.2⟩
  | provided present provides =>
      cases provides with
      | unresolved answered resolves =>
          exact ⟨Nat.le_of_eq resolves.counts.1.symm, resolves.counts.2⟩
      | resolved answered resolves settled supplies =>
          obtain ⟨kernels, quiet, _⟩ := supplies.quiet
          rw [quiet.programCount, quiet.versionCount]
          exact ⟨Nat.le_of_eq resolves.counts.1.symm, resolves.counts.2⟩

/-! ## Between resets -/

/-- A program that is alive keeps a version under a configuration. -/
structure Keeps (world : World B) (program : Nat) (key : ProgramKey) (version : Version B) :
    Prop where
  numbered : program < world.programCount
  kept : ∀ found, world.program? program = some found → (key, version) ∈ found.state.versions

/-- A version is lost only by a reset. -/
theorem Keeps.perform {world : World B} {program : Nat} {key : ProgramKey} {version : Version B}
    (keeps : Keeps world program key version) (sound : world.Sound) {operation : Operation}
    (spared : program ∉ world.resets operation) :
    Keeps (world.perform operation).2 program key version := by
  refine ⟨Nat.lt_of_lt_of_le keeps.numbered (sound.counts operation).1, ?_⟩
  intro later present
  have retains := sound.retains operation present
  generalize later.state.versions = versions at retains
  cases retains with
  | newborn number => exact absurd number (Nat.ne_of_lt keeps.numbered)
  | reset due => exact absurd due spared
  | unchanged former => exact keeps.kept _ former
  | committed former => exact List.mem_append_left _ (keeps.kept _ former)

theorem Keeps.run {world : World B} {program : Nat} {key : ProgramKey} {version : Version B}
    (keeps : Keeps world program key version) (sound : world.Sound) {operations : List Operation}
    (spared : world.resetsIn program operations = false) :
    Keeps (world.run operations) program key version := by
  induction operations generalizing world with
  | nil => exact keeps
  | cons operation rest ih =>
      simp only [resetsIn, Bool.or_eq_false_iff, decide_eq_false_iff_not] at spared
      exact ih (keeps.perform sound spared.1) (sound.perform operation) spared.2

/-- A program that is alive keeps only versions whose serial numbers are not below `bound`. -/
structure Renewed (world : World B) (program bound : Nat) : Prop where
  numbered : program < world.programCount
  bounded : bound ≤ world.versionCount
  newer : ∀ found, world.program? program = some found →
    ∀ entry ∈ found.state.versions, bound ≤ entry.2.serial

/-- Versions that come in are new. -/
theorem Renewed.perform {world : World B} {program bound : Nat}
    (renewed : Renewed world program bound) (sound : world.Sound) (operation : Operation) :
    Renewed (world.perform operation).2 program bound := by
  have counts := sound.counts operation
  refine ⟨Nat.lt_of_lt_of_le renewed.numbered counts.1, Nat.le_trans renewed.bounded counts.2, ?_⟩
  intro later present entry kept
  have retains := sound.retains operation present
  generalize later.state.versions = versions at retains kept
  cases retains with
  | newborn => simp at kept
  | reset => simp at kept
  | unchanged former => exact renewed.newer _ former entry kept
  | committed former spared resolved serial =>
      rcases List.mem_append.mp kept with earlier | last
      · exact renewed.newer _ former entry earlier
      · rw [List.mem_singleton.mp last, serial]
        exact renewed.bounded

theorem Renewed.run {world : World B} {program bound : Nat}
    (renewed : Renewed world program bound) (sound : world.Sound) (operations : List Operation) :
    Renewed (world.run operations) program bound := by
  induction operations generalizing world with
  | nil => exact renewed
  | cons operation rest ih =>
      exact ih (renewed.perform sound operation) (sound.perform operation)

theorem Sound.renewed_by_reset {world : World B} (sound : world.Sound) {program : Nat}
    (numbered : program < world.programCount) {operation : Operation}
    (due : program ∈ world.resets operation) :
    Renewed (world.perform operation).2 program world.versionCount := by
  have counts := sound.counts operation
  refine ⟨Nat.lt_of_lt_of_le numbered counts.1, counts.2, ?_⟩
  intro later present entry kept
  have retains := sound.retains operation present
  generalize later.state.versions = versions at retains kept
  cases retains with
  | newborn => simp at kept
  | reset => simp at kept
  | unchanged former spared => exact absurd due spared
  | committed former spared => exact absurd due spared

/-- After a run with a reset in it, a program keeps only versions that the run made. -/
theorem Sound.renewed {world : World B} (sound : world.Sound) {program : Nat}
    (numbered : program < world.programCount) {operations : List Operation}
    (due : world.resetsIn program operations = true) :
    Renewed (world.run operations) program world.versionCount := by
  induction operations generalizing world with
  | nil => simp [resetsIn] at due
  | cons operation rest ih =>
      have soundNext := sound.perform operation
      have counts := sound.counts operation
      rcases Bool.or_eq_true_iff.mp due with now | later
      · exact (sound.renewed_by_reset numbered (of_decide_eq_true now)).run soundNext rest
      · have last := ih soundNext (Nat.lt_of_lt_of_le numbered counts.1) later
        exact ⟨last.numbered, Nat.le_trans counts.2 last.bounded, fun found present entry kept =>
          Nat.le_trans counts.2 (last.newer found present entry kept)⟩

/-- The configurations that a program keeps versions for are the ones that were resolved. -/
structure Tallies (world : World B) (program : Nat) (resolved : List ProgramKey) : Prop where
  unborn : world.programCount ≤ program → resolved = []
  kept : ∀ found, world.program? program = some found →
    ∀ key, key ∈ found.state.versions.map Prod.fst ↔ key ∈ resolved

theorem Tallies.perform {world : World B} {program : Nat} {resolved : List ProgramKey}
    (tallies : Tallies world program resolved) (sound : world.Sound) (operation : Operation) :
    Tallies (world.perform operation).2 program
      (world.nextResolved program resolved operation) := by
  have absent : world.programCount ≤ program → world.program? program = none := by
    intro unborn
    by_contra present
    obtain ⟨found, isFound⟩ := Option.ne_none_iff_exists'.mp present
    have numbered := sound.numbered program found isFound
    omega
  constructor
  · intro unborn
    have unbornBefore := Nat.le_trans (sound.counts operation).1 unborn
    have unanswered : world.answeredKey? program = none := by
      simp [answeredKey?, active_version_absent world (absent unbornBefore)]
    have unresolved : world.resolvedKey? program operation = none := by
      cases operation <;> simp only [resolvedKey?] <;> split <;> simp_all
    simp [nextResolved, tallies.unborn unbornBefore, unresolved]
  · intro later present key
    have retains := sound.retains operation present
    generalize later.state.versions = versions at retains
    cases retains with
    | newborn number spared unresolved =>
        have none := tallies.unborn (Nat.le_of_eq number.symm)
        simp [nextResolved, spared, unresolved, none]
    | reset due => simp [nextResolved, due]
    | unchanged former spared known =>
        simp only [nextResolved, spared, ↓reduceIte, List.mem_append, Option.mem_toList]
        rw [← tallies.kept _ former key]
        constructor
        · exact Or.inl
        · rintro (old | new)
          · exact old
          · exact known key new
    | committed former spared resolvedKey serial =>
        simp only [nextResolved, spared, ↓reduceIte, resolvedKey, List.map_append,
          List.mem_append, tallies.kept _ former key]
        simp

theorem Tallies.run {world : World B} {program : Nat} {resolved : List ProgramKey}
    (tallies : Tallies world program resolved) (sound : world.Sound)
    (operations : List Operation) :
    Tallies (world.run operations) program (world.resolvedSince program resolved operations) := by
  induction operations generalizing world resolved with
  | nil => exact tallies
  | cons operation rest ih =>
      exact ih (tallies.perform sound operation) (sound.perform operation)

theorem Tallies.count {world : World B} {program : Nat} {resolved : List ProgramKey}
    (tallies : Tallies world program resolved) (sound : world.Sound) {found : Program B}
    (present : world.program? program = some found) :
    found.state.versions.length = resolved.dedup.length := by
  have same : (found.state.versions.map Prod.fst).Perm resolved.dedup := by
    refine (List.perm_ext_iff_of_nodup ?_ (List.nodup_dedup resolved)).mpr ?_
    · exact (sound.coherent program found present).keys
    · intro key
      rw [List.mem_dedup]
      exact tallies.kept found present key
  exact (List.length_map Prod.fst).symm.trans same.length_eq

theorem tallies_opening (files : FileTree) (managers : List (Manager B)) (program : Nat) :
    Tallies (opening files managers) program [] where
  unborn _ := rfl
  kept found present := by simp [program_opening] at present

/-! ## Two calls -/

/-- A configuration that has a version is not compiled. -/
theorem Resolves.count_of_cached {world next : World B} {program : Nat} {found : Program B}
    {outcome : Except ProgramError (Version B)} {version : Version B}
    (resolves : Resolves world program found outcome next)
    (cached : found.state.cached? found.state.key = some version) :
    next.versionCount = world.versionCount := by
  cases resolves with
  | current clean => rfl
  | adopted unclean found quiet ids => simp [quiet.versionCount]
  | compiled unclean missing => simp [cached] at missing

/-- After a call that gets a version, the program keeps it under its configuration. -/
theorem Sound.answered {world next : World B} (sound : world.Sound) {program : Nat}
    {found : Program B} {version : Version B} (present : world.program? program = some found)
    (answered : world.activeVersion program = some (.ok version, next)) :
    next = (world.perform (.activeVersion program)).2 ∧
      Resolves world program found (.ok version) next ∧
      ∃ state, Settled world program found version state next := by
  obtain ⟨outcome, last, answer, resolves⟩ := sound.active_version_resolves present
  cases answered.symm.trans answer
  refine ⟨?_, resolves, sound.settled present resolves⟩
  simp [World.perform, answered, conclude]

theorem Settled.keeps {world next : World B} {program : Nat} {found : Program B}
    {version : Version B} {state : ProgramState B}
    (settled : Settled world program found version state next) (sound : next.Sound) :
    Keeps next program found.state.key version := by
  refine ⟨sound.numbered program _ settled.present, ?_⟩
  intro other otherPresent
  cases settled.present.symm.trans otherPresent
  exact settled.kept

/-- Every define has the same value, and every pair of a type and an interface the same number. -/
def SameConfiguration (found later : Program B) : Prop :=
  (∀ name, found.state.defines.get? name = later.state.defines.get? name) ∧
    ∀ conformance, found.state.conformances.get? conformance =
      later.state.conformances.get? conformance

/-- Lists that look the same at every name are the same, however they came about. -/
theorem key_eq_iff (found later : Program B) :
    found.state.key = later.state.key ↔ SameConfiguration found later := by
  simp only [ProgramState.key, ProgramKey.mk.injEq, SortedMap.eq_iff_get_eq, SameConfiguration]

/-- The number of versions that a program keeps is the number of different configurations that
were resolved since its last reset. Of two calls that each get a version with no reset in
between, the second one gets the version of the first exactly if the configuration is the same at
both calls, and then nothing is compiled for it. With a reset in between it gets another
version. -/
theorem compiled_once_between_resets (files : FileTree) (managers : List (Manager B))
    (before : List Operation) (program : Nat) :
    let first := (opening files managers).run before
    ∀ found, first.program? program = some found →
      found.state.versions.length =
          ((opening files managers).resolvedSince program [] before).dedup.length ∧
        ∀ version afterFirst, first.activeVersion program = some (.ok version, afterFirst) →
        ∀ between later last afterLast,
          (afterFirst.run between).program? program = some later →
          (afterFirst.run between).activeVersion program = some (.ok last, afterLast) →
          (afterFirst.resetsIn program between = false →
            (version.serial = last.serial ↔ SameConfiguration found later) ∧
            (version.serial = last.serial → version = last ∧
              afterLast.versionCount = (afterFirst.run between).versionCount)) ∧
          (afterFirst.resetsIn program between = true → version.serial ≠ last.serial) := by
  intro first found present
  have sound : first.Sound := sound_reached files managers before
  have tallies := (tallies_opening files managers program).run (sound_opening files managers)
    before
  refine ⟨tallies.count sound present, ?_⟩
  intro version afterFirst firstAnswer between later last afterLast laterPresent lastAnswer
  -- The first call: its version is kept afterwards.
  obtain ⟨_, firstResolves, state, settled⟩ := sound.answered present firstAnswer
  have soundAfter : afterFirst.Sound := sound.resolves present firstResolves
  have keeps := settled.keeps soundAfter
  have produced := soundAfter.produced program _ settled.present _ settled.kept
  have made : version.serial < afterFirst.versionCount :=
    (soundAfter.owned program _ settled.present _ produced).2.1
  -- The second call.
  let second := afterFirst.run between
  have soundSecond : second.Sound := soundAfter.run between
  obtain ⟨lastNext, lastResolves, lastState, lastSettled⟩ :=
    soundSecond.answered laterPresent lastAnswer
  have soundLast : afterLast.Sound := soundSecond.resolves laterPresent lastResolves
  have lastCoherent := soundLast.coherent program _ lastSettled.present
  constructor
  · intro spared
    have keepsSecond : Keeps second program found.state.key version := keeps.run soundAfter spared
    have keepsLast : Keeps afterLast program found.state.key version :=
      lastNext ▸ keepsSecond.perform soundSecond (by simp [resets])
    have firstKept := keepsLast.kept _ lastSettled.present
    have sameKey : version.serial = last.serial ↔ found.state.key = later.state.key := by
      constructor
      · intro same
        exact congrArg Prod.fst (lastCoherent.entry_unique firstKept lastSettled.kept same)
      · intro same
        have lastKept := lastSettled.kept
        rw [← same] at lastKept
        exact congrArg Version.serial (lastCoherent.version_unique firstKept lastKept)
    refine ⟨sameKey.trans (key_eq_iff found later), ?_⟩
    intro same
    have entries := lastCoherent.entry_unique firstKept lastSettled.kept same
    have keptThen := keepsSecond.kept later laterPresent
    rw [sameKey.mp same] at keptThen
    have cached := ((soundSecond.coherent program later laterPresent).cached_iff _ _).mpr keptThen
    exact ⟨congrArg Prod.snd entries, lastResolves.count_of_cached cached⟩
  · intro due same
    have renewedSecond : Renewed second program afterFirst.versionCount :=
      soundAfter.renewed keeps.numbered due
    have renewedLast : Renewed afterLast program afterFirst.versionCount :=
      lastNext ▸ renewedSecond.perform soundSecond (.activeVersion program)
    have newer : afterFirst.versionCount ≤ last.serial :=
      renewedLast.newer _ lastSettled.present _ lastSettled.kept
    omega

/-- A detour over another configuration leads back to the same version. -/
theorem compiled_once_on_detour :
    let first := (opening {} [Manager.echo]).run [.newProgram 0 .oneKernel ∅]
    ∃ version afterFirst last afterLast,
      first.activeVersion 0 = some (.ok version, afterFirst) ∧
      (afterFirst.run [.editProgram 0 (.addDefine "QUALITY" "2"), .activeVersion 0,
        .editProgram 0 (.removeDefine "QUALITY")]).activeVersion 0 =
          some (.ok last, afterLast) ∧
      version = last := by
  intro first
  let detour : List Operation := [.editProgram 0 (.addDefine "QUALITY" "2"), .activeVersion 0,
    .editProgram 0 (.removeDefine "QUALITY")]
  let returned := (first.perform (.activeVersion 0)).2.run detour
  have firstOk : (first.activeVersion 0).map (fun answer => answer.1.isOk) = some true := by
    decide +kernel
  have lastOk : (returned.activeVersion 0).map (fun answer => answer.1.isOk) = some true := by
    decide +kernel
  have keys : (first.program? 0).map (fun found => some found.state.key) =
      some ((returned.program? 0).map fun later => later.state.key) := by
    decide +kernel
  have spared : (first.perform (.activeVersion 0)).2.resetsIn 0 detour = false := by
    decide +kernel
  obtain ⟨⟨_ | version, afterFirst⟩, firstAnswer, isOk⟩ := Option.map_eq_some_iff.mp firstOk
  · simp [Except.isOk, Except.toBool] at isOk
  obtain ⟨⟨_ | last, afterLast⟩, lastAnswer, isOk⟩ := Option.map_eq_some_iff.mp lastOk
  · simp [Except.isOk, Except.toBool] at isOk
  have afterFirstEq : (first.perform (.activeVersion 0)).2 = afterFirst := by
    simp [perform, firstAnswer, conclude]
  simp only [returned, afterFirstEq] at keys spared lastAnswer
  obtain ⟨found, present, key⟩ := Option.map_eq_some_iff.mp keys
  obtain ⟨later, laterPresent, laterKey⟩ := Option.map_eq_some_iff.mp key.symm
  have once := (compiled_once_between_resets {} [Manager.echo] [.newProgram 0 .oneKernel ∅] 0 found
    present).2 version afterFirst firstAnswer detour later last afterLast laterPresent lastAnswer
  have same := (once.1 spared).1.mpr ((key_eq_iff found later).mp laterKey.symm)
  exact ⟨version, afterFirst, last, afterLast, firstAnswer, lastAnswer,
    ((once.1 spared).2 same).1⟩

end World

end ShaderCache
