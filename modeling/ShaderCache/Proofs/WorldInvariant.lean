import ShaderCache.Proofs.CacheCoherence
import ShaderCache.Proofs.Resolution
import ShaderCache.Proofs.Run

/-!
# The invariant of runs

Every world that a run reaches is sound: programs are registered with their managers, their
caches are coherent, and a version belongs to the one program that produced it.
-/

set_option autoImplicit false

namespace ShaderCache

namespace World

variable {B : Backend} (world : World B)

structure Sound : Prop where
  /-- A sweep of its manager reaches every program that is alive. -/
  managed : ∀ program found, world.program? program = some found →
    ∃ setup, world.setup? found.manager = some setup ∧ program ∈ setup.registry
  numbered : ∀ program found, world.program? program = some found → program < world.programCount
  coherent : ∀ program found, world.program? program = some found → found.state.Coherent
  produced : ∀ program found, world.program? program = some found →
    ∀ entry ∈ found.state.versions, entry.2 ∈ found.state.produced
  owned : ∀ program found, world.program? program = some found →
    ∀ version ∈ found.state.produced, version.program = program ∧
      version.serial < world.versionCount ∧ version.serial ∉ world.orphans
  distinct : ∀ program found other another, world.program? program = some found →
    world.program? other = some another → ∀ version ∈ found.state.produced,
      ∀ rival ∈ another.state.produced, version.serial = rival.serial → version = rival
  orphans : ∀ serial ∈ world.orphans, serial < world.versionCount
  kernels : ∀ entry ∈ world.kernels, entry.version < world.versionCount

/-- A change of state under which soundness is kept: no version is new. -/
structure Tame (before after : ProgramState B) : Prop where
  coherent : before.Coherent → after.Coherent
  versions : ∀ entry ∈ after.versions, entry ∈ before.versions
  produced : after.produced = before.produced

theorem tame_refl (state : ProgramState B) : Tame state state :=
  ⟨fun coherent => coherent, fun _ present => present, rfl⟩

theorem tame_edit (state : ProgramState B) (edit : ProgramState.Edit) :
    Tame state (state.edit edit).2 where
  coherent coherent := coherent.edit edit
  versions := by simp [(ProgramState.edited_from state edit).versions]
  produced := (ProgramState.edited_from state edit).produced

theorem tame_reset (state : ProgramState B) : Tame state state.reset where
  coherent _ := ProgramState.coherent_reset state
  versions _ present := by simp [ProgramState.reset] at present
  produced := rfl

theorem tame_adopt {state : ProgramState B} {version : Version B}
    (cached : state.cached? state.key = some version) : Tame state (state.adopt version) where
  coherent coherent := coherent.adopt cached
  versions _ present := present
  produced := rfl

/-! ## Commits -/

section Commits

variable {program other : Nat} {key : ProgramKey} {version : Version B} {state : ProgramState B}

theorem mem_versions_committed {entry : ProgramKey × Version B}
    (kept : entry ∈ (changeOf program (fun state => state.commit key version) other
      state).versions) :
    entry ∈ state.versions ∨ other = program ∧ entry = (key, version) := by
  by_cases here : other = program
  · simp only [changeOf, here, ↓reduceIte, ProgramState.commit] at kept
    rcases List.mem_append.mp kept with earlier | last
    · exact .inl (List.mem_of_mem_filter earlier)
    · exact .inr ⟨here, List.mem_singleton.mp last⟩
  · simp only [changeOf, here, ↓reduceIte] at kept
    exact .inl kept

theorem mem_produced_committed {later : Version B} :
    later ∈ (changeOf program (fun state => state.commit key version) other state).produced ↔
      later ∈ state.produced ∨ other = program ∧ later = version := by
  by_cases here : other = program
  · simp [changeOf, here, ProgramState.commit]
  · simp [changeOf, here]

end Commits

namespace Sound

variable {world next : World B} (sound : world.Sound)

include sound

theorem alters {change : Nat → ProgramState B → ProgramState B}
    (altered : Alters world next change)
    (tame : ∀ program found, world.program? program = some found →
      Tame found.state (change program found.state)) : next.Sound := by
  refine ⟨?_, ?_, ?_, ?_, ?_, ?_, ?_, ?_⟩
  · intro program found present
    obtain ⟨former, formerPresent, rfl⟩ := altered.program present
    simpa only [altered.setups] using sound.managed program former formerPresent
  · intro program found present
    obtain ⟨former, formerPresent, rfl⟩ := altered.program present
    simpa only [altered.programCount] using sound.numbered program former formerPresent
  · intro program found present
    obtain ⟨former, formerPresent, rfl⟩ := altered.program present
    exact (tame program former formerPresent).coherent
      (sound.coherent program former formerPresent)
  · intro program found present entry kept
    obtain ⟨former, formerPresent, rfl⟩ := altered.program present
    have tameHere := tame program former formerPresent
    rw [tameHere.produced]
    exact sound.produced program former formerPresent entry (tameHere.versions entry kept)
  · intro program found present version isProduced
    obtain ⟨former, formerPresent, rfl⟩ := altered.program present
    rw [(tame program former formerPresent).produced] at isProduced
    simpa only [altered.versionCount, altered.orphans] using
      sound.owned program former formerPresent version isProduced
  · intro program found other another present otherPresent version isProduced rival isRival
    obtain ⟨former, formerPresent, rfl⟩ := altered.program present
    obtain ⟨rest, restPresent, rfl⟩ := altered.program otherPresent
    rw [(tame program former formerPresent).produced] at isProduced
    rw [(tame other rest restPresent).produced] at isRival
    exact sound.distinct program former other rest formerPresent restPresent version isProduced
      rival isRival
  · simpa only [altered.orphans, altered.versionCount] using sound.orphans
  · simpa only [altered.kernels, altered.versionCount] using sound.kernels

theorem quiet (quiet : Quiet world next) : next.Sound :=
  sound.alters quiet.alters fun _ found _ => tame_refl found.state

theorem modify_state {program : Nat} {change : ProgramState B → ProgramState B}
    (tame : ∀ found, world.program? program = some found →
      Tame found.state (change found.state)) :
    (world.modifyState program change).Sound := by
  apply sound.alters (alters_modify_state world program change)
  intro other found present
  by_cases here : other = program
  · simpa [changeOf, here] using tame found (here ▸ present)
  · simpa [changeOf, here] using tame_refl found.state

theorem reset_due (due : List Nat) (altered : Alters world next (resetDue due)) :
    next.Sound := by
  apply sound.alters altered
  intro program found _
  unfold resetDue
  split
  · exact tame_reset found.state
  · exact tame_refl found.state

/-- Settings and backend states take no part in soundness. -/
theorem modify_manager (change : Manager B → Manager B)
    (keeps : ∀ found, (change found).registry = found.registry) (manager : Nat) :
    (world.modifyManager manager change).Sound := by
  refine ⟨?_, sound.numbered, sound.coherent, sound.produced, sound.owned, sound.distinct,
    sound.orphans, sound.kernels⟩
  intro program found present
  obtain ⟨setup, managed, registered⟩ := sound.managed program found present
  rw [setup_modify_manager]
  split
  next here =>
    obtain ⟨former, formerManaged, rfl⟩ := world.manager_of_setup managed
    refine ⟨(change former).setup, by simp [← here, formerManaged], ?_⟩
    have same : (change former).setup.registry = former.setup.registry := keeps former
    exact same ▸ registered
  next => exact ⟨setup, managed, registered⟩

/-- A committed version is new: its serial number was never given out. -/
theorem commit {program : Nat} {found : Program B} {version : Version B}
    (present : world.program? program = some found)
    (missing : found.state.cached? found.state.key = none)
    (serial : version.serial = world.versionCount) (owner : version.program = program)
    (defines : version.defines = found.state.defines)
    (altered : Alters { world with versionCount := world.versionCount + 1 } next
      (changeOf program fun state => state.commit found.state.key version)) :
    next.Sound := by
  have old : ∀ other former, world.program? other = some former →
      ∀ earlier ∈ former.state.produced, earlier.serial < world.versionCount :=
    fun other former formerPresent earlier isProduced =>
      (sound.owned other former formerPresent earlier isProduced).2.1
  have fresh : ∀ entry ∈ found.state.versions, entry.2.serial ≠ version.serial := by
    intro entry kept
    have produced := sound.produced program found present entry kept
    have below := old program found present entry.2 produced
    omega
  refine ⟨?_, ?_, ?_, ?_, ?_, ?_, ?_, ?_⟩
  · intro other later laterPresent
    obtain ⟨former, formerPresent, rfl⟩ := altered.program laterPresent
    rw [altered.setups]
    exact sound.managed other former formerPresent
  · intro other later laterPresent
    obtain ⟨former, formerPresent, rfl⟩ := altered.program laterPresent
    rw [altered.programCount]
    exact sound.numbered other former formerPresent
  · intro other later laterPresent
    obtain ⟨former, formerPresent, rfl⟩ := altered.program laterPresent
    by_cases here : other = program
    · subst here
      cases present.symm.trans formerPresent
      simpa [changeOf] using
        (sound.coherent other found formerPresent).commit missing defines fresh
    · simpa [changeOf, here] using sound.coherent other former formerPresent
  · intro other later laterPresent entry kept
    obtain ⟨former, formerPresent, rfl⟩ := altered.program laterPresent
    rw [mem_produced_committed]
    rcases mem_versions_committed kept with earlier | ⟨here, rfl⟩
    · exact .inl (sound.produced other former formerPresent entry earlier)
    · exact .inr ⟨here, rfl⟩
  · intro other later laterPresent rival isProduced
    obtain ⟨former, formerPresent, rfl⟩ := altered.program laterPresent
    rw [altered.versionCount, altered.orphans]
    rcases mem_produced_committed.mp isProduced with earlier | ⟨here, rfl⟩
    · have owned := sound.owned other former formerPresent rival earlier
      exact ⟨owned.1, Nat.lt_succ_of_lt owned.2.1, owned.2.2⟩
    · refine ⟨owner.trans here.symm, serial ▸ Nat.lt_succ_self _, ?_⟩
      intro orphaned
      have below := sound.orphans _ orphaned
      omega
  · intro other later rest another laterPresent anotherPresent one isOne rival isRival same
    obtain ⟨former, formerPresent, rfl⟩ := altered.program laterPresent
    obtain ⟨second, secondPresent, rfl⟩ := altered.program anotherPresent
    rcases mem_produced_committed.mp isOne with oneEarlier | ⟨_, rfl⟩
    · rcases mem_produced_committed.mp isRival with earlier | ⟨_, rfl⟩
      · exact sound.distinct other former rest second formerPresent secondPresent one oneEarlier
          rival earlier same
      · have below := old other former formerPresent one oneEarlier
        omega
    · rcases mem_produced_committed.mp isRival with earlier | ⟨_, rfl⟩
      · have below := old rest second secondPresent rival earlier
        omega
      · rfl
  · intro serial orphaned
    rw [altered.orphans] at orphaned
    rw [altered.versionCount]
    exact Nat.lt_succ_of_lt (sound.orphans serial orphaned)
  · intro entry kept
    rw [altered.kernels] at kept
    rw [altered.versionCount]
    exact Nat.lt_succ_of_lt (sound.kernels entry kept)

/-- A version that is made is nobody's until it is committed. -/
theorem count_version : ({ world with versionCount := world.versionCount + 1 } : World B).Sound where
  managed := sound.managed
  numbered := sound.numbered
  coherent := sound.coherent
  produced := sound.produced
  owned program found present version isProduced := by
    obtain ⟨owner, below, stays⟩ := sound.owned program found present version isProduced
    exact ⟨owner, Nat.lt_succ_of_lt below, stays⟩
  distinct := sound.distinct
  orphans serial orphaned := Nat.lt_succ_of_lt (sound.orphans serial orphaned)
  kernels entry kept := Nat.lt_succ_of_lt (sound.kernels entry kept)

/-- Kernels are kept for versions that exist. -/
theorem keep {entry : CachedKernels B} (below : entry.version < world.versionCount) :
    ({ world with kernels := world.kernels ++ [entry] } : World B).Sound := by
  refine ⟨sound.managed, sound.numbered, sound.coherent, sound.produced, sound.owned,
    sound.distinct, sound.orphans, ?_⟩
  intro kept present
  rcases List.mem_append.mp present with earlier | last
  · exact sound.kernels kept earlier
  · cases List.mem_singleton.mp last
    exact below

theorem creates {manager : Nat} {found : Manager B} {program : Program B}
    (managed : world.managers[manager]? = some found) (owner : program.manager = manager)
    (coherent : program.state.Coherent) (produced : program.state.produced = [])
    (without : program.state.versions = [])
    (created : Creates manager found program world next) : next.Sound := by
  -- A program of the next world is the new one, or one of before.
  have cases : ∀ other later, next.program? other = some later →
      other = world.programCount ∧ later = program ∨ world.program? other = some later := by
    intro other later present
    rw [created.programs] at present
    split at present
    next here => exact .inl ⟨here, (Option.some.inj present).symm⟩
    next => exact .inr present
  refine ⟨?_, ?_, ?_, ?_, ?_, ?_, ?_, ?_⟩
  · intro other later present
    rw [created.setups]
    rcases cases other later present with ⟨rfl, rfl⟩ | former
    · exact ⟨_, if_pos owner, by simp⟩
    · obtain ⟨setup, setupManaged, registered⟩ := sound.managed other later former
      split
      next here =>
        rw [here, world.setup_of_manager managed] at setupManaged
        cases setupManaged
        exact ⟨_, rfl, List.mem_append_left _ registered⟩
      next => exact ⟨setup, setupManaged, registered⟩
  · intro other later present
    rw [created.programCount]
    rcases cases other later present with ⟨rfl, _⟩ | former
    · exact Nat.lt_succ_self _
    · exact Nat.lt_succ_of_lt (sound.numbered other later former)
  · intro other later present
    rcases cases other later present with ⟨_, rfl⟩ | former
    · exact coherent
    · exact sound.coherent other later former
  · intro other later present entry kept
    rcases cases other later present with ⟨_, rfl⟩ | former
    · simp [without] at kept
    · exact sound.produced other later former entry kept
  · intro other later present version isProduced
    rw [created.versionCount, created.orphans]
    rcases cases other later present with ⟨_, rfl⟩ | former
    · simp [produced] at isProduced
    · exact sound.owned other later former version isProduced
  · intro other later rest another present anotherPresent version isProduced rival isRival
    rcases cases other later present with ⟨_, rfl⟩ | former
    · simp [produced] at isProduced
    · rcases cases rest another anotherPresent with ⟨_, rfl⟩ | anotherFormer
      · simp [produced] at isRival
      · exact sound.distinct other later rest another former anotherFormer version isProduced
          rival isRival
  · simpa only [created.orphans, created.versionCount] using sound.orphans
  · simpa only [created.kernels, created.versionCount] using sound.kernels

/-- The versions of a dropped program are orphaned, and no others. -/
theorem drops {program : Nat} {found : Program B}
    (gone : world.program? program = some found) (dropped : Drops program found world next) :
    next.Sound := by
  have survivor : ∀ other later, next.program? other = some later →
      other ≠ program ∧ world.program? other = some later := by
    intro other later present
    rw [dropped.programs] at present
    split at present
    next => simp at present
    next here => exact ⟨here, present⟩
  refine ⟨?_, ?_, ?_, ?_, ?_, ?_, ?_, ?_⟩
  · intro other later present
    obtain ⟨differs, former⟩ := survivor other later present
    obtain ⟨setup, managed, registered⟩ := sound.managed other later former
    obtain ⟨registry, kept, stays⟩ := dropped.keeps managed
    exact ⟨_, kept, stays other registered differs⟩
  · intro other later present
    rw [dropped.programCount]
    exact sound.numbered other later (survivor other later present).2
  · intro other later present
    exact sound.coherent other later (survivor other later present).2
  · intro other later present
    exact sound.produced other later (survivor other later present).2
  · intro other later present version isProduced
    obtain ⟨differs, former⟩ := survivor other later present
    have owned := sound.owned other later former version isProduced
    rw [dropped.versionCount, dropped.orphans]
    refine ⟨owned.1, owned.2.1, ?_⟩
    intro orphaned
    rcases List.mem_append.mp orphaned with earlier | fresh
    · exact owned.2.2 earlier
    · obtain ⟨rival, isRival, same⟩ := List.mem_map.mp fresh
      have version_eq := sound.distinct other later program found former gone version isProduced
        rival isRival same.symm
      have ownedThere := sound.owned program found gone rival isRival
      exact differs (owned.1.symm.trans (version_eq ▸ ownedThere.1))
  · intro other later rest another present anotherPresent
    exact sound.distinct other later rest another (survivor other later present).2
      (survivor rest another anotherPresent).2
  · intro serial orphaned
    rw [dropped.orphans] at orphaned
    rw [dropped.versionCount]
    rcases List.mem_append.mp orphaned with earlier | fresh
    · exact sound.orphans serial earlier
    · obtain ⟨rival, isRival, rfl⟩ := List.mem_map.mp fresh
      exact (sound.owned program found gone rival isRival).2.1
  · simpa only [dropped.kernels, dropped.versionCount] using sound.kernels

/-! ## Calls -/

/-- A cached version has not been cut off from its program. -/
theorem owner {program : Nat} {found : Program B} (present : world.program? program = some found)
    {key : ProgramKey} {version : Version B} (kept : (key, version) ∈ found.state.versions) :
    world.owner? version = some found := by
  have isProduced := sound.produced program found present _ kept
  obtain ⟨owner, _, stays⟩ := sound.owned program found present version isProduced
  simp only [owner?, if_neg stays, owner, present]

/-- A compilation may be under any settings, not only under those of the moment. -/
theorem compiles_active {settings : Settings} {program : Nat} {found : Program B}
    {outcome : Except ProgramError (Version B)} (present : world.program? program = some found)
    (missing : found.state.cached? found.state.key = none)
    (compiles : CompilesActive world settings program found outcome next) : next.Sound := by
  cases compiles with
  | failed managedBy fails quiet ids => exact sound.quiet quiet
  | made managedBy makes quiet id ids =>
      exact sound.commit present missing rfl rfl rfl
        ((alters_modify_state _ program _).followed quiet)

theorem resolves {program : Nat} {found : Program B} {outcome : Except ProgramError (Version B)}
    (present : world.program? program = some found)
    (resolves : Resolves world program found outcome next) : next.Sound := by
  cases resolves with
  | current clean => exact sound
  | adopted unclean cached quiet ids =>
      refine (sound.modify_state ?_).quiet quiet
      intro other otherPresent
      cases present.symm.trans otherPresent
      exact tame_adopt cached
  | compiled unclean missing managed compiles =>
      exact sound.compiles_active present missing compiles

theorem links {manager : Nat} {program : Program B} {conformances : ConformanceList}
    {version : Version B} {log : String} {outcome : Except ProgramError (Kernels B)}
    (links : Links world manager program conformances version log outcome next) : next.Sound :=
  sound.quiet links.quiet

theorem supplies {version : Version B} {owner : Program B}
    {outcome : Except ProgramError (Kernels B)} (below : version.serial < world.versionCount)
    (supplies : Supplies world version owner outcome next) : next.Sound := by
  cases supplies with
  | kept cached quiet ids => exact sound.quiet quiet
  | failed missing links => exact sound.links links
  | linked missing links quiet ids =>
      have still : version.serial < World.versionCount _ :=
        Nat.lt_of_lt_of_eq below links.quiet.versionCount.symm
      exact ((sound.links links).keep still).quiet quiet

end Sound

/-- What a program looks like after it answered with a version. -/
structure Settled (program : Nat) (found : Program B) (version : Version B)
    (state : ProgramState B) (next : World B) : Prop where
  present : next.program? program = some { found with state := state }
  others : ∀ other, other ≠ program → next.program? other = world.program? other
  key : state.key = found.state.key
  clean : state.dirty = false
  active : state.active = some version
  kept : (found.state.key, version) ∈ state.versions

/-- A version is answered only when it is the active one of a program that is not dirty, and
kept under the configuration. -/
theorem Sound.settled {world next : World B} (sound : world.Sound) {program : Nat}
    {found : Program B} (present : world.program? program = some found) {version : Version B}
    (resolves : Resolves world program found (.ok version) next) :
    ∃ state, Settled world program found version state next := by
  have coherent := sound.coherent program found present
  cases resolves with
  | current clean =>
      have kept := coherent.current_cached clean
      have isActive : found.state.dirty = false ∧ found.state.active = some version := by
        simpa [ProgramState.current?] using clean
      exact ⟨found.state, present, fun _ _ => rfl, rfl, isActive.1, isActive.2, kept⟩
  | adopted unclean cached quiet ids =>
      have kept := (coherent.cached_iff _ _).mp cached
      refine ⟨found.state.adopt version, ?_, ?_, rfl, rfl, rfl, kept⟩
      · simp [quiet.programs, program_modify_state, present]
      · intro other differs
        simp [quiet.programs, program_modify_state, differs]
  | compiled unclean missing managed compiles =>
      cases compiles with
      | @made _ compiled _ managedBy makes quiet id ids =>
          let version := world.freshVersion program found compiled
          refine ⟨found.state.commit found.state.key version, ?_, ?_, rfl, rfl, rfl, ?_⟩
          · rw [quiet.programs, program_modify_state, if_pos rfl]
            change (world.program? program).map _ = _
            rw [present]
            rfl
          · intro other differs
            rw [quiet.programs, program_modify_state, if_neg differs]
            rfl
          · rw [ProgramState.commit_versions _ missing]
            exact List.mem_append_right _ (List.mem_singleton.mpr rfl)

/-- The ways in which a call for the kernels of the active version can end. -/
inductive Provides (program : Nat) (found : Program B) :
    Except ProgramError (Kernels B) → World B → Prop where
  | unresolved {error : ProgramError} {next : World B}
      (answered : world.activeVersion program = some (.error error, next))
      (resolves : Resolves world program found (.error error) next) :
      Provides program found (.error error) next
  | resolved {version : Version B} {state : ProgramState B} {between next : World B}
      {outcome : Except ProgramError (Kernels B)}
      (answered : world.activeVersion program = some (.ok version, between))
      (resolves : Resolves world program found (.ok version) between)
      (settled : Settled world program found version state between)
      (supplies : Supplies between version { found with state := state } outcome next)
      (called : between.kernelsOf version = some (outcome, next)) :
      Provides program found outcome next

end World

end ShaderCache
