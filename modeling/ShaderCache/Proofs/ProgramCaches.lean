import Mathlib.Algebra.Group.Nat.Defs
import ShaderCache.Proofs.Echo
import ShaderCache.Proofs.RunInvariant

/-!
# The caches of programs

Identifiers of versions are drawn in the order in which versions are made, and a draw is never
repeated before the sequence wraps around. With this and the soundness of runs, the cache of a
program is in order in every world that a run reaches.
-/

set_option autoImplicit false

namespace ShaderCache

variable {B : Backend}

namespace Operation

/-- Whether the operation can compile, and so draw an identifier. -/
def resolving : Operation → Bool
  | .activeVersion _ => true
  | .activeKernels _ => true
  | _ => false

end Operation

namespace IdSequence

/-- The identifier that is drawn after `place` others. -/
def idAt (place : Nat) : UInt64 := UInt64.ofNat (place + 1)

theorem id_at_succ (place : Nat) : idAt place + 1 = idAt (place + 1) := by
  simp [idAt, UInt64.ofNat_add]

theorem id_at_injective {place other : Nat} (below : place < 2 ^ 64) (otherBelow : other < 2 ^ 64)
    (same : idAt place = idAt other) : place = other := by
  have values : (place + 1) % 2 ^ 64 = (other + 1) % 2 ^ 64 := by
    simpa [idAt] using congrArg UInt64.toNat same
  omega

end IdSequence

open IdSequence

namespace World

/-! ## Numbering -/

/-- `drawn` identifiers have been drawn, and the version with serial number `n` has the one of
place `issued[n]`. -/
structure Numbered (world : World B) (issued : List Nat) (drawn : Nat) : Prop where
  upcoming : world.versionIds.upcoming = idAt drawn
  size : issued.length = world.versionCount
  increasing : issued.Pairwise (· < ·)
  below : ∀ place ∈ issued, place < drawn
  ids : ∀ program found, world.program? program = some found →
    ∀ version ∈ found.state.produced, ∃ place, issued[version.serial]? = some place ∧
      version.id = idAt place

namespace Numbered

variable {world next : World B} {issued : List Nat} {drawn : Nat}
  (numbered : Numbered world issued drawn)

include numbered

/-- Versions that are not the same have different identifiers, unless the sequence wrapped
around. -/
theorem ids_differ (few : drawn ≤ 2 ^ 64) {program other : Nat} {found another : Program B}
    (present : world.program? program = some found)
    (otherPresent : world.program? other = some another) {version rival : Version B}
    (produced : version ∈ found.state.produced) (rivalProduced : rival ∈ another.state.produced)
    (differ : version.serial ≠ rival.serial) : version.id ≠ rival.id := by
  obtain ⟨place, placed, id⟩ := numbered.ids program found present version produced
  obtain ⟨rivalPlace, rivalPlaced, rivalId⟩ :=
    numbered.ids other another otherPresent rival rivalProduced
  obtain ⟨bound, placeEq⟩ := List.getElem?_eq_some_iff.mp placed
  obtain ⟨rivalBound, rivalPlaceEq⟩ := List.getElem?_eq_some_iff.mp rivalPlaced
  have below := numbered.below place (placeEq ▸ List.getElem_mem bound)
  have rivalBelow := numbered.below rivalPlace (rivalPlaceEq ▸ List.getElem_mem rivalBound)
  have ordered := List.pairwise_iff_getElem.mp numbered.increasing
  intro same
  have placesEq : place = rivalPlace :=
    id_at_injective (Nat.lt_of_lt_of_le below few) (Nat.lt_of_lt_of_le rivalBelow few)
      (id.symm.trans (same.trans rivalId))
  rcases Nat.lt_or_gt_of_ne differ with earlier | later
  · have less := ordered _ _ bound rivalBound earlier
    omega
  · have greater := ordered _ _ rivalBound bound later
    omega

theorem carried {after : Nat} (count : next.versionCount = world.versionCount)
    (upcoming : next.versionIds.upcoming = idAt after) (later : drawn ≤ after)
    (old : ∀ program found, next.program? program = some found →
      ∀ version ∈ found.state.produced, ∃ former, world.program? program = some former ∧
        version ∈ former.state.produced) : Numbered next issued after where
  upcoming := upcoming
  size := numbered.size.trans count.symm
  increasing := numbered.increasing
  below place present := Nat.lt_of_lt_of_le (numbered.below place present) later
  ids program found present version produced := by
    obtain ⟨former, formerPresent, formerProduced⟩ := old program found present version produced
    exact numbered.ids program former formerPresent version formerProduced

theorem altered {change : Nat → ProgramState B → ProgramState B}
    (alters : Alters world next change)
    (keeps : ∀ program state, (change program state).produced = state.produced)
    (ids : next.versionIds = world.versionIds) : Numbered next issued drawn := by
  apply numbered.carried alters.versionCount (ids ▸ numbered.upcoming) (Nat.le_refl drawn)
  intro program found present version produced
  obtain ⟨former, formerPresent, rfl⟩ := alters.program present
  rw [keeps] at produced
  exact ⟨former, formerPresent, produced⟩

theorem quiet {after : Nat} (quiet : Quiet world next)
    (upcoming : next.versionIds.upcoming = idAt after) (later : drawn ≤ after) :
    Numbered next issued after := by
  apply numbered.carried quiet.versionCount upcoming later
  intro program found present version produced
  exact ⟨found, (quiet.programs program).symm.trans present, produced⟩

/-- A new version has the identifier that was next. -/
theorem commit {program : Nat} {found : Program B} {version : Version B}
    (altered : Alters { world with versionCount := world.versionCount + 1 } next
      (changeOf program fun state => state.commit found.state.key version))
    (serial : version.serial = world.versionCount)
    (id : version.id = world.versionIds.upcoming)
    (ids : next.versionIds = world.versionIds.draw.2) :
    Numbered next (issued ++ [drawn]) (drawn + 1) := by
  refine ⟨?_, ?_, ?_, ?_, ?_⟩
  · have upcoming_eq : next.versionIds.upcoming = world.versionIds.upcoming + 1 := by
      rw [ids]
      rfl
    rw [upcoming_eq, numbered.upcoming, id_at_succ]
  · simp [numbered.size, altered.versionCount]
  · rw [List.pairwise_append]
    refine ⟨numbered.increasing, List.pairwise_singleton _ _, ?_⟩
    intro place present last isLast
    rw [List.mem_singleton.mp isLast]
    exact numbered.below place present
  · intro place present
    rcases List.mem_append.mp present with earlier | last
    · exact Nat.lt_succ_of_lt (numbered.below place earlier)
    · rw [List.mem_singleton.mp last]
      exact Nat.lt_succ_self drawn
  · intro other later present one produced
    obtain ⟨former, formerPresent, rfl⟩ := altered.program present
    have old : one ∈ former.state.produced → ∃ place,
        (issued ++ [drawn])[one.serial]? = some place ∧ one.id = idAt place := by
      intro earlier
      obtain ⟨place, placed, idEq⟩ := numbered.ids other former formerPresent one earlier
      obtain ⟨bound, _⟩ := List.getElem?_eq_some_iff.mp placed
      exact ⟨place, (List.getElem?_append_left bound).trans placed, idEq⟩
    rcases mem_produced_committed.mp produced with earlier | ⟨_, rfl⟩
    · exact old earlier
    · refine ⟨drawn, ?_, id.trans numbered.upcoming⟩
      rw [serial, ← numbered.size]
      exact List.getElem?_concat_length

theorem resolves {program : Nat} {found : Program B} {outcome : Except ProgramError (Version B)}
    (resolves : Resolves world program found outcome next) :
    ∃ issued after, after ≤ drawn + 1 ∧ Numbered next issued after := by
  cases resolves with
  | current clean => exact ⟨issued, drawn, Nat.le_succ drawn, numbered⟩
  | @adopted version _ unclean cached quiet ids =>
      refine ⟨issued, drawn, Nat.le_succ drawn, ?_⟩
      have alters := (alters_modify_state world program
        fun state => state.adopt version).followed quiet
      exact numbered.altered alters
        (change_of_keeps ProgramState.produced program fun _ => rfl) ids
  | compiled unclean missing managed compiles =>
      cases compiles with
      | failed managedBy fails quiet ids =>
          rcases ids with kept | drew
          · exact ⟨issued, drawn, Nat.le_succ drawn,
              numbered.quiet quiet (kept ▸ numbered.upcoming) (Nat.le_refl drawn)⟩
          · refine ⟨issued, drawn + 1, Nat.le_refl _, numbered.quiet quiet ?_ (Nat.le_succ drawn)⟩
            rw [drew, ← id_at_succ, ← numbered.upcoming]
            rfl
      | made managedBy makes quiet id ids =>
          exact ⟨issued ++ [drawn], drawn + 1, Nat.le_refl _,
            numbered.commit ((alters_modify_state _ program _).followed quiet) rfl id ids⟩

theorem supplies {version : Version B} {owner : Program B}
    {outcome : Except ProgramError (Kernels B)}
    (supplies : Supplies world version owner outcome next) : Numbered next issued drawn := by
  obtain ⟨kernels, quiet, ids⟩ := supplies.quiet
  have recounted : Numbered { world with kernels := kernels } issued drawn :=
    ⟨numbered.upcoming, numbered.size, numbered.increasing, numbered.below, numbered.ids⟩
  exact recounted.quiet quiet (ids ▸ numbered.upcoming) (Nat.le_refl drawn)

end Numbered

/-- One operation draws at most once, and only if it can compile. -/
theorem Numbered.perform {world : World B} {issued : List Nat} {drawn : Nat}
    (numbered : Numbered world issued drawn) (sound : world.Sound) (operation : Operation) :
    ∃ issued after, after ≤ drawn + (if operation.resolving then 1 else 0) ∧
      Numbered (world.perform operation).2 issued after := by
  have performs := sound.performs operation
  generalize (world.perform operation).1 = answer at performs
  generalize (world.perform operation).2 = next at performs
  cases performs with
  | unmanaged absent => exact ⟨issued, drawn, Nat.le_add_right _ _, numbered⟩
  | untargeted target absent => exact ⟨issued, drawn, Nat.le_add_right _ _, numbered⟩
  | created managed creates =>
      refine ⟨issued, drawn, Nat.le_add_right _ _, numbered.carried creates.versionCount
        (creates.versionIds ▸ numbered.upcoming) (Nat.le_refl drawn) ?_⟩
      intro program found present version produced
      rw [creates.programs] at present
      split at present
      next =>
        cases present
        simp [newbornOf] at produced
      next => exact ⟨found, present, produced⟩
  | dropped present drops =>
      refine ⟨issued, drawn, Nat.le_add_right _ _, numbered.carried drops.versionCount
        (drops.versionIds ▸ numbered.upcoming) (Nat.le_refl drawn) ?_⟩
      intro program found foundPresent version produced
      rw [drops.programs] at foundPresent
      split at foundPresent
      next => simp at foundPresent
      next => exact ⟨found, foundPresent, produced⟩
  | @edited _ edit _ _ present alters ids =>
      refine ⟨issued, drawn, Nat.le_add_right _ _, numbered.altered alters ?_ ids⟩
      exact change_of_keeps ProgramState.produced _ fun state =>
        (ProgramState.edited_from state edit).produced
  | swept sweeping alters ids =>
      refine ⟨issued, drawn, Nat.le_add_right _ _, ?_⟩
      have written : Numbered (world.written operation) issued drawn := by
        cases operation <;> exact numbered.carried rfl numbered.upcoming (Nat.le_refl drawn)
          fun program found present version produced => ⟨found, present, produced⟩
      apply written.altered alters (reset_due_keeps ProgramState.produced (fun _ => rfl)
        (world.resets operation))
      rw [ids]
      cases operation <;> rfl
  | resolved present answered resolves => exact numbered.resolves resolves
  | provided present provides =>
      cases provides with
      | unresolved answered resolves => exact numbered.resolves resolves
      | resolved answered resolves settled supplies =>
          obtain ⟨between, after, few, numberedBetween⟩ := numbered.resolves resolves
          exact ⟨between, after, few, numberedBetween.supplies supplies⟩

/-- A run draws at most once for each call. -/
theorem Numbered.run {world : World B} {issued : List Nat} {drawn : Nat}
    (numbered : Numbered world issued drawn) (sound : world.Sound) (operations : List Operation) :
    ∃ issued after, after ≤ drawn + operations.countP Operation.resolving ∧
      Numbered (world.run operations) issued after := by
  induction operations generalizing world issued drawn with
  | nil => exact ⟨issued, drawn, Nat.le_refl drawn, numbered⟩
  | cons operation rest ih =>
      obtain ⟨between, middle, few, numberedBetween⟩ := numbered.perform sound operation
      obtain ⟨last, after, fewRest, numberedAfter⟩ := ih numberedBetween (sound.perform operation)
      refine ⟨last, after, ?_, numberedAfter⟩
      rw [List.countP_cons]
      omega

theorem numbered_opening (files : FileTree) (managers : List (Manager B)) :
    Numbered (opening files managers) [] 0 where
  upcoming := rfl
  size := rfl
  increasing := List.Pairwise.nil
  below place present := by simp at present
  ids program found present := by simp [program_opening] at present

/-! ## Caches in order -/

/-- In every world that a run reaches: a program that is not dirty answers at once with the one
version that it keeps under its configuration; an active version is a kept one; versions are
kept under their own defines, and under different configurations there are different versions,
whose identifiers differ as long as the sequence cannot have wrapped around; and a program that
keeps nothing is dirty and has no active version. -/
theorem program_caches_in_order (files : FileTree) (managers : List (Manager B))
    (operations : List Operation) (program : Nat) (found : Program B)
    (present : ((opening files managers).run operations).program? program = some found) :
    (found.state.dirty = false → ∃ version, found.state.active = some version ∧
      found.state.current? = some version ∧ found.state.cached? found.state.key = some version ∧
      ∀ other, (found.state.key, other) ∈ found.state.versions ↔ other = version) ∧
    (∀ version, found.state.active = some version →
      ∃ key, (key, version) ∈ found.state.versions) ∧
    (∀ key version, (key, version) ∈ found.state.versions → version.defines = key.defines) ∧
    (∀ key version other rival, (key, version) ∈ found.state.versions →
      (other, rival) ∈ found.state.versions → key ≠ other →
        version.serial ≠ rival.serial ∧
        (operations.countP Operation.resolving ≤ 2 ^ 64 → version.id ≠ rival.id)) ∧
    (found.state.versions = [] → found.state.dirty = true ∧ found.state.active = none) := by
  have sound := sound_reached files managers operations
  have coherent := sound.coherent program found present
  refine ⟨?_, coherent.active, coherent.defines, ?_, coherent.without_versions⟩
  · intro notDirty
    obtain ⟨version, isActive, kept⟩ := coherent.clean notDirty
    refine ⟨version, isActive, ?_, (coherent.cached_iff _ _).mpr kept, ?_⟩
    · simp [ProgramState.current?, notDirty, isActive]
    · intro other
      constructor
      · intro otherKept
        exact coherent.version_unique otherKept kept
      · rintro rfl
        exact kept
  · intro key version other rival kept rivalKept differ
    have serials : version.serial ≠ rival.serial := by
      intro same
      have entries := coherent.entry_unique kept rivalKept same
      exact differ (congrArg Prod.fst entries)
    refine ⟨serials, ?_⟩
    intro few
    obtain ⟨issued, drawn, drawnFew, numbered⟩ :=
      (numbered_opening files managers).run (sound_opening files managers) operations
    have produced := sound.produced program found present _ kept
    have rivalProduced := sound.produced program found present _ rivalKept
    exact numbered.ids_differ (by omega) present present produced rivalProduced serials

/-- Two configurations, and a failure in between. -/
theorem caches_after_detour :
    let operations : List Operation := [.newProgram 0 .oneKernel ∅, .activeVersion 0,
      .editProgram 0 (.addDefine "BROKEN" "1"), .activeVersion 0,
      .editProgram 0 (.removeDefine "BROKEN"), .editProgram 0 (.addDefine "QUALITY" "2"),
      .activeKernels 0]
    ∃ found, ((opening {} [Manager.echo]).run operations).program? 0 = some found ∧
      found.state.versions.length = 2 ∧
      ∃ version, found.state.current? = some version ∧
        found.state.cached? found.state.key = some version := by
  intro operations
  have evaluated : (((opening {} [Manager.echo]).run operations).program? 0).map
      (fun found => (found.state.dirty, found.state.versions.length)) = some (false, 2) := by
    decide +kernel
  obtain ⟨found, present, values⟩ := Option.map_eq_some_iff.mp evaluated
  obtain ⟨notDirty, twoVersions⟩ := Prod.mk.inj values
  have inOrder := program_caches_in_order {} [Manager.echo] operations 0 found present
  obtain ⟨version, _, current, cached, _⟩ := inOrder.1 notDirty
  exact ⟨found, present, twoVersions, version, current, cached⟩

end World

end ShaderCache
