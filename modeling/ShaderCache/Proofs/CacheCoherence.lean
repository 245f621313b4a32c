import Mathlib.Data.List.Nodup
import ShaderCache.Proofs.ConfigurationEdit

/-!
# Coherent caches

What holds of the versions that one program keeps, whatever has been done with it. A program
that is not dirty answers without a look at its versions, so its active version has to be the
one that the look would find.
-/

set_option autoImplicit false

namespace ShaderCache

theorem lookup_iff_mem {Key Value : Type} [BEq Key] [LawfulBEq Key]
    {entries : List (Key × Value)} (distinct : (entries.map Prod.fst).Nodup) {key : Key}
    {value : Value} : entries.lookup key = some value ↔ (key, value) ∈ entries := by
  induction entries with
  | nil => simp
  | cons first rest ih =>
      obtain ⟨firstKey, firstValue⟩ := first
      rw [List.map_cons, List.nodup_cons] at distinct
      obtain ⟨unseen, tailDistinct⟩ := distinct
      rw [List.lookup_cons]
      cases same : key == firstKey with
      | true =>
          have key_eq : key = firstKey := by simpa using same
          subst key_eq
          have absent : (key, value) ∉ rest := fun later =>
            unseen (List.mem_map.mpr ⟨(key, value), later, rfl⟩)
          simp [absent, eq_comm]
      | false =>
          have key_ne : key ≠ firstKey := by simpa using same
          simp [ih tailDistinct, key_ne]

namespace ProgramState

variable {B : Backend}

/-- The versions of a program and its active one are in order. -/
structure Coherent (state : ProgramState B) : Prop where
  /-- A program that is not dirty has the version of its configuration as the active one. -/
  clean : state.dirty = false →
    ∃ version, state.active = some version ∧ (state.key, version) ∈ state.versions
  active : ∀ version, state.active = some version → ∃ key, (key, version) ∈ state.versions
  defines : ∀ key version, (key, version) ∈ state.versions → version.defines = key.defines
  keys : (state.versions.map Prod.fst).Nodup
  serials : (state.versions.map fun entry => entry.2.serial).Nodup

namespace Coherent

variable {state : ProgramState B} (coherent : state.Coherent)

include coherent

theorem cached_iff (key : ProgramKey) (version : Version B) :
    state.cached? key = some version ↔ (key, version) ∈ state.versions :=
  lookup_iff_mem coherent.keys

/-- The answer of a program that is not dirty is the one that its versions give. -/
theorem current_cached {version : Version B} (current : state.current? = some version) :
    (state.key, version) ∈ state.versions := by
  unfold current? at current
  split at current
  next => simp at current
  next notDirty =>
    obtain ⟨found, isActive, cached⟩ := coherent.clean (by simpa using notDirty)
    have same : found = version := Option.some.inj (isActive.symm.trans current)
    exact same ▸ cached

theorem version_unique {key : ProgramKey} {version other : Version B}
    (here : (key, version) ∈ state.versions) (there : (key, other) ∈ state.versions) :
    version = other := by
  have found := (coherent.cached_iff key version).mpr here
  have same := (coherent.cached_iff key other).mpr there
  exact Option.some.inj (found.symm.trans same)

theorem entry_unique {entry other : ProgramKey × Version B} (here : entry ∈ state.versions)
    (there : other ∈ state.versions) (same : entry.2.serial = other.2.serial) : entry = other :=
  List.inj_on_of_nodup_map coherent.serials here there same

theorem without_versions (none : state.versions = []) :
    state.dirty = true ∧ state.active = Option.none := by
  constructor
  · by_contra notDirty
    obtain ⟨version, _, cached⟩ := coherent.clean (by simpa using notDirty)
    simp [none] at cached
  · by_contra isSome
    obtain ⟨version, isActive⟩ := Option.ne_none_iff_exists'.mp isSome
    obtain ⟨key, cached⟩ := coherent.active version isActive
    simp [none] at cached

/-- An edit that reports no change changes nothing, so a program stays clean only with the
configuration of its active version. -/
theorem edit (change : Edit) : (state.edit change).2.Coherent := by
  have edited := edited_from state change
  refine ⟨?_, ?_, ?_, ?_, ?_⟩
  · intro notDirty
    rw [edited.dirty, Bool.or_eq_false_iff] at notDirty
    rw [edit_unchanged state change notDirty.2]
    exact coherent.clean notDirty.1
  · simpa only [edited.active, edited.versions] using coherent.active
  · simpa only [edited.versions] using coherent.defines
  · simpa only [edited.versions] using coherent.keys
  · simpa only [edited.versions] using coherent.serials

theorem adopt {version : Version B} (cached : state.cached? state.key = some version) :
    (state.adopt version).Coherent where
  clean _ := ⟨version, rfl, (coherent.cached_iff _ _).mp cached⟩
  active _ isActive :=
    ⟨state.key, Option.some.inj isActive ▸ (coherent.cached_iff _ _).mp cached⟩
  defines := coherent.defines
  keys := coherent.keys
  serials := coherent.serials

end Coherent

theorem missing_iff (state : ProgramState B) (key : ProgramKey) :
    state.cached? key = none ↔ key ∉ state.versions.map Prod.fst := by
  simp only [cached?, List.lookup_eq_none_iff, List.mem_map, not_exists, not_and]
  constructor
  · intro differ entry present same
    have differs := differ entry present
    simp [same] at differs
  · intro differ entry present
    have differs := differ entry present
    simpa using fun same : key = entry.1 => differs same.symm

/-- Keeping a version under a configuration that has none displaces nothing. -/
theorem commit_versions {state : ProgramState B} {key : ProgramKey} (version : Version B)
    (missing : state.cached? key = none) :
    (state.commit key version).versions = state.versions ++ [(key, version)] := by
  have absent := (missing_iff state key).mp missing
  have kept : state.versions.filter (fun entry => entry.1 ≠ key) = state.versions := by
    apply List.filter_eq_self.mpr
    intro entry present
    have differs : entry.1 ≠ key := fun same => absent (List.mem_map.mpr ⟨entry, present, same⟩)
    simp [differs]
  simp only [commit, kept]

theorem Coherent.commit {state : ProgramState B} (coherent : state.Coherent)
    {version : Version B} (missing : state.cached? state.key = none)
    (defines : version.defines = state.defines)
    (fresh : ∀ entry ∈ state.versions, entry.2.serial ≠ version.serial) :
    (state.commit state.key version).Coherent := by
  have versions := commit_versions version missing
  have kept : (state.key, version) ∈ (state.commit state.key version).versions := by
    simp [versions]
  refine ⟨fun _ => ⟨version, rfl, kept⟩, ?_, ?_, ?_, ?_⟩
  · intro other isActive
    exact ⟨state.key, Option.some.inj isActive ▸ kept⟩
  · intro key other present
    rw [versions] at present
    rcases List.mem_append.mp present with earlier | last
    · exact coherent.defines key other earlier
    · cases List.mem_singleton.mp last
      exact defines
  · rw [versions, List.map_append, List.nodup_append]
    refine ⟨coherent.keys, List.nodup_singleton _, ?_⟩
    intro earlier present last isLast same
    have key_eq : earlier = state.key := same.trans (List.mem_singleton.mp isLast)
    exact (missing_iff state state.key).mp missing (key_eq ▸ present)
  · rw [versions, List.map_append, List.nodup_append]
    refine ⟨coherent.serials, List.nodup_singleton _, ?_⟩
    intro earlier present last isLast same
    obtain ⟨entry, entryPresent, rfl⟩ := List.mem_map.mp present
    exact fresh entry entryPresent (same.trans (List.mem_singleton.mp isLast))

theorem coherent_reset (state : ProgramState B) : state.reset.Coherent where
  clean notDirty := by simp [reset] at notDirty
  active _ isActive := by simp [reset] at isActive
  defines _ _ present := by simp [reset] at present
  keys := List.nodup_nil
  serials := List.nodup_nil

theorem coherent_new (defines : DefineList) (conformances : ConformanceList) :
    (⟨defines, conformances, true, none, [], []⟩ : ProgramState B).Coherent where
  clean notDirty := by simp at notDirty
  active _ isActive := by simp at isActive
  defines _ _ present := by simp at present
  keys := List.nodup_nil
  serials := List.nodup_nil

end ProgramState

end ShaderCache
