import Mathlib.Algebra.Group.Nat.Defs
import ShaderCache.Proofs.RequestContents
import ShaderCache.Proofs.RequestEffects

/-!
# Positions of entry points

The entry points of a program carry their positions, and are declared to the compiler with them,
group by group. So what is ordered by these indices is in the order of the entry points.
-/

set_option autoImplicit false

namespace ShaderCache

variable {B : Backend}

/-- What the compiler is told of an entry point that has its index. -/
def EntryPoint.declaration (shaderModule : Nat) (entry : EntryPoint) : EntryPointDecl :=
  ⟨shaderModule, entry.name, entry.stage, entry.globalIndex.getD 0⟩

namespace ProgramDesc

def declarations (desc : ProgramDesc) : List EntryPointDecl :=
  desc.groups.flatMap fun group => group.entryPoints.map (EntryPoint.declaration group.shaderModule)

/-- Every entry point carries its own position. -/
def Positioned (desc : ProgramDesc) : Prop :=
  ∀ (position : Nat) (entry : EntryPoint), desc.entryPoints[position]? = some entry →
    entry.globalIndex = some (UInt32.ofNat position)

/-! ## Numbering -/

theorem number_entries_append (next : UInt32) (first rest : List EntryPoint) :
    (numberEntries next (first ++ rest)).1 =
      (numberEntries next first).1 ++ (numberEntries (numberEntries next first).2 rest).1 := by
  induction first generalizing next with
  | nil => rfl
  | cons entry others ih => simp only [List.cons_append, numberEntries, ih]

/-- Numbering group by group is numbering all entry points in a row. -/
theorem number_groups_entries (next : UInt32) (groups : List EntryPointGroup) :
    (numberGroups next groups).flatMap EntryPointGroup.entryPoints =
      (numberEntries next (groups.flatMap EntryPointGroup.entryPoints)).1 := by
  induction groups generalizing next with
  | nil => rfl
  | cons group rest ih =>
      simp only [numberGroups, List.flatMap_cons, number_entries_append, ih]

theorem number_entries_at (start : Nat) {entries : List EntryPoint} {position : Nat}
    {entry : EntryPoint}
    (present : (numberEntries (UInt32.ofNat start) entries).1[position]? = some entry) :
    entry.globalIndex = some (UInt32.ofNat (start + position)) := by
  induction entries generalizing start position with
  | nil => simp [numberEntries] at present
  | cons first rest ih =>
      have next_eq : UInt32.ofNat start + 1 = UInt32.ofNat (start + 1) := by
        simp [UInt32.ofNat_add]
      simp only [numberEntries, next_eq] at present
      cases position with
      | zero =>
          cases present
          rfl
      | succ before =>
          rw [List.getElem?_cons_succ] at present
          rw [ih (start + 1) present, Nat.add_right_comm, Nat.add_assoc]

theorem positioned_finalize (desc : ProgramDesc) : desc.finalize.Positioned := by
  intro position entry present
  simp only [entryPoints, finalize, number_groups_entries] at present
  have found := number_entries_at 0 present
  rwa [Nat.zero_add] at found

theorem numbered_from_iff (start : Nat) (entries : List EntryPoint) :
    isNumberedFrom (UInt32.ofNat start) entries = true ↔
      ∀ (position : Nat) (entry : EntryPoint), entries[position]? = some entry →
        entry.globalIndex = some (UInt32.ofNat (start + position)) := by
  induction entries generalizing start with
  | nil => simp [isNumberedFrom]
  | cons first rest ih =>
      have next_eq : UInt32.ofNat start + 1 = UInt32.ofNat (start + 1) := by
        simp [UInt32.ofNat_add]
      simp only [isNumberedFrom, next_eq, Bool.and_eq_true, decide_eq_true_eq, ih]
      constructor
      · rintro ⟨here, later⟩ position entry present
        cases position with
        | zero =>
            cases present
            exact here
        | succ before =>
            have index := later before entry present
            rwa [Nat.add_right_comm, Nat.add_assoc] at index
      · intro indexed
        refine ⟨indexed 0 first rfl, ?_⟩
        intro position entry present
        have index := indexed (position + 1) entry present
        rwa [Nat.add_right_comm, Nat.add_assoc]

theorem is_finalized_iff (desc : ProgramDesc) : desc.isFinalized = true ↔ desc.Positioned := by
  have numbered := numbered_from_iff 0 desc.entryPoints
  simp only [Nat.zero_add] at numbered
  exact numbered

/-- What is told of items by their indices is told by their positions, if these are the indices. -/
theorem map_by_positions {Item Value : Type} {items : List Item} {indexOf : Item → UInt32}
    (indexed : ∀ (position : Nat) (item : Item), items[position]? = some item →
      indexOf item = UInt32.ofNat position)
    (tell : UInt32 → Item → Value) :
    (items.map fun item => tell (indexOf item) item) =
      items.mapIdx fun position => tell (UInt32.ofNat position) := by
  apply List.ext_getElem?
  intro position
  rw [List.getElem?_map, List.getElem?_mapIdx]
  cases isAt : items[position]? with
  | none => rfl
  | some item => rw [Option.map_some, Option.map_some, indexed position item isAt]

variable {desc : ProgramDesc}

theorem Positioned.index_at (positioned : desc.Positioned) {position : Nat} {entry : EntryPoint}
    (isAt : desc.entryPoints[position]? = some entry) :
    entry.globalIndex.getD 0 = UInt32.ofNat position := by
  rw [positioned position entry isAt, Option.getD_some]

theorem Positioned.map_indexed (positioned : desc.Positioned) {Value : Type}
    (tell : UInt32 → EntryPoint → Value) :
    (desc.entryPoints.map fun entry => tell (entry.globalIndex.getD 0) entry) =
      desc.entryPoints.mapIdx fun position => tell (UInt32.ofNat position) :=
  map_by_positions (fun _ _ => positioned.index_at) tell

/-! ## Declarations -/

theorem declare_entries_eq (shaderModule position : Nat) {entries : List EntryPoint}
    (indexed : ∀ entry ∈ entries, entry.globalIndex ≠ none) :
    CompileContext.declareEntries shaderModule position entries =
      entries.map (EntryPoint.declaration shaderModule) := by
  induction entries generalizing position with
  | nil => rfl
  | cons first rest ih =>
      obtain ⟨index, isIndex⟩ := Option.ne_none_iff_exists'.mp (indexed first List.mem_cons_self)
      have later := ih (position + 1) fun entry present =>
        indexed entry (List.mem_cons_of_mem _ present)
      simp [CompileContext.declareEntries, EntryPoint.declaration, isIndex, later]

theorem declare_groups_eq {moduleCount number position : Nat} {groups : List EntryPointGroup}
    {declared : List EntryPointDecl}
    (indexed : ∀ group ∈ groups, ∀ entry ∈ group.entryPoints, entry.globalIndex ≠ none)
    (declares : CompileContext.declareGroups moduleCount number position groups = .ok declared) :
    declared = groups.flatMap fun group =>
      group.entryPoints.map (EntryPoint.declaration group.shaderModule) := by
  induction groups generalizing number position declared with
  | nil =>
      cases declares
      rfl
  | cons first rest ih =>
      simp only [CompileContext.declareGroups] at declares
      split at declares
      next =>
        cases others : CompileContext.declareGroups moduleCount (number + 1)
            (position + (CompileContext.declareEntries first.shaderModule position
              first.entryPoints).length) rest with
        | error error => simp [others, bind, Except.bind] at declares
        | ok found =>
            simp only [others, bind, Except.bind, Except.ok.injEq] at declares
            have rest_eq := ih (fun group present => indexed group (List.mem_cons_of_mem _ present))
              others
            rw [← declares, rest_eq, declare_entries_eq _ _ (indexed first List.mem_cons_self),
              List.flatMap_cons]
      next => simp at declares

theorem Positioned.indexed (positioned : desc.Positioned) :
    ∀ group ∈ desc.groups, ∀ entry ∈ group.entryPoints, entry.globalIndex ≠ none := by
  intro group present entry entryPresent
  have held : entry ∈ desc.entryPoints := List.mem_flatMap.mpr ⟨group, present, entryPresent⟩
  obtain ⟨position, isAt⟩ := List.mem_iff_getElem?.mp held
  simp [positioned position entry isAt]

theorem Positioned.declared (positioned : desc.Positioned) {context : CompileContext}
    {defines : DefineList} {sent : CompileRequest}
    (requested : context.request desc defines = .ok sent) :
    sent.entryPoints = desc.declarations :=
  declare_groups_eq positioned.indexed (CompileContext.request_contents requested).entryPoints

/-- What declarations tell of their entry points, they tell in the order of these. -/
theorem declarations_map {Value : Type} {ofDeclaration : EntryPointDecl → Value}
    {ofEntry : EntryPoint → Value} (desc : ProgramDesc)
    (same : ∀ shaderModule entry,
      ofDeclaration (EntryPoint.declaration shaderModule entry) = ofEntry entry) :
    desc.declarations.map ofDeclaration = desc.entryPoints.map ofEntry := by
  simp only [declarations, entryPoints, List.map_flatMap, List.map_map]
  congr
  funext group
  exact List.map_congr_left fun entry _ => same group.shaderModule entry

theorem declarations_indices (desc : ProgramDesc) :
    desc.declarations.map EntryPointDecl.globalIndex =
      desc.entryPoints.map fun entry => entry.globalIndex.getD 0 :=
  desc.declarations_map fun _ _ => rfl

theorem declarations_length (desc : ProgramDesc) :
    desc.declarations.length = desc.entryPointCount := by
  simpa [entryPointCount] using congrArg List.length desc.declarations_indices

theorem Positioned.declarations_at (positioned : desc.Positioned) {position : Nat}
    {declared : EntryPointDecl} (present : desc.declarations[position]? = some declared) :
    declared.globalIndex = UInt32.ofNat position := by
  have index := congrArg (·[position]?) desc.declarations_indices
  simp only [List.getElem?_map, present, Option.map_some] at index
  obtain ⟨entry, isAt, index_eq⟩ := Option.map_eq_some_iff.mp index.symm
  rw [← index_eq, positioned.index_at isAt]

end ProgramDesc

/-! ## Order -/

/-- An index tells positions apart that fit into it. -/
theorem position_of_index {position place : Nat} (fits : position < 2 ^ 32) (bound : place < 2 ^ 32)
    (same : UInt32.ofNat position = UInt32.ofNat place) : position = place := by
  have values := congrArg UInt32.toNat same
  rwa [UInt32.toNat_ofNat', UInt32.toNat_ofNat', Nat.mod_eq_of_lt fits,
    Nat.mod_eq_of_lt bound] at values

section Order

variable {declared ordered : List EntryPointDecl}
  (positions : ∀ (position : Nat) (one : EntryPointDecl), declared[position]? = some one →
    one.globalIndex = UInt32.ofNat position) (fits : declared.length ≤ 2 ^ 32)

include positions fits

theorem ascending_of_fitting :
    declared.Pairwise fun one other => one.globalIndex < other.globalIndex := by
  rw [List.pairwise_iff_getElem]
  intro one other oneBound otherBound before
  rw [positions one _ (List.getElem?_eq_getElem oneBound),
    positions other _ (List.getElem?_eq_getElem otherBound), UInt32.lt_iff_toNat_lt,
    UInt32.toNat_ofNat', UInt32.toNat_ofNat', Nat.mod_eq_of_lt (by omega),
    Nat.mod_eq_of_lt (by omega)]
  exact before

theorem eq_of_index {one other : EntryPointDecl} (held : one ∈ declared)
    (otherHeld : other ∈ declared) (same : one.globalIndex = other.globalIndex) : one = other := by
  obtain ⟨position, bound, rfl⟩ := List.mem_iff_getElem.mp held
  obtain ⟨place, placeBound, rfl⟩ := List.mem_iff_getElem.mp otherHeld
  rw [positions position _ (List.getElem?_eq_getElem bound),
    positions place _ (List.getElem?_eq_getElem placeBound)] at same
  have together : position = place := position_of_index (by omega) (by omega) same
  subst together
  rfl

/-- What carries its positions stays as it is when it is ordered by them, however that is done. -/
theorem eq_of_ordered
    (increasing : ordered.Pairwise fun one other => one.globalIndex ≤ other.globalIndex)
    (same : ordered.Perm declared) : ordered = declared := by
  have ascending := (ascending_of_fitting positions fits).imp fun below => UInt32.le_of_lt below
  apply List.Perm.eq_of_pairwise _ increasing ascending same
  intro one other held otherHeld below above
  have equal : one.globalIndex = other.globalIndex := UInt32.le_antisymm below above
  exact eq_of_index positions fits (same.mem_iff.mp held) otherHeld equal

end Order

/-! ## Programs of archives -/

namespace World

def Positioned (world : World B) : Prop :=
  ∀ program found, world.program? program = some found → found.desc.Positioned

theorem Moves.positioned {world next : World B} {request : Request}
    (moves : Moves world request next) (positioned : world.Positioned) : next.Positioned := by
  intro program later present
  cases moves with
  | created managed creates =>
      rw [creates.programs] at present
      split at present
      next =>
        cases present
        exact ProgramDesc.positioned_finalize _
      next => exact positioned program later present
  | dropped gone drops =>
      rw [drops.programs] at present
      split at present
      next => simp at present
      next => exact positioned program later present
  | searched =>
      rw [program_search] at present
      exact positioned program later present
  | configured alters =>
      obtain ⟨former, formerPresent, rfl⟩ := alters.program present
      exact positioned program former formerPresent
  | altered undropped unsearched alters =>
      obtain ⟨former, formerPresent, rfl⟩ := alters.program present
      exact positioned program former formerPresent

end World

namespace Archive

/-- The programs of an archive that a run reaches are numbered through, by induction on the
requests. -/
theorem Sound.positioned_run {archive : Archive B} (sound : archive.Sound)
    (positioned : archive.world.Positioned) (requests : List Request) :
    (archive.run requests).world.Positioned := by
  induction requests generalizing archive with
  | nil => exact positioned
  | cons request rest ih =>
      exact ih (sound.after request) ((sound.moves request).positioned positioned)

theorem positioned_reached (files : FileTree) (managers : List (Manager B))
    (requests : List Request) : ((opening files managers).run requests).world.Positioned := by
  apply (sound_opening files managers).positioned_run
  intro program found present
  simp [opening, World.program_opening] at present

end Archive

end ShaderCache
