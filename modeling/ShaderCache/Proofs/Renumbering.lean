import ShaderCache.Proofs.Steadiness

/-!
# Linking and identifiers

The identifier of a version goes into its kernels and into the one message that tells that a
handle is missing. A finalized description has a handle for each of its entry points, so there
the identifier changes nothing but the numbers that the kernels carry.
-/

set_option autoImplicit false

namespace ShaderCache

variable {B : Backend}

/-! ## Finalized descriptions -/

namespace ProgramDesc

/-- The entry point carries a position before `limit`. -/
def IndexedBelow (limit : Nat) (entry : EntryPoint) : Prop :=
  ∃ position, position < limit ∧ entry.globalIndex = some (UInt32.ofNat position)

theorem number_entries_next (position : Nat) (entries : List EntryPoint) :
    (numberEntries (UInt32.ofNat position) entries).2 =
      UInt32.ofNat (position + entries.length) := by
  induction entries generalizing position with
  | nil => rfl
  | cons entry rest ih =>
      have next_eq : UInt32.ofNat position + 1 = UInt32.ofNat (position + 1) := by
        simp [UInt32.ofNat_add]
      simp only [numberEntries, next_eq, ih (position + 1), List.length_cons]
      congr 1
      omega

theorem number_entries_length (next : UInt32) (entries : List EntryPoint) :
    (numberEntries next entries).1.length = entries.length := by
  induction entries generalizing next with
  | nil => rfl
  | cons entry rest ih => simp [numberEntries, ih]

theorem number_entries_indexed (position : Nat) (entries : List EntryPoint) :
    ∀ entry ∈ (numberEntries (UInt32.ofNat position) entries).1,
      IndexedBelow (position + entries.length) entry := by
  induction entries generalizing position with
  | nil => simp [numberEntries]
  | cons first rest ih =>
      have next_eq : UInt32.ofNat position + 1 = UInt32.ofNat (position + 1) := by
        simp [UInt32.ofNat_add]
      intro entry present
      simp only [numberEntries, next_eq, List.mem_cons] at present
      rcases present with rfl | later
      · exact ⟨position, by simp, rfl⟩
      · obtain ⟨found, below, indexed⟩ := ih (position + 1) entry later
        refine ⟨found, ?_, indexed⟩
        rw [List.length_cons]
        omega

theorem number_groups_length (next : UInt32) (groups : List EntryPointGroup) :
    ((numberGroups next groups).flatMap EntryPointGroup.entryPoints).length =
      (groups.flatMap EntryPointGroup.entryPoints).length := by
  induction groups generalizing next with
  | nil => rfl
  | cons group rest ih =>
      simp only [numberGroups, List.flatMap_cons, List.length_append, number_entries_length, ih]

theorem number_groups_indexed (position : Nat) (groups : List EntryPointGroup) :
    ∀ group ∈ numberGroups (UInt32.ofNat position) groups, ∀ entry ∈ group.entryPoints,
      IndexedBelow (position + (groups.flatMap EntryPointGroup.entryPoints).length) entry := by
  induction groups generalizing position with
  | nil => simp [numberGroups]
  | cons first rest ih =>
      intro group present entry entryPresent
      simp only [numberGroups, number_entries_next, List.mem_cons] at present
      rw [List.flatMap_cons, List.length_append]
      rcases present with rfl | later
      · obtain ⟨found, below, indexed⟩ :=
          number_entries_indexed position first.entryPoints entry entryPresent
        exact ⟨found, by omega, indexed⟩
      · obtain ⟨found, below, indexed⟩ :=
          ih (position + first.entryPoints.length) group later entry entryPresent
        exact ⟨found, by omega, indexed⟩

/-- Every entry point carries a position among those of the description. -/
def Indexed (desc : ProgramDesc) : Prop :=
  ∀ group ∈ desc.groups, ∀ entry ∈ group.entryPoints, IndexedBelow desc.entryPoints.length entry

theorem indexed_finalize (desc : ProgramDesc) : desc.finalize.Indexed := by
  intro group present entry entryPresent
  have indexed := number_groups_indexed 0 desc.groups group present entry entryPresent
  have length_eq : desc.finalize.entryPoints.length = desc.entryPoints.length :=
    number_groups_length 0 desc.groups
  rw [length_eq]
  simpa [entryPoints] using indexed

end ProgramDesc

namespace LinkedKernels

/-! ## Handles -/

/-- Positions that do not fit into an index wrap around to ones that do. -/
theorem handle_of_indexed {input : LinkInput B} {entry : EntryPoint}
    (indexed : ProgramDesc.IndexedBelow input.entryPoints.length entry) :
    ∃ handle, handleOf? input entry = some handle := by
  obtain ⟨position, below, indexEq⟩ := indexed
  have wrapped : (UInt32.ofNat position).toNat < input.entryPoints.length := by
    simp only [UInt32.toNat_ofNat']
    exact Nat.lt_of_le_of_lt (Nat.mod_le _ _) below
  refine ⟨input.entryPoints[(UInt32.ofNat position).toNat], ?_⟩
  rw [handleOf?, indexEq, Option.bind_some, List.getElem?_eq_getElem wrapped]

theorem specialize_renumbered {input : LinkInput B} (id : UInt64) {entry : EntryPoint}
    (indexed : ProgramDesc.IndexedBelow input.entryPoints.length entry)
    (composite : Option B.Component) :
    specialize (input.renumbered id) composite entry = specialize input composite entry := by
  obtain ⟨handle, handled⟩ := handle_of_indexed indexed
  have sameHandle : handleOf? (input.renumbered id) entry = some handle := handled
  simp only [specialize, handled, sameHandle]
  rfl

theorem map_list_congr {Item Failure Value : Type} {step other : Item → Job B Failure Value}
    {items : List Item} (same : ∀ item ∈ items, step item = other item) :
    items.mapM step = items.mapM other := by
  induction items with
  | nil => rfl
  | cons item rest ih =>
      rw [List.mapM_cons, List.mapM_cons, same item List.mem_cons_self,
        ih fun later present => same later (List.mem_cons_of_mem _ present)]

theorem specialize_groups_renumbered {input : LinkInput B} (id : UInt64)
    {groups : List (EntryPointGroup × Option B.Component)}
    (indexed : ∀ item ∈ groups, ∀ entry ∈ item.1.entryPoints,
      ProgramDesc.IndexedBelow input.entryPoints.length entry) :
    specializeGroups (input.renumbered id) groups = specializeGroups input groups := by
  induction groups with
  | nil => rfl
  | cons first rest ih =>
      obtain ⟨here, later⟩ := List.forall_mem_cons.mp indexed
      have own : first.1.entryPoints.mapM (specialize (input.renumbered id) first.2) =
          first.1.entryPoints.mapM (specialize input first.2) :=
        map_list_congr fun entry present => specialize_renumbered id (here entry present) first.2
      simp only [specializeGroups, own, ih later]

/-- Linking under another identifier gives the same, apart from the numbers. -/
theorem job_renumbered {desc : ProgramDesc} (conformances : ConformanceList)
    {input : LinkInput B} (id : UInt64)
    (indexed : ∀ group ∈ desc.groups, ∀ entry ∈ group.entryPoints,
      ProgramDesc.IndexedBelow input.entryPoints.length entry) :
    job desc conformances (input.renumbered id) =
      job desc conformances input >>= fun linked => pure (linked.renumbered id) := by
  have entriesEq : ∀ composites : List (Option B.Component),
      specializeGroups (input.renumbered id) (desc.groups.zip composites) =
        specializeGroups input (desc.groups.zip composites) := by
    intro composites
    apply specialize_groups_renumbered id
    intro item present
    exact indexed item.1 (List.of_mem_zip present).1
  simp only [job, bind_assoc, pure_bind, entriesEq]
  rfl

end LinkedKernels

/-- What linking answers, up to the identifier of the version. -/
def linkContent (desc : ProgramDesc) (description : String) (conformances : ConformanceList)
    (input : LinkInput B) (work : Work B.State) : Except ProgramError (LinkedKernels B) :=
  (linkOutcome desc description conformances input work).map LinkedKernels.unnumbered

theorem link_content_renumbered {desc : ProgramDesc} (description : String)
    (conformances : ConformanceList) {input : LinkInput B} (id : UInt64)
    (indexed : ∀ group ∈ desc.groups, ∀ entry ∈ group.entryPoints,
      ProgramDesc.IndexedBelow input.entryPoints.length entry) (work : Work B.State) :
    linkContent desc description conformances (input.renumbered id) work =
      linkContent desc description conformances input work := by
  simp only [linkContent, linkOutcome, LinkedKernels.job_renumbered conformances id indexed,
    Job.run_bind]
  cases (LinkedKernels.job desc conformances input).run work with
  | mk outcome after => cases outcome <;> rfl

/-- Linking answers the same from any other state of the backend, whichever identifiers are next. -/
theorem link_outcome_steady (steady : B.Steady) (desc : ProgramDesc) (description : String)
    (conformances : ConformanceList) (input : LinkInput B) {work other : Work B.State}
    (logs : work.log = other.log) :
    linkOutcome desc description conformances input work =
      linkOutcome desc description conformances input other := by
  have ⟨_, _, agree⟩ :=
    (Job.closed_repeats steady.respects).link desc conformances input work other logs trivial
  simp only [linkOutcome]
  cases reached : (LinkedKernels.job desc conformances input).run work with
  | mk outcome after =>
      cases otherReached : (LinkedKernels.job desc conformances input).run other with
      | mk otherOutcome otherAfter =>
          rw [reached, otherReached] at agree
          cases agree with
          | ok values =>
              cases values
              rfl
          | error stopped => rfl

theorem link_content_steady (steady : B.Steady) (desc : ProgramDesc) (description : String)
    (conformances : ConformanceList) (input : LinkInput B) {work other : Work B.State}
    (logs : work.log = other.log) :
    linkContent desc description conformances input work =
      linkContent desc description conformances input other :=
  congrArg (Except.map LinkedKernels.unnumbered)
    (link_outcome_steady steady desc description conformances input logs)

/-- What linking came to is what it comes to from any other state of the backend. -/
theorem link_content_of_outcome (steady : B.Steady) {desc : ProgramDesc} {description : String}
    {conformances : ConformanceList} {input : LinkInput B} {work other : Work B.State}
    (logs : work.log = other.log) {outcome : Except ProgramError (LinkedKernels B)}
    (ends : linkOutcome desc description conformances input work = outcome) :
    linkContent desc description conformances input other =
      outcome.map LinkedKernels.unnumbered := by
  rw [← link_content_steady steady desc description conformances input logs, linkContent, ends]

end ShaderCache
