import ShaderCache.Proofs.ArchiveInvariant

/-!
# Kernels that are kept

A call for kernels makes some when the version has none for the conformances of the moment, and
then they are kept for good. So what is kept is, in order, what was made by such calls, and all of
it was linked for the conformances under which it is found.
-/

set_option autoImplicit false

namespace ShaderCache

variable {B : Backend}

namespace CachedKernels

/-- What kernels are kept for. -/
def label (entry : CachedKernels B) : Nat × ConformanceList :=
  (entry.version, entry.conformances)

end CachedKernels

def Request.asksKernels : Request → Bool
  | .kernelsOf _ => true
  | .operate (.activeKernels _) => true
  | _ => false

namespace World

variable (world : World B)

/-! ## Calls that link -/

/-- What a call for the kernels of a version makes kernels for, if it makes some and answers with
them: that shows in the number of kernels that exist. -/
def kernelsMade? (version : Version B) : Option (Nat × ConformanceList) :=
  match world.owner? version, world.kernelsOf version with
  | some owner, some (.ok _, next) =>
      if next.kernelsCount = world.kernelsCount then none
      else some (version.serial, owner.state.conformances)
  | _, _ => none

/-- What a request makes kernels for through a call for kernels. -/
def linkedFor? (versions : List (Version B)) : Request → Option (Nat × ConformanceList)
  | .kernelsOf serial => versions[serial]?.bind world.kernelsMade?
  | .operate (.activeKernels program) =>
      match world.activeVersion program with
      | some (.ok version, next) => next.kernelsMade? version
      | _ => none
  | _ => none

theorem kernels_count_link_in {service : B.State} {manager : Nat} {program : Program B}
    {conformances : ConformanceList} {version : Version B} {log noted : String}
    {kernels : Kernels B} {next : World B}
    (linked : world.linkIn service manager program conformances version log =
      (⟨noted, .ok kernels⟩, next)) : next.kernelsCount = world.kernelsCount + 1 := by
  unfold linkIn at linked
  cases reached : (LinkedKernels.job program.desc conformances version.linkInput).run
      ⟨service, log, world.versionIds⟩ with
  | mk outcome after =>
      simp only [reached] at linked
      cases outcome with
      | error failure => simp at linked
      | ok value =>
          cases linked
          rfl

@[simp]
theorem kernels_count_emit_if (condition : Bool) (event : Event) :
    (world.emitIf condition event).kernelsCount = world.kernelsCount := by
  cases condition <;> rfl

theorem kernels_count_keep (version : Version B) (conformances : ConformanceList)
    (kernels : Kernels B) :
    (world.keepKernels version conformances kernels).2.kernelsCount = world.kernelsCount := by
  unfold keepKernels
  split <;> rfl

/-- A call that finds nothing kept answers with new kernels, if it does not fail. -/
theorem kernels_count_kernels_of {version : Version B} {owner : Program B}
    {kernels : Kernels B} {next : World B} (owned : world.owner? version = some owner)
    (missing : world.cachedKernels? version owner.state.conformances = none)
    (answered : world.kernelsOf version = some (.ok kernels, next)) :
    next.kernelsCount = world.kernelsCount + 1 := by
  cases managed : world.managers[owner.manager]? with
  | none => simp [kernelsOf, owned, missing, linkKeeping, link, managed] at answered
  | some manager =>
      simp only [kernelsOf, owned, missing, linkKeeping, link, managed, Option.bind_eq_bind,
        Option.bind_some] at answered
      cases reached : world.linkIn manager.service owner.manager owner owner.state.conformances
          version "" with
      | mk logged done =>
          obtain ⟨log, linked⟩ := logged
          rw [reached] at answered
          cases linked with
          | error error => simp at answered
          | ok kernels =>
              cases answered
              rw [kernels_count_keep, kernels_count_emit_if]
              exact world.kernels_count_link_in reached

/-- Kernels of a version of the described program, as linking gave them. -/
structure Linked (desc : ProgramDesc) (description : String) (version : Version B)
    (entry : CachedKernels B) : Prop where
  serial : entry.version = version.serial
  linked : ∃ work : Work B.State, work.log = "" ∧
    linkOutcome desc description entry.conformances version.linkInput work =
      .ok entry.kernels.linked

/-- What a call for kernels does to those that are kept. -/
inductive Stores (version : Version B) (owner : Program B) :
    Option (Nat × ConformanceList) → World B → Prop where
  | unmade {next : World B} (kernels : next.kernels = world.kernels) :
      Stores version owner none next
  | made {entry : CachedKernels B} {next : World B}
      (missing : world.cachedKernels? version entry.conformances = none)
      (linked : Linked owner.desc owner.description version entry)
      (kernels : next.kernels = world.kernels ++ [entry]) :
      Stores version owner (some entry.label) next

theorem stores_of_supplies {version : Version B} {owner : Program B}
    {outcome : Except ProgramError (Kernels B)} {next : World B}
    (owned : world.owner? version = some owner)
    (answered : world.kernelsOf version = some (outcome, next))
    (supplies : Supplies world version owner outcome next) :
    Stores world version owner (world.kernelsMade? version) next := by
  cases supplies with
  | kept cached quiet ids =>
      have emitted : next.kernelsCount = world.kernelsCount := by
        simp only [kernelsOf, owned, cached, Option.some.injEq, Prod.mk.injEq] at answered
        rw [← answered.2]
        rfl
      have unmade : world.kernelsMade? version = none := by
        simp [kernelsMade?, owned, answered, emitted]
      rw [unmade]
      exact .unmade quiet.kernels
  | failed missing links =>
      have unmade : world.kernelsMade? version = none := by
        simp [kernelsMade?, owned, answered]
      rw [unmade]
      exact .unmade links.quiet.kernels
  | @linked kernels linkedIn _ missing links quiet ids =>
      have counted := world.kernels_count_kernels_of owned missing answered
      have made : world.kernelsMade? version =
          some (version.serial, owner.state.conformances) := by
        simp [kernelsMade?, owned, answered, counted]
      let entry : CachedKernels B := ⟨version.serial, owner.state.conformances, kernels⟩
      have kept : next.kernels = world.kernels ++ [entry] := by
        rw [quiet.kernels, links.quiet.kernels]
      rw [made]
      cases links with
      | @made manager linked _ managed makes linkQuiet linkIds =>
          exact .made missing (⟨rfl, _, rfl, makes⟩ :
            Linked owner.desc owner.description version entry) kept

end World

/-! ## Labels of linked kernels -/

namespace LinkedKernels

/-- Kernels tell what they were linked from and for. -/
theorem job_labels (desc : ProgramDesc) (conformances : ConformanceList) (input : LinkInput B) :
    Job.Yields (job desc conformances input) fun linked =>
      linked.versionId = input.versionId ∧ linked.conformances = conformances := by
  -- Only the last step of the job looks at what it is called.
  apply Job.yields_last
  intro composites
  apply Job.yields_last
  intro entries
  apply Job.yields_last
  intro handle
  apply Job.yields_last
  intro groups
  apply Job.yields_last
  intro named
  apply Job.yields_last
  intro created
  apply Job.yields_last
  intro deviceProgram
  exact Job.yields_pure ⟨rfl, rfl⟩

end LinkedKernels

theorem link_outcome_labels {desc : ProgramDesc} {description : String}
    {conformances : ConformanceList} {input : LinkInput B} {work : Work B.State}
    {linked : LinkedKernels B}
    (makes : linkOutcome desc description conformances input work = .ok linked) :
    linked.versionId = input.versionId ∧ linked.conformances = conformances :=
  link_outcome_yields (LinkedKernels.job_labels desc conformances input) makes

theorem World.kernels_written (world : World B) (operation : Operation) :
    (world.written operation).kernels = world.kernels := by
  cases operation <;> rfl

theorem World.MakesActive.kernels {world next : World B} {program : Nat} {found : Program B}
    {made : Option (Version B)} (makes : MakesActive world program found made next) :
    next.kernels = world.kernels := by
  cases makes with
  | unmade alters produced => exact alters.kernels
  | made managed makes quiet => simp [quiet.kernels]

theorem World.mem_of_cached {world : World B} {version : Version B}
    {conformances : ConformanceList} {kernels : Kernels B}
    (cached : world.cachedKernels? version conformances = some kernels) :
    ∃ entry ∈ world.kernels, entry.version = version.serial ∧
      entry.conformances = conformances ∧ entry.kernels = kernels := by
  obtain ⟨entry, found, rfl⟩ := Option.map_eq_some_iff.mp cached
  have present := List.mem_filter.mp (List.mem_of_find?_eq_some found)
  have same := List.find?_some found
  exact ⟨entry, present.1, by simpa using present.2, by simpa using same, rfl⟩

namespace World.Linked

variable {desc : ProgramDesc} {description : String} {version : Version B}
  {entry : CachedKernels B} (linked : Linked desc description version entry)

include linked

theorem labels : entry.kernels.linked.versionId = version.id ∧
    entry.kernels.linked.conformances = entry.conformances := by
  obtain ⟨work, _, makes⟩ := linked.linked
  exact link_outcome_labels makes

end World.Linked

namespace Archive

open World (Linked Performs Provides Quiet Stores)

/-! ## Kernels that come in -/

/-- While the program of a version is alive, this is its description. -/
def Described (world : World B) (version : Version B) (desc : ProgramDesc)
    (description : String) : Prop :=
  ∀ found, world.program? version.program = some found →
    found.desc = desc ∧ found.description = description

/-- What a step does to the kernels that are kept. -/
inductive Collects (archive : Archive B) (made : Option (Version B)) (next : World B) :
    Option (Nat × ConformanceList) → Prop where
  | unmade (kernels : next.kernels = archive.world.kernels) : Collects archive made next none
  | linked {version : Version B} {desc : ProgramDesc} {description : String}
      {entry : CachedKernels B} (held : version ∈ archive.versions ++ made.toList)
      (described : Described next version desc description)
      (missing : archive.world.cachedKernels? version entry.conformances = none)
      (linked : Linked desc description version entry)
      (kernels : next.kernels = archive.world.kernels ++ [entry]) :
      Collects archive made next (some entry.label)

variable {archive : Archive B}

theorem described_of_present {world : World B} {version : Version B} {owner : Program B}
    (present : world.program? version.program = some owner) :
    Described world version owner.desc owner.description := by
  intro found foundPresent
  cases present.symm.trans foundPresent
  exact ⟨rfl, rfl⟩

theorem collects_of_stores {made : Option (Version B)} {between next : World B}
    {version : Version B} {owner : Program B} {label : Option (Nat × ConformanceList)}
    (kernels : between.kernels = archive.world.kernels)
    (held : version ∈ archive.versions ++ made.toList)
    (present : next.program? version.program = some owner)
    (stores : Stores between version owner label next) : Collects archive made next label := by
  cases stores with
  | unmade same => exact .unmade (same.trans kernels)
  | made missing linked kept =>
      refine .linked held (described_of_present present) ?_ linked
        (kept.trans (congrArg (· ++ _) kernels))
      simpa only [World.cachedKernels?, World.cachedKernels, kernels] using missing

theorem Sound.collects_kernels_of (sound : archive.Sound) (serial : Nat) :
    Collects archive none (archive.world.serve archive.versions (.kernelsOf serial)).2
      (archive.world.linkedFor? archive.versions (.kernelsOf serial)) := by
  simp only [World.serve, World.linkedFor?]
  cases lookup : archive.versions[serial]? with
  | none => exact .unmade rfl
  | some version =>
      rw [Option.bind_some, Option.bind_some]
      cases owned : archive.world.owner? version with
      | none =>
          have orphaned : archive.world.kernelsMade? version = none := by
            simp [World.kernelsMade?, owned]
          rw [orphaned]
          simp only [World.kernelsOf, owned, World.respondWith]
          exact .unmade rfl
      | some owner =>
          obtain ⟨setup, managed⟩ := setup_of_owner sound.world owned
          obtain ⟨outcome, next, answered, supplies⟩ :=
            archive.world.kernels_of_supplies owned managed
          obtain ⟨kernels, quiet, _⟩ := supplies.quiet
          have present := World.program_of_owner owned
          have stores := archive.world.stores_of_supplies owned answered supplies
          rw [answered]
          simp only [World.respondWith]
          have held : version ∈ archive.versions ++ (none : Option (Version B)).toList := by
            simpa using List.mem_of_getElem? lookup
          exact collects_of_stores rfl held ((quiet.programs _).trans present) stores

theorem Sound.collects_active_kernels (sound : archive.Sound) (program : Nat) :
    Collects archive (archive.world.made? (.operate (.activeKernels program)))
      (archive.world.serve archive.versions (.operate (.activeKernels program))).2
      (archive.world.linkedFor? archive.versions (.operate (.activeKernels program))) := by
  simp only [World.serve, World.linkedFor?, World.perform]
  cases present : archive.world.program? program with
  | none =>
      rw [World.active_version_absent _ present, World.active_kernels_absent _ present]
      exact .unmade rfl
  | some found =>
      obtain ⟨outcome, next, kernels_eq, provides⟩ := sound.world.active_kernels_provides present
      rw [kernels_eq]
      simp only [World.conclude]
      cases provides with
      | unresolved answered resolves =>
          rw [answered]
          exact .unmade (sound.world.makes_active present answered resolves).kernels
      | resolved answered resolves settled supplies called =>
          have advances := Advances.resolved present
            (sound.world.makes_active present answered resolves)
          have between := sound.advanced (sound.world.resolves present resolves) advances
          have isProduced := between.world.produced _ _ settled.present _ settled.kept
          have held := between.produced _ _ settled.present _ isProduced
          have owned := between.world.owner settled.present settled.kept
          have stores := World.stores_of_supplies _ owned called supplies
          obtain ⟨kernels, quiet, _⟩ := supplies.quiet
          rw [answered]
          exact collects_of_stores (sound.world.makes_active present answered resolves).kernels
            held ((quiet.programs _).trans (World.program_of_owner owned)) stores

theorem Sound.kept_unless_asked (sound : archive.Sound) {request : Request}
    (unasked : request.asksKernels = false) :
    (archive.world.serve archive.versions request).2.kernels = archive.world.kernels := by
  have serves := archive.serves sound.world request
  generalize (archive.world.serve archive.versions request).2 = next at serves ⊢
  generalize archive.world.made? request = made at serves
  cases serves with
  | operated performs =>
      cases performs with
      | unmanaged absent => rfl
      | untargeted target absent => rfl
      | created managed creates => exact creates.kernels
      | dropped present drops => exact drops.kernels
      | edited present alters ids => exact alters.kernels
      | swept sweeping alters ids => exact alters.kernels.trans (World.kernels_written _ _)
      | resolved present answered resolves =>
          exact (sound.world.makes_active present answered resolves).kernels
      | provided present provides => simp [Request.asksKernels] at unasked
  | compiled present compiles =>
      cases compiles with
      | failed managed fails quiet ids => exact quiet.kernels
      | made managed makes quiet id ids => exact quiet.kernels
  | supplied lookup owned answered supplies => simp [Request.asksKernels] at unasked
  | searched =>
      unfold World.addSearchPath
      split <;> rfl
  | passed quiet => exact quiet.kernels

theorem Sound.collects (sound : archive.Sound) (request : Request) :
    Collects archive (archive.world.made? request)
      (archive.world.serve archive.versions request).2
      (archive.world.linkedFor? archive.versions request) := by
  cases request with
  | kernelsOf serial => exact sound.collects_kernels_of serial
  | operate operation =>
      cases operation with
      | activeKernels program => exact sound.collects_active_kernels program
      | _ => exact .unmade (sound.kept_unless_asked rfl)
  | _ => exact .unmade (sound.kept_unless_asked rfl)

/-! ## What lasts -/

/-- Nothing that was made is lost: versions stay, with the descriptions of their programs, and so
do kernels. -/
structure Follows (before after : Archive B) : Prop where
  versions : ∀ version ∈ before.versions, version ∈ after.versions
  described : ∀ version ∈ before.versions, ∀ desc description,
    Described before.world version desc description →
      Described after.world version desc description
  kernels : before.world.kernels <+: after.world.kernels

theorem Follows.refl (archive : Archive B) : Follows archive archive :=
  ⟨fun _ held => held, fun _ _ _ _ described => described, List.prefix_refl _⟩

theorem Follows.trans {first second third : Archive B} (start : Follows first second)
    (rest : Follows second third) : Follows first third where
  versions version held := rest.versions version (start.versions version held)
  described version held desc description described :=
    rest.described version (start.versions version held) desc description
      (start.described version held desc description described)
  kernels := start.kernels.trans rest.kernels

theorem Advances.described {made : Option (Version B)} {next : World B}
    (advances : Advances archive made next) (sound : archive.Sound) {version : Version B}
    (held : version ∈ archive.versions) {desc : ProgramDesc} {description : String}
    (described : Described archive.world version desc description) :
    Described next version desc description := by
  intro later present
  cases advances.programs version.program later present with
  | newborn number =>
      exact absurd number (Nat.not_le_of_lt (sound.programs version held))
  | remaining former remains =>
      rw [remains.desc, remains.description]
      exact described _ former

theorem Collects.extends {made : Option (Version B)} {next : World B}
    {label : Option (Nat × ConformanceList)} (collects : Collects archive made next label) :
    archive.world.kernels <+: next.kernels := by
  cases collects with
  | unmade kernels => exact kernels ▸ List.prefix_refl _
  | linked held described missing linked kernels =>
      rw [kernels]
      exact List.prefix_append _ _

theorem Sound.follows (sound : archive.Sound) {made : Option (Version B)} {next : World B}
    {label : Option (Nat × ConformanceList)} (advances : Advances archive made next)
    (collects : Collects archive made next label) :
    Follows archive ⟨next, archive.versions ++ made.toList⟩ where
  versions _ held := List.mem_append_left _ held
  described _ held _ _ := advances.described sound held
  kernels := collects.extends

theorem Follows.cached {before after : Archive B} (follows : Follows before after)
    {version : Version B} {conformances : ConformanceList} {kernels : Kernels B}
    (cached : before.world.cachedKernels? version conformances = some kernels) :
    after.world.cachedKernels? version conformances = some kernels := by
  obtain ⟨added, extended⟩ := follows.kernels
  obtain ⟨entry, found, same⟩ := Option.map_eq_some_iff.mp cached
  rw [World.cachedKernels] at found
  rw [World.cachedKernels?, World.cachedKernels, ← extended, List.filter_append,
    List.find?_append, found, Option.some_or, Option.map_some, same]

/-! ## The invariant -/

/-- An entry was linked from a version that was made, with the description of its program. -/
structure Genuine (archive : Archive B) (entry : CachedKernels B) (version : Version B) : Prop where
  held : version ∈ archive.versions
  linked : ∃ desc description, Linked desc description version entry ∧
    Described archive.world version desc description

/-- Kernels are kept once for each version and list of conformances, and all are genuine. -/
structure Kept (archive : Archive B) : Prop where
  genuine : ∀ entry ∈ archive.world.kernels, ∃ version, Genuine archive entry version
  once : (archive.world.kernels.map CachedKernels.label).Nodup

namespace Genuine

variable {entry : CachedKernels B} {version : Version B} (genuine : Genuine archive entry version)

include genuine

theorem serial : entry.version = version.serial := by
  obtain ⟨desc, description, linked, _⟩ := genuine.linked
  exact linked.serial

theorem labels : entry.kernels.linked.versionId = version.id ∧
    entry.kernels.linked.conformances = entry.conformances := by
  obtain ⟨desc, description, linked, _⟩ := genuine.linked
  exact linked.labels

theorem linked_now {found : Program B}
    (present : archive.world.program? version.program = some found) :
    Linked found.desc found.description version entry := by
  obtain ⟨desc, description, linked, described⟩ := genuine.linked
  obtain ⟨rfl, rfl⟩ := described found present
  exact linked

theorem followed {later : Archive B} (follows : Follows archive later) :
    Genuine later entry version := by
  obtain ⟨desc, description, linked, described⟩ := genuine.linked
  exact ⟨follows.versions version genuine.held, desc, description, linked,
    follows.described version genuine.held desc description described⟩

end Genuine

/-- An entry that is found under a version was linked from that version. -/
theorem Kept.found (kept : archive.Kept) (sound : archive.Sound) {entry : CachedKernels B}
    (present : entry ∈ archive.world.kernels) {version : Version B}
    (held : version ∈ archive.versions) (serial : entry.version = version.serial) :
    Genuine archive entry version := by
  obtain ⟨other, genuine⟩ := kept.genuine entry present
  cases sound.unique held genuine.held (serial.symm.trans genuine.serial)
  exact genuine

theorem label_of_missing {world : World B} {version : Version B} {entry : CachedKernels B}
    (missing : world.cachedKernels? version entry.conformances = none)
    (serial : entry.version = version.serial) :
    entry.label ∉ world.kernels.map CachedKernels.label := by
  intro present
  obtain ⟨earlier, kept, same⟩ := List.mem_map.mp present
  obtain ⟨sameVersion, sameConformances⟩ := Prod.mk.inj same
  have filtered : earlier ∈ world.cachedKernels version :=
    List.mem_filter.mpr ⟨kept, by simpa using sameVersion.trans serial⟩
  rw [World.cachedKernels?, Option.map_eq_none_iff, List.find?_eq_none] at missing
  exact missing earlier filtered (by simpa using sameConformances)

/-- A step keeps the invariant, whichever kernels come in. -/
theorem Kept.collected {made : Option (Version B)} {next : World B}
    {label : Option (Nat × ConformanceList)} (kept : archive.Kept) (sound : archive.Sound)
    (advances : Advances archive made next) (collects : Collects archive made next label) :
    (⟨next, archive.versions ++ made.toList⟩ : Archive B).Kept := by
  have old : ∀ entry ∈ archive.world.kernels, ∃ version,
      Genuine ⟨next, archive.versions ++ made.toList⟩ entry version := by
    intro entry present
    obtain ⟨version, genuine⟩ := kept.genuine entry present
    exact ⟨version, genuine.followed (sound.follows advances collects)⟩
  cases collects with
  | unmade kernels =>
      constructor
      · simpa only [kernels] using old
      · simpa only [kernels] using kept.once
  | @linked version desc description entry held described missing linked kernels =>
      constructor
      · intro one isOne
        rcases List.mem_append.mp (kernels ▸ isOne) with earlier | last
        · exact old one earlier
        · cases List.mem_singleton.mp last
          exact ⟨version, held, desc, description, linked, described⟩
      · simp only [kernels, List.map_append, List.map_singleton]
        apply List.nodup_append.mpr
        refine ⟨kept.once, List.nodup_singleton _, ?_⟩
        intro one isOne other isOther same
        cases List.mem_singleton.mp isOther
        exact label_of_missing missing linked.serial (same ▸ isOne)

theorem Kept.after (kept : archive.Kept) (sound : archive.Sound) (request : Request) :
    (archive.after request).Kept :=
  kept.collected sound (sound.advances request) (sound.collects request)

theorem Kept.run {archive : Archive B} (kept : archive.Kept) (sound : archive.Sound)
    (requests : List Request) : (archive.run requests).Kept := by
  induction requests generalizing archive with
  | nil => exact kept
  | cons request rest ih => exact ih (kept.after sound request) (sound.after request)

theorem kept_opening (files : FileTree) (managers : List (Manager B)) :
    (opening files managers).Kept where
  genuine entry present := by simp [opening, World.opening] at present
  once := List.nodup_nil

/-! ## Growth -/

theorem Sound.follows_after (sound : archive.Sound) (request : Request) :
    Follows archive (archive.after request) :=
  sound.follows (sound.advances request) (sound.collects request)

theorem Sound.follows_run {archive : Archive B} (sound : archive.Sound)
    (requests : List Request) : Follows archive (archive.run requests) := by
  induction requests generalizing archive with
  | nil => exact Follows.refl archive
  | cons request rest ih => exact (sound.follows_after request).trans (ih (sound.after request))

/-- What is kept after a step is what was kept before, and what the step linked. -/
theorem Collects.labels {made : Option (Version B)} {next : World B}
    {label : Option (Nat × ConformanceList)} (collects : Collects archive made next label) :
    next.kernels.map CachedKernels.label =
      archive.world.kernels.map CachedKernels.label ++ label.toList := by
  cases collects with
  | unmade kernels => simp [kernels]
  | linked held described missing linked kernels => simp [kernels]

/-- What the requests of a run made kernels for through calls for kernels. -/
def linkings (archive : Archive B) : List Request → List (Nat × ConformanceList)
  | [] => []
  | request :: rest =>
      (archive.world.linkedFor? archive.versions request).toList ++
        (archive.after request).linkings rest

theorem Sound.kept_labels {archive : Archive B} (sound : archive.Sound)
    (requests : List Request) :
    (archive.run requests).world.kernels.map CachedKernels.label =
      archive.world.kernels.map CachedKernels.label ++ archive.linkings requests := by
  induction requests generalizing archive with
  | nil => exact (List.append_nil _).symm
  | cons request rest ih =>
      calc ((archive.after request).run rest).world.kernels.map CachedKernels.label
        _ = (archive.after request).world.kernels.map CachedKernels.label ++
              (archive.after request).linkings rest := ih (sound.after request)
        _ = archive.world.kernels.map CachedKernels.label ++
              archive.linkings (request :: rest) := by
          rw [Archive.after, (sound.collects request).labels, List.append_assoc]
          rfl

end Archive

end ShaderCache
