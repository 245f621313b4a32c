import ShaderCache.Proofs.Echo
import ShaderCache.Proofs.Positions

/-!
# Requests that are refused

The files of all modules are looked up before the groups are declared. So a request is refused with
the first file that is not found, if there is one, or else with the first group without a module,
and the compiler is not asked. Any other request has everything that the description names, in its
order.
-/

set_option autoImplicit false

namespace ShaderCache

variable {B : Backend}

namespace CompileContext

variable (context : CompileContext)

/-! ## Files -/

theorem is_found_iff (path : Path) :
    context.isFound path = true ↔
      ∃ found, context.resolver.find context.files path = .ok found := by
  unfold isFound resolve
  cases context.resolver.find context.files path with
  | ok found => simp [Except.mapError]
  | error error => simp [Except.mapError]

theorem resolve_missing {path : Path} (missing : ¬ context.isFound path = true) :
    context.resolve path = .error (.sourceNotFound path) := by
  cases looked : context.resolver.find context.files path with
  | ok found => exact absurd ((context.is_found_iff path).mpr ⟨found, looked⟩) missing
  | error error =>
      have reported : error = .notFound path := by
        unfold SourceResolver.find at looked
        split at looked
        next =>
          split at looked
          next => simp at looked
          next => exact (Except.error.inj looked).symm
        next =>
          split at looked
          next => simp at looked
          next => exact (Except.error.inj looked).symm
      rw [resolve, looked, reported]
      rfl

/-- The first of the paths that is not found. -/
def firstMissing? (paths : List Path) : Option Path :=
  paths.find? fun path => !context.isFound path

theorem first_missing_append (paths more : List Path) :
    context.firstMissing? (paths ++ more) =
      (context.firstMissing? paths).or (context.firstMissing? more) :=
  List.find?_append

/-- How looking up the paths in turn ends: all of them are found, or the first missing one is
reported. -/
def LooksUp {Value : Type} (paths : List Path) (property : Value → Prop) :
    Except ConfigurationError Value → Prop
  | .ok value => context.firstMissing? paths = none ∧ property value
  | .error error => ∃ path, context.firstMissing? paths = some path ∧ error = .sourceNotFound path

/-- What a source is replaced by: a file by the path at which it is found. -/
inductive Locates : ShaderSource → ShaderSource → Prop where
  | code (virtualPath : Path) (text : String) :
      Locates (.code virtualPath text) (.code virtualPath text)
  | file {path found : Path} (finds : context.resolver.find context.files path = .ok found) :
      Locates (.file path) (.file found)

structure Translates (shaderModule : ShaderModule) (unit : TranslationUnit) : Prop where
  name : unit.name = shaderModule.name
  sources : List.Forall₂ context.Locates shaderModule.sources unit.sources

section LooksUp

variable {context} {Value Result : Type}

theorem LooksUp.bind {paths more : List Path} {between : Value → Prop} {property : Result → Prop}
    {first : Except ConfigurationError Value} {next : Value → Except ConfigurationError Result}
    (looks : context.LooksUp paths between first)
    (rest : ∀ value, between value → context.LooksUp more property (next value)) :
    context.LooksUp (paths ++ more) property (first >>= next) := by
  cases first with
  | error error =>
      obtain ⟨path, missing, reported⟩ := looks
      refine ⟨path, ?_, reported⟩
      rw [first_missing_append, missing, Option.some_or]
  | ok value =>
      obtain ⟨found, holds⟩ := looks
      have later := rest value holds
      change context.LooksUp (paths ++ more) property (next value)
      unfold LooksUp at later ⊢
      rwa [first_missing_append, found, Option.none_or]

/-- What is done with a value after looking up is not looked up. -/
theorem LooksUp.map {paths : List Path} {between : Value → Prop} {property : Result → Prop}
    {first : Except ConfigurationError Value} {change : Value → Result}
    (looks : context.LooksUp paths between first)
    (implies : ∀ value, between value → property (change value)) :
    context.LooksUp paths property (first >>= fun value => .ok (change value)) := by
  have whole : context.LooksUp (paths ++ []) property
      (first >>= fun value => .ok (change value)) :=
    looks.bind fun value holds => ⟨rfl, implies value holds⟩
  rwa [List.append_nil] at whole

theorem looks_up_map_list {Item : Type} {paths : Item → List Path}
    {related : Item → Value → Prop} {step : Item → Except ConfigurationError Value}
    (each : ∀ item, context.LooksUp (paths item) (related item) (step item)) (items : List Item) :
    context.LooksUp (items.flatMap paths) (List.Forall₂ related items) (items.mapM step) := by
  induction items with
  | nil => exact ⟨rfl, .nil⟩
  | cons item rest ih =>
      rw [List.flatMap_cons, List.mapM_cons]
      exact (each item).bind fun value here => ih.map fun values later => .cons here later

end LooksUp

theorem looks_up_source (source : ShaderSource) :
    context.LooksUp source.filePath?.toList (context.Locates source)
      (context.resolveSource source) := by
  cases source with
  | code virtualPath text => exact ⟨rfl, .code virtualPath text⟩
  | file path =>
      by_cases isFound : context.isFound path = true
      · obtain ⟨found, finds⟩ := (context.is_found_iff path).mp isFound
        have resolved : context.resolveSource (.file path) = .ok (.file found) := by
          rw [resolveSource, resolve, finds]
          rfl
        rw [resolved]
        exact ⟨by simp [firstMissing?, ShaderSource.filePath?, isFound], .file finds⟩
      · have refused : context.resolveSource (.file path) = .error (.sourceNotFound path) := by
          rw [resolveSource, context.resolve_missing isFound]
          rfl
        rw [refused]
        exact ⟨path, by simp [firstMissing?, ShaderSource.filePath?, isFound], rfl⟩

theorem looks_up_unit (shaderModule : ShaderModule) :
    context.LooksUp (shaderModule.sources.filterMap ShaderSource.filePath?)
      (context.Translates shaderModule) (context.translationUnit shaderModule) := by
  rw [List.filterMap_eq_flatMap_toList]
  exact (looks_up_map_list context.looks_up_source shaderModule.sources).map
    fun sources located => ⟨rfl, located⟩

/-- The files of a description are looked up module by module. -/
theorem looks_up_units (desc : ProgramDesc) :
    context.LooksUp desc.filePaths (List.Forall₂ context.Translates desc.modules)
      (context.translationUnits desc) :=
  looks_up_map_list context.looks_up_unit desc.modules

/-! ## Groups -/

/-- The first of the numbered groups whose module is not among the first `moduleCount`. -/
def firstUnplaced? (moduleCount : Nat) (groups : List (EntryPointGroup × Nat)) :
    Option (EntryPointGroup × Nat) :=
  groups.find? fun numbered => moduleCount ≤ numbered.1.shaderModule

theorem declare_groups_error_iff {moduleCount number : Nat} (position : Nat)
    {groups : List EntryPointGroup} {error : ConfigurationError} :
    declareGroups moduleCount number position groups = .error error ↔
      ∃ group place, firstUnplaced? moduleCount (groups.zipIdx number) = some (group, place) ∧
        error = .invalidShaderModuleIndex place group.shaderModule := by
  induction groups generalizing number position with
  | nil => simp [declareGroups, firstUnplaced?]
  | cons first rest ih =>
      rw [declareGroups, List.zipIdx_cons, firstUnplaced?, List.find?_cons, ← firstUnplaced?]
      by_cases placed : first.shaderModule < moduleCount
      · rw [if_pos placed, decide_eq_false (Nat.not_le_of_lt placed)]
        refine Iff.trans ?_ (ih (position +
          (declareEntries first.shaderModule position first.entryPoints).length))
        cases declares : declareGroups moduleCount (number + 1) (position +
            (declareEntries first.shaderModule position first.entryPoints).length) rest with
        | error error => simp [declares, bind, Except.bind]
        | ok others => simp [declares, bind, Except.bind]
      · rw [if_neg placed, decide_eq_true (Nat.le_of_not_lt placed)]
        simp [eq_comm]

theorem placed_of_declared {moduleCount number position : Nat} {groups : List EntryPointGroup}
    {declared : List EntryPointDecl}
    (declares : declareGroups moduleCount number position groups = .ok declared) :
    firstUnplaced? moduleCount (groups.zipIdx number) = none := by
  cases unplaced : firstUnplaced? moduleCount (groups.zipIdx number) with
  | none => rfl
  | some numbered =>
      have refused := (declare_groups_error_iff position).mpr
        ⟨numbered.1, numbered.2, unplaced, rfl⟩
      simp [declares] at refused

theorem first_unplaced_none_iff {moduleCount : Nat} {groups : List EntryPointGroup} :
    firstUnplaced? moduleCount groups.zipIdx = none ↔
      ∀ group ∈ groups, group.shaderModule < moduleCount := by
  simp only [firstUnplaced?, List.find?_eq_none, decide_eq_true_eq, Nat.not_le]
  constructor
  · intro placed group present
    obtain ⟨place, isAt⟩ := List.mem_iff_getElem?.mp present
    exact placed (group, place) (List.mk_mem_zipIdx_iff_getElem?.mpr isAt)
  · intro placed numbered present
    exact placed numbered.1 (List.fst_mem_of_mem_zipIdx present)

theorem first_missing_none_iff (paths : List Path) :
    context.firstMissing? paths = none ↔
      ∀ path ∈ paths, ∃ found, context.resolver.find context.files path = .ok found := by
  simp only [firstMissing?, List.find?_eq_none, Bool.not_eq_true', Bool.not_eq_false, is_found_iff]

/-! ## The first error -/

/-- What a request for a description is refused with: the first file of all modules that is not
found, or else the first group without a module. -/
def firstError? (desc : ProgramDesc) : Option ConfigurationError :=
  match context.firstMissing? desc.filePaths with
  | some path => some (.sourceNotFound path)
  | none =>
      (firstUnplaced? desc.modules.length desc.groups.zipIdx).map fun numbered =>
        .invalidShaderModuleIndex numbered.2 numbered.1.shaderModule

variable {context} {desc : ProgramDesc} {defines : DefineList}

theorem first_error_of_refused {error : ConfigurationError}
    (refused : context.request desc defines = .error error) :
    context.firstError? desc = some error := by
  have looks := context.looks_up_units desc
  rcases request_error refused with missing | ⟨units, found, unplaced⟩
  · rw [missing] at looks
    obtain ⟨path, isFirst, rfl⟩ := looks
    rw [firstError?, isFirst]
  · rw [found] at looks
    obtain ⟨nothingMissing, translates⟩ := looks
    rw [← translates.length_eq] at unplaced
    obtain ⟨group, place, isFirst, rfl⟩ := (declare_groups_error_iff 0).mp unplaced
    simp only [firstError?, nothingMissing, isFirst, Option.map_some]

theorem no_error_of_requested {sent : CompileRequest}
    (requested : context.request desc defines = .ok sent) :
    context.firstError? desc = none := by
  have contents := request_contents requested
  have looks := context.looks_up_units desc
  rw [contents.units] at looks
  obtain ⟨nothingMissing, translates⟩ := looks
  have declares := contents.entryPoints
  rw [← translates.length_eq] at declares
  simp only [firstError?, nothingMissing, placed_of_declared declares, Option.map_none]

/-- A request is refused with the first error, and made if there is none. -/
theorem refused_iff {error : ConfigurationError} :
    context.request desc defines = .error error ↔ context.firstError? desc = some error := by
  constructor
  · exact first_error_of_refused
  · intro isFirst
    cases outcome : context.request desc defines with
    | error reported =>
        have same := (first_error_of_refused outcome).symm.trans isFirst
        exact congrArg _ (Option.some.inj same)
    | ok sent => simp [no_error_of_requested outcome] at isFirst

theorem first_error_none_iff :
    context.firstError? desc = none ↔
      (∀ path ∈ desc.filePaths, ∃ found, context.resolver.find context.files path = .ok found) ∧
        ∀ group ∈ desc.groups, group.shaderModule < desc.modules.length := by
  rw [← first_missing_none_iff, ← first_unplaced_none_iff, firstError?]
  cases context.firstMissing? desc.filePaths with
  | some path => simp
  | none => simp

end CompileContext

/-! ## What a request declares -/

namespace ProgramDesc

/-- The entry points of all groups in order, each with its group. -/
def grouped (desc : ProgramDesc) : List (EntryPointGroup × EntryPoint) :=
  desc.groups.flatMap fun group => group.entryPoints.map fun entry => (group, entry)

variable {desc : ProgramDesc}

theorem grouped_entry_points (desc : ProgramDesc) :
    desc.grouped.map Prod.snd = desc.entryPoints := by
  simp [grouped, entryPoints, List.map_flatMap, Function.comp_def]

theorem declarations_grouped (desc : ProgramDesc) :
    desc.declarations = desc.grouped.map fun owned =>
      owned.2.declaration owned.1.shaderModule := by
  simp [grouped, declarations, List.map_flatMap, Function.comp_def]

/-- The entry point of a group as it is declared at a position. -/
def declaredAt (position : Nat) (owned : EntryPointGroup × EntryPoint) : EntryPointDecl :=
  ⟨owned.1.shaderModule, owned.2.name, owned.2.stage, UInt32.ofNat position⟩

theorem Positioned.declarations_eq (positioned : desc.Positioned) :
    desc.declarations = desc.grouped.mapIdx declaredAt := by
  have indexed : ∀ (position : Nat) (owned : EntryPointGroup × EntryPoint),
      desc.grouped[position]? = some owned →
        owned.2.globalIndex.getD 0 = UInt32.ofNat position := by
    intro position owned isAt
    apply positioned.index_at
    rw [← grouped_entry_points, List.getElem?_map, isAt, Option.map_some]
  rw [declarations_grouped]
  exact map_by_positions indexed fun index owned =>
    EntryPointDecl.mk owned.1.shaderModule owned.2.name owned.2.stage index

end ProgramDesc

namespace CompileContext

variable {context : CompileContext} {desc : ProgramDesc} {defines : DefineList}

/-- A request has a translation unit for each module, and an entry point for each one of the groups,
with its position as index and the number of its unit. -/
structure Represents (context : CompileContext) (desc : ProgramDesc) (sent : CompileRequest) :
    Prop where
  units : List.Forall₂ context.Translates desc.modules sent.translationUnits
  declared : sent.entryPoints = desc.grouped.mapIdx ProgramDesc.declaredAt
  inRange : ∀ declared ∈ sent.entryPoints,
    declared.translationUnit < sent.translationUnits.length

theorem represents_of_requested (positioned : desc.Positioned) {sent : CompileRequest}
    (requested : context.request desc defines = .ok sent) : context.Represents desc sent := by
  have units : List.Forall₂ context.Translates desc.modules sent.translationUnits := by
    have looks := context.looks_up_units desc
    rw [(request_contents requested).units] at looks
    exact looks.2
  have declared := positioned.declared requested
  refine ⟨units, declared.trans positioned.declarations_eq, ?_⟩
  intro one present
  rw [declared, ProgramDesc.declarations] at present
  obtain ⟨group, held, inGroup⟩ := List.mem_flatMap.mp present
  obtain ⟨entry, _, rfl⟩ := List.mem_map.mp inGroup
  rw [← units.length_eq]
  exact (first_error_none_iff.mp (no_error_of_requested requested)).2 group held

end CompileContext

namespace World

/-- Compiling a program for some defines: a request is refused exactly if a file of some module is
not found or some group names no module, and then the first of these is reported, files before
groups. The backend is not asked for anything, so all managers stay as they are. A request that is
made represents the whole description. -/
theorem request_made_or_refused (world : World B) (context : CompileContext) (service : B.State)
    (manager serial : Nat) (program : Program B) (finalized : program.desc.isFinalized = true)
    (defines : DefineList) (log : String) :
    let desc := program.desc
    (∀ error, context.request desc defines = .error error ↔
      context.firstError? desc = some error) ∧
    ((∃ error, context.request desc defines = .error error) ↔
      (∃ path ∈ desc.filePaths, ∀ found, context.resolver.find context.files path ≠ .ok found) ∨
        ∃ group ∈ desc.groups, desc.modules.length ≤ group.shaderModule) ∧
    (∀ error, context.firstError? desc = some error →
      let report := log ++ error.message ++ "\n"
      world.compileIn context service manager serial program defines log =
        (⟨report, .error (.configuration error report)⟩,
          world.emitAll (context.warnings desc))) ∧
    desc.grouped.map Prod.snd = desc.entryPoints ∧
    ∀ sent, context.request desc defines = .ok sent → context.Represents desc sent := by
  intro desc
  have positioned := (ProgramDesc.is_finalized_iff desc).mp finalized
  refine ⟨fun error => CompileContext.refused_iff, ?_, ?_, desc.grouped_entry_points, ?_⟩
  · simp only [CompileContext.refused_iff, ← Option.isSome_iff_exists, ← Option.ne_none_iff_isSome]
    rw [ne_eq, CompileContext.first_error_none_iff, not_and_or]
    simp only [not_forall, not_exists, exists_prop, Nat.not_lt, ne_eq]
  · intro error isFirst report
    rw [compileIn, CompileContext.refused_iff.mpr isFirst]
  · exact fun sent requested => CompileContext.represents_of_requested positioned requested

/-- A file is missing that no group needs, and an empty group names no module: the file is reported,
and without it the group. -/
theorem request_refused_for_unused_module :
    let context : CompileContext :=
      { device := { type := .vulkan }, settings := {}, resolver := {}, files := {} }
    let groups : List EntryPointGroup :=
      [⟨0, ∅, [⟨.compute, "main", "main", some 0⟩]⟩, ⟨7, ∅, []⟩]
    let used : ShaderModule := .ofCode "void main() {}" ⟨"main.slang"⟩
    let incomplete : ProgramDesc := { modules := [used, .ofFile ⟨"gone.slang"⟩], groups := groups }
    let misplaced : ProgramDesc := { modules := [used], groups := groups }
    incomplete.isFinalized = true ∧ misplaced.isFinalized = true ∧
      context.request incomplete ∅ = .error (.sourceNotFound ⟨"gone.slang"⟩) ∧
      context.request misplaced ∅ = .error (.invalidShaderModuleIndex 1 7) := by
  intro context groups used incomplete misplaced
  have finalized : incomplete.isFinalized = true ∧ misplaced.isFinalized = true := by decide
  let world : World Backend.echo := { files := {} }
  let program := fun desc : ProgramDesc => (⟨1, 0, desc, "", ⟨∅, ∅, true, none, [], []⟩⟩ :
    Program Backend.echo)
  have refused := (request_made_or_refused world context () 0 0 (program incomplete)
    finalized.1 ∅ "").1
  have refusedToo := (request_made_or_refused world context () 0 0 (program misplaced)
    finalized.2 ∅ "").1
  exact ⟨finalized.1, finalized.2, (refused _).mpr rfl, (refusedToo _).mpr rfl⟩

end World

end ShaderCache
