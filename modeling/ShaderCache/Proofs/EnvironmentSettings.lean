import ShaderCache.Proofs.ConfigurationEdit
import ShaderCache.Proofs.Contexts
import ShaderCache.Proofs.Echo
import ShaderCache.World.Managers

/-!
# Settings from environments

A manager that is made from an environment compiles like one that is made without any settings and
then given those of the environment one by one. The one thing that cannot be set afterwards is the
shader model: there the description has to name the model of the environment itself.
-/

set_option autoImplicit false

namespace ShaderCache

/-! ## Names of flags -/

namespace ForcedFlags

/-- The first name that no flag has. -/
def unknownName? (names : List String) : Option String :=
  names.find? fun name => (CompilerFlags.ofName? name).isNone

theorem unknown_name_none_iff {names : List String} :
    unknownName? names = none ↔ ∀ name ∈ names, CompilerFlags.ofName? name ≠ none := by
  simp [unknownName?]

/-- The flags with the given names, on top of some that are set already. -/
def withNames (flags : CompilerFlags) (names : List String) :
    Except ConfigurationError CompilerFlags :=
  names.foldlM (fun flags name =>
    match CompilerFlags.ofName? name with
    | some flag => .ok (flags.union flag)
    | none => .error (.unknownCompilerFlag name)) flags

theorem with_names_error_iff {names : List String} (flags : CompilerFlags)
    {error : ConfigurationError} :
    withNames flags names = .error error ↔
      (unknownName? names).map .unknownCompilerFlag = some error := by
  induction names generalizing flags with
  | nil => simp [withNames, unknownName?, pure, Except.pure]
  | cons name rest ih =>
      rw [unknownName?, List.find?_cons]
      cases known : CompilerFlags.ofName? name with
      | some flag =>
          have step : withNames flags (name :: rest) = withNames (flags.union flag) rest := by
            simp [withNames, known, bind, Except.bind]
          rw [step]
          exact ih (flags.union flag)
      | none => simp [withNames, known, bind, Except.bind]

theorem flags_of_names_error_iff {names : List String} {error : ConfigurationError} :
    flagsOfNames names = .error error ↔
      (unknownName? names).map .unknownCompilerFlag = some error :=
  with_names_error_iff CompilerFlags.empty

theorem known_of_flags {names : List String} {flags : CompilerFlags}
    (collected : flagsOfNames names = .ok flags) : unknownName? names = none := by
  cases unknown : unknownName? names with
  | none => rfl
  | some name =>
      have refused : flagsOfNames names = .error (.unknownCompilerFlag name) :=
        flags_of_names_error_iff.mpr (by rw [unknown, Option.map_some])
      simp [collected] at refused

/-- Of the names that no flag has, the first one to turn on is reported, or else the first one to
turn off. -/
theorem of_names_error_iff {enabled disabled : List String} {error : ConfigurationError} :
    ofNames enabled disabled = .error error ↔
      ((unknownName? enabled).or (unknownName? disabled)).map .unknownCompilerFlag =
        some error := by
  cases first : flagsOfNames enabled with
  | error reported =>
      have isFirst := flags_of_names_error_iff.mp first
      obtain ⟨name, unknown, rfl⟩ := Option.map_eq_some_iff.mp isFirst
      simp [ofNames, first, unknown, bind, Except.bind]
  | ok flags =>
      rw [known_of_flags first, Option.none_or, ← flags_of_names_error_iff]
      cases second : flagsOfNames disabled with
      | error reported => simp [ofNames, first, second, bind, Except.bind]
      | ok others => simp [ofNames, first, second, bind, Except.bind]

end ForcedFlags

/-! ## What an environment says -/

namespace Environment

/-- The shader model that the environment names. -/
def model? (environment : Environment) : Option ShaderModel :=
  environment.shaderModel.bind fun profile => (ShaderModel.ofProfile profile).toOption

/-- The profile of the environment, if it is no profile of a shader model. -/
def malformedProfile? (environment : Environment) : Option String :=
  environment.shaderModel.filter fun profile => (ShaderModel.ofProfile profile).toOption.isNone

/-- What keeps a manager from being made: the first unknown name of a flag, or else the profile. -/
def firstError? (environment : Environment) : Option ConfigurationError :=
  let names := environment.forcedFlags
  (((ForcedFlags.unknownName? names.enabled).or (ForcedFlags.unknownName? names.disabled)).map
    .unknownCompilerFlag).or (environment.malformedProfile?.map .malformedProfile)

/-- The edits that make the settings of an environment, but for the shader model. -/
def edits (environment : Environment) (forced : ForcedFlags) : List World.SettingsEdit :=
  [.addDefines environment.globalDefines, .setArguments environment.globalCompilerArguments,
    .setForcedFlags forced, .setDebugInfo environment.generateDebugInfo,
    .setSpirvDirect environment.spirvDirect]

/-- A description that names no shader model gets that of the environment. -/
def complete (environment : Environment) (desc : ProgramDesc) : ProgramDesc :=
  { desc with shaderModel := desc.shaderModel.or environment.model? }

/-- Requests that give a manager what the environment says: the search directories in their order,
and each edit once in any order. What else is requested, or of whom, does not matter. -/
structure SetBy (environment : Environment) (forced : ForcedFlags) (manager : Nat)
    (requests : List Request) : Prop where
  edits : (requests.filterMap (Request.edit? manager)).Perm (environment.edits forced)
  paths : requests.filterMap (Request.searchPath? manager) = environment.shaderPath

theorem of_profile_error {profile : String} {error : ConfigurationError}
    (malformed : ShaderModel.ofProfile profile = .error error) :
    error = .malformedProfile profile := by
  unfold ShaderModel.ofProfile at malformed
  split at malformed
  next => simp at malformed
  next => exact (Except.error.inj malformed).symm

theorem read_model (environment : Environment) :
    environment.shaderModel.mapM ShaderModel.ofProfile =
      match environment.malformedProfile? with
      | some profile => .error (.malformedProfile profile)
      | none => .ok environment.model? := by
  unfold malformedProfile? model?
  cases environment.shaderModel with
  | none => rfl
  | some profile =>
      cases read : ShaderModel.ofProfile profile with
      | ok model => simp [read, Option.filter, Except.toOption, Functor.map, Except.map]
      | error error =>
          simp [read, of_profile_error read, Option.filter, Except.toOption, Functor.map,
            Except.map]

variable {environment : Environment}

theorem malformed_profile_none_iff :
    environment.malformedProfile? = none ↔
      ∀ profile, environment.shaderModel = some profile →
        ∃ model, ShaderModel.ofProfile profile = .ok model := by
  unfold malformedProfile?
  cases environment.shaderModel with
  | none => simp
  | some profile =>
      cases read : ShaderModel.ofProfile profile with
      | ok model => simp [read, Option.filter, Except.toOption]
      | error error => simp [read, Option.filter, Except.toOption]

theorem first_error_none_iff :
    environment.firstError? = none ↔
      (∀ name ∈ environment.forcedFlags.enabled ++ environment.forcedFlags.disabled,
        CompilerFlags.ofName? name ≠ none) ∧
      ∀ profile, environment.shaderModel = some profile →
        ∃ model, ShaderModel.ofProfile profile = .ok model := by
  rw [← malformed_profile_none_iff, List.forall_mem_append, ← ForcedFlags.unknown_name_none_iff,
    ← ForcedFlags.unknown_name_none_iff]
  simp [firstError?]

end Environment

namespace Settings

variable {environment : Environment}

/-- Settings are made if there is no error to report, and then have all that is said. -/
theorem of_environment_eq (environment : Environment) :
    ofEnvironment environment =
      match ForcedFlags.ofNames environment.forcedFlags.enabled
        environment.forcedFlags.disabled, environment.malformedProfile? with
      | .error error, _ => .error error
      | .ok _, some profile => .error (.malformedProfile profile)
      | .ok forced, none => .ok {
          defines := environment.globalDefines
          arguments := environment.globalCompilerArguments
          forcedFlags := forced
          debugInfo := environment.generateDebugInfo
          spirvDirect := environment.spirvDirect
          defaultModel := environment.model? } := by
  unfold ofEnvironment
  rw [environment.read_model]
  cases ForcedFlags.ofNames environment.forcedFlags.enabled environment.forcedFlags.disabled with
  | error error => rfl
  | ok forced => cases environment.malformedProfile? <;> rfl

theorem of_environment_error_iff {error : ConfigurationError} :
    ofEnvironment environment = .error error ↔ environment.firstError? = some error := by
  rw [of_environment_eq, Environment.firstError?]
  cases named : ForcedFlags.ofNames environment.forcedFlags.enabled
    environment.forcedFlags.disabled with
  | error reported =>
      rw [ForcedFlags.of_names_error_iff.mp named]
      simp
  | ok forced =>
      have known : (ForcedFlags.unknownName? environment.forcedFlags.enabled).or
          (ForcedFlags.unknownName? environment.forcedFlags.disabled) = none := by
        by_contra unknown
        obtain ⟨name, isUnknown⟩ := Option.ne_none_iff_exists'.mp unknown
        have refused := ForcedFlags.of_names_error_iff.mpr
          (congrArg (Option.map ConfigurationError.unknownCompilerFlag) isUnknown)
        simp [named] at refused
      rw [known]
      cases environment.malformedProfile? <;> simp

end Settings

/-! ## One by one -/

theorem DefineList.add_all_empty (defines : DefineList) :
    ((∅ : DefineList).addAll defines).2 = defines := by
  apply SortedMap.eq_of_get_eq
  intro name
  rw [get_add_all]
  exact Option.or_none

namespace Environment

variable {environment : Environment} {forced : ForcedFlags}

/-- No two of the edits write the same setting, so their order does not matter. -/
theorem settings_in_any_order {edits : List World.SettingsEdit}
    (each : edits.Perm (environment.edits forced)) (settings : Settings) :
    edits.foldl World.SettingsEdit.apply settings =
      (environment.edits forced).foldl World.SettingsEdit.apply settings := by
  apply each.foldl_eq'
  intro first firstIn second secondIn reached
  replace firstIn := each.mem_iff.mp firstIn
  replace secondIn := each.mem_iff.mp secondIn
  simp only [Environment.edits, List.mem_cons, List.not_mem_nil, or_false] at firstIn secondIn
  rcases firstIn with rfl | rfl | rfl | rfl | rfl <;>
    rcases secondIn with rfl | rfl | rfl | rfl | rfl <;> rfl

theorem settings_of_edits (environment : Environment) (forced : ForcedFlags) :
    (environment.edits forced).foldl World.SettingsEdit.apply {} = {
      defines := environment.globalDefines
      arguments := environment.globalCompilerArguments
      forcedFlags := forced
      debugInfo := environment.generateDebugInfo
      spirvDirect := environment.spirvDirect
      defaultModel := none } := by
  simp only [Environment.edits, List.foldl_cons, List.foldl_nil, World.SettingsEdit.apply,
    DefineList.add_all_empty]

end Environment

namespace CompileContext

/-- A model can be set as the default or be named by the description. -/
theorem request_named_model {context : CompileContext}
    (unset : context.settings.defaultModel = none) (model : Option ShaderModel) (desc : ProgramDesc)
    (defines : DefineList) :
    context.request { desc with shaderModel := desc.shaderModel.or model } defines =
      { context with settings := { context.settings with defaultModel := model } }.request desc
        defines := by
  have named : context.shaderModel { desc with shaderModel := desc.shaderModel.or model } =
      shaderModel { context with
        settings := { context.settings with defaultModel := model } } desc := by
    simp only [shaderModel, defaultModel, unset, Option.getD_none]
    cases desc.shaderModel with
    | none => rfl
    | some own => rfl
  simp only [request, macros, named]
  rfl

end CompileContext

namespace Archive

variable {B : Backend}

/-- A manager is made from an environment unless it names an unknown flag or a malformed profile:
then the first unknown flag to turn on is reported, or else the first one to turn off, or else the
profile. A manager for the same device that is made without settings, and is given those of the
environment by requests, makes the same requests for the compiler and fails with the same errors. -/
theorem environment_as_by_hand (device : Device) (service : B.State) (environment : Environment) :
    let made : Except ConfigurationError (Manager B) :=
      Manager.ofEnvironment device service environment
    (∀ error, made = .error error ↔ environment.firstError? = some error) ∧
    ((∃ error, made = .error error) ↔
      (∃ name ∈ environment.forcedFlags.enabled ++ environment.forcedFlags.disabled,
        CompilerFlags.ofName? name = none) ∨
      ∃ profile, environment.shaderModel = some profile ∧
        ∀ model, ShaderModel.ofProfile profile ≠ .ok model) ∧
    ∀ whole, made = .ok whole →
      ∃ forced, ForcedFlags.ofNames environment.forcedFlags.enabled
          environment.forcedFlags.disabled = .ok forced ∧
        ∀ (files : FileTree) (managers : List (Manager B)) (manager : Nat) (other : B.State)
          (requests : List Request), managers[manager]? = some (Manager.new device other) →
          environment.SetBy forced manager requests →
          ∃ context,
            ((opening files managers).run requests).world.context? manager = some context ∧
            ∀ desc defines, context.request (environment.complete desc) defines =
              (whole.context files).request desc defines := by
  intro made
  have made_eq : made = (Settings.ofEnvironment environment).map fun settings =>
      { device, service, settings, resolver := .ofPaths environment.shaderPath } := by
    change Manager.ofEnvironment device service environment = _
    unfold Manager.ofEnvironment
    cases Settings.ofEnvironment environment <;> rfl
  have refused (error : ConfigurationError) :
      made = .error error ↔ environment.firstError? = some error := by
    rw [made_eq, ← Settings.of_environment_error_iff]
    cases Settings.ofEnvironment environment <;> simp [Except.map]
  refine ⟨refused, ?_, ?_⟩
  · simp only [refused, ← Option.isSome_iff_exists, ← Option.ne_none_iff_isSome]
    rw [ne_eq, Environment.first_error_none_iff, not_and_or]
    simp only [not_forall, not_exists, exists_prop, ne_eq, not_not]
  · intro whole succeeded
    rw [made_eq, Settings.of_environment_eq] at succeeded
    cases named : ForcedFlags.ofNames environment.forcedFlags.enabled
        environment.forcedFlags.disabled with
    | error error => simp [named, Except.map] at succeeded
    | ok forced =>
        refine ⟨forced, rfl, ?_⟩
        intro files managers manager other requests managed setBy
        refine ⟨_, context_reached files managed requests, ?_⟩
        intro desc defines
        cases formed : environment.malformedProfile? with
        | some profile => simp [named, formed, Except.map] at succeeded
        | none =>
            simp only [named, formed, Except.map, Except.ok.injEq] at succeeded
            subst succeeded
            have settings := (environment.settings_in_any_order setBy.edits {}).trans
              (environment.settings_of_edits forced)
            rw [CompileContext.reconfigured, setBy.paths]
            change CompileContext.request ⟨device, List.foldl _ {} _, _, files⟩ _ defines = _
            rw [settings]
            exact CompileContext.request_named_model rfl environment.model? desc defines

/-- The settings are made last one first, the search directories in between, and a program is
compiled before all is set. -/
theorem environment_as_by_hand_reversed :
    let environment : Environment := {
      shaderPath := [⟨"inc/../lib"⟩, ⟨"/opt/shaders"⟩, ⟨"lib"⟩]
      globalDefines := .ofList [("QUALITY", "2")]
      globalCompilerArguments := ["-O3"]
      forcedFlags := ⟨[" GENERATE_DEBUG_INFO "], ["DUMP_INTERMEDIATES"]⟩
      shaderModel := some "sm_6_3 " }
    let forced : ForcedFlags := ⟨.generateDebugInfo, .dumpIntermediates⟩
    let requests : List Request := [
      .operate (.newProgram 0 .oneKernel ∅),
      .operate (.editSettings 0 (.setSpirvDirect false)),
      .addSearchPath 0 ⟨"inc/../lib"⟩,
      .operate (.editSettings 0 (.setDebugInfo false)),
      .operate (.activeVersion 0),
      .operate (.editSettings 0 (.setForcedFlags forced)),
      .addSearchPath 0 ⟨"/opt/shaders"⟩,
      .operate (.editSettings 0 (.setArguments ["-O3"])),
      .addSearchPath 0 ⟨"lib"⟩,
      .operate (.editSettings 0 (.addDefines (.ofList [("QUALITY", "2")])))]
    ∃ (whole : Manager Backend.echo) (context : CompileContext),
      Manager.ofEnvironment { type := .vulkan } () environment = .ok whole ∧
      ((opening {} [Manager.echo]).run requests).world.context? 0 = some context ∧
      context.request (environment.complete .oneKernel) ∅ =
        (whole.context {}).request .oneKernel ∅ ∧
      ((context.request (environment.complete .oneKernel) ∅).toOption.map fun sent =>
        (sent.profile, sent.flags, sent.arguments, sent.searchPaths.map Path.text)) =
          some ("sm_6_3", .generateDebugInfo, ["-O3"], ["lib", "/opt/shaders"]) := by
  intro environment forced requests
  obtain ⟨_, _, byHand⟩ := environment_as_by_hand (B := Backend.echo) { type := .vulkan } ()
    environment
  have succeeds : (Manager.ofEnvironment (B := Backend.echo) { type := .vulkan } ()
      environment).toOption.isSome = true := by
    decide +kernel
  have named : (ForcedFlags.ofNames environment.forcedFlags.enabled
      environment.forcedFlags.disabled).toOption = some forced := by
    decide +kernel
  have sent : (((opening {} [Manager.echo]).run requests).world.context? 0).map (fun context =>
      (context.request (environment.complete .oneKernel) ∅).toOption.map fun sent =>
        (sent.profile, sent.flags, sent.arguments, sent.searchPaths.map Path.text)) =
      some (some ("sm_6_3", .generateDebugInfo, ["-O3"], ["lib", "/opt/shaders"])) := by
    decide +kernel
  cases made : Manager.ofEnvironment (B := Backend.echo) { type := .vulkan } () environment with
  | error error => simp [made, Except.toOption] at succeeds
  | ok whole =>
      obtain ⟨others, isNamed, agrees⟩ := byHand whole made
      rw [isNamed] at named
      cases named
      have setBy : environment.SetBy forced 0 requests :=
        ⟨List.reverse_perm (environment.edits forced), rfl⟩
      obtain ⟨context, inContext, requested⟩ :=
        agrees {} [Manager.echo] 0 () requests rfl setBy
      rw [inContext, Option.map_some, Option.some.injEq] at sent
      exact ⟨whole, context, rfl, inContext, requested .oneKernel ∅, sent⟩

end Archive

end ShaderCache
