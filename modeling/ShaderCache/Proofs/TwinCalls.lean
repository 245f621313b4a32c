import ShaderCache.Proofs.Twins

/-!
# Calls in twins

Compiling and linking in twins. The versions and kernels that come out are the same up to
identifiers, and so is whatever is looked up of them later.
-/

set_option autoImplicit false

namespace ShaderCache

variable {B : Backend}

def Logged.map {Value Result : Type} (change : Value → Result) (logged : Logged Value) :
    Logged Result :=
  ⟨logged.log, logged.outcome.map change⟩

/-- Versions that differ in their identifiers are linked with inputs that differ in them. -/
theorem Version.link_input_renumbered {version another : Version B}
    (same : another.unnumbered = version.unnumbered) :
    another.linkInput = version.linkInput.renumbered another.id := by
  obtain ⟨_, _, name, _, compiled⟩ := Version.mk.inj same
  obtain ⟨_, scope, entries, _⟩ := CompiledVersion.mk.inj compiled
  simp only [linkInput, LinkInput.renumbered, name, scope, entries]

/-- Linking under another identifier agrees, in states of the backend that are close. -/
theorem LinkedKernels.alike_job {close : B.State → B.State → Prop} (respects : B.Respects close)
    {desc : ProgramDesc} (conformances : ConformanceList) {input : LinkInput B} (id : UInt64)
    (indexed : ∀ group ∈ desc.groups, ∀ entry ∈ group.entryPoints,
      ProgramDesc.IndexedBelow input.entryPoints.length entry) :
    Job.Alike close (fun one other : LinkedKernels B => one.unnumbered = other.unnumbered)
      (job desc conformances input) (job desc conformances (input.renumbered id)) := by
  have repeats := (Job.closed_repeats respects).link desc conformances input
  have both : Job.Alike close (fun one other : LinkedKernels B => one.unnumbered = other.unnumbered)
      (job desc conformances input >>= pure)
      (job desc conformances input >>= fun linked => pure (linked.renumbered id)) := by
    apply Job.alike_bind repeats
    intro linked _ same
    cases same
    exact Job.alike_pure rfl
  rw [job_renumbered conformances id indexed]
  rwa [bind_pure] at both

namespace World.Twin

variable {close : B.State → B.State → Prop} {world other : World B}
  (twin : Twin close world other)

include twin

theorem absorb (manager : Nat) {work another : Work B.State}
    (states : close work.service another.service) :
    Twin close (world.absorb manager work) (other.absorb manager another) :=
  (twin.modify_manager manager _ _ fun _ _ _ => ⟨rfl, states⟩).reported _ _ _ _

/-! ## Compiling -/

theorem record_version (manager serial : Nat) (found : Program B) (state : ProgramState B)
    (defines : DefineList) {compiled another : CompiledVersion B}
    (same : another.unnumbered = compiled.unnumbered) :
    let recorded := world.recordVersion manager serial found defines compiled
    let otherRecorded :=
      other.recordVersion manager serial { found with state := state } defines another
    otherRecorded.1.unnumbered = recorded.1.unnumbered ∧
      Twin close recorded.2 otherRecorded.2 := by
  have counted : Twin close { world with versionCount := world.versionCount + 1 }
      { other with versionCount := other.versionCount + 1 } :=
    { twin with versionCount := congrArg (· + 1) twin.versionCount }
  constructor
  · simp only [recordVersion, Version.unnumbered, same, twin.versionCount]
  · exact (counted.modify_manager manager _ _ fun _ _ states => ⟨rfl, states⟩).reported _ _ _ _

theorem compile_in (respects : B.Respects close) (context : CompileContext)
    {service another : B.State} (states : close service another) (manager serial : Nat)
    (found : Program B) (state : ProgramState B) (defines : DefineList) (log : String) :
    Parallel close (Logged.map Version.unnumbered)
      (some (world.compileIn context service manager serial found defines log))
      (some (other.compileIn context another manager serial { found with state := state } defines
        log)) := by
  have warned : Twin close (world.emitAll (context.warnings found.desc))
      (other.emitAll (context.warnings found.desc)) :=
    twin.reported _ _ world.versionIds other.versionIds
  unfold compileIn
  cases context.request found.desc defines with
  | error error => exact .some rfl warned
  | ok request =>
      -- The identifiers that are next may differ, so the versions agree only without them.
      have ⟨logs, after, agree⟩ := CompiledVersion.alike_job respects found.desc request
        ⟨service, log, world.versionIds⟩ ⟨another, log, other.versionIds⟩ rfl states
      have absorbed := warned.absorb manager after
      cases reached : (CompiledVersion.job found.desc request).run
          ⟨service, log, world.versionIds⟩ with
      | mk outcome work =>
          cases otherReached : (CompiledVersion.job found.desc request).run
              ⟨another, log, other.versionIds⟩ with
          | mk otherOutcome otherWork =>
              simp only [reached, otherReached] at logs agree absorbed ⊢
              cases agree with
              | error failure =>
                  cases failure
                  rw [logs]
                  exact .some rfl absorbed
              | ok values =>
                  have ⟨versions, recorded⟩ :=
                    absorbed.record_version manager serial found state defines values.symm
                  apply Parallel.some _ recorded
                  simp only [Logged.map, Except.map, logs, versions]

theorem compile_under (respects : B.Respects close) (settings : Settings) (manager serial : Nat)
    (found : Program B) (state : ProgramState B) (defines : DefineList) (log : String) :
    Parallel close (Logged.map Version.unnumbered)
      (world.compileUnder settings manager serial found defines log)
      (other.compileUnder settings manager serial { found with state := state } defines log) := by
  unfold compileUnder
  cases lookup : world.managers[manager]? with
  | none =>
      rw [twin.unmanaged lookup]
      exact .none
  | some managedBy =>
      obtain ⟨service, otherLookup, states⟩ := twin.managed lookup
      rw [otherLookup, twin.files]
      exact twin.compile_in respects _ states manager serial found state defines log

theorem create_version (respects : B.Respects close) (manager program : Nat) (log : String) :
    Parallel close (Logged.map Version.unnumbered) (world.createVersion manager program log)
      (other.createVersion manager program log) := by
  unfold createVersion
  cases present : world.program? program with
  | none =>
      rw [twin.absent present]
      exact .none
  | some found =>
      obtain ⟨state, otherPresent, same⟩ := twin.present present
      have defines : state.defines = found.state.defines :=
        congrArg ProgramKey.defines (ProgramState.key_of_unnumbered same)
      rw [otherPresent, twin.settings]
      cases world.settings? manager with
      | none => exact .none
      | some settings =>
          simp only [Option.bind_eq_bind, Option.bind_some, defines]
          exact twin.compile_under respects settings manager program found state
            found.state.defines log

theorem compile_active (respects : B.Respects close) (settings : Settings) (program : Nat)
    (found : Program B) {state : ProgramState B}
    (same : state.unnumbered = found.state.unnumbered) :
    Parallel close (Except.map Version.unnumbered)
      (world.compileActive settings program found)
      (other.compileActive settings program { found with state := state }) := by
  have key : state.key = found.state.key := ProgramState.key_of_unnumbered same
  unfold compileActive
  simp only [key]
  apply (twin.compile_under respects settings found.manager program found state
    found.state.key.defines "").bind
  intro logged another done otherDone _ sameLogged compiled
  obtain ⟨log, outcome⟩ := logged
  obtain ⟨otherLog, otherOutcome⟩ := another
  obtain ⟨logs, outcomes⟩ := Logged.mk.inj sameLogged
  cases agree_of_map_eq outcomes with
  | error error => exact .some rfl (compiled.reported _ _ _ _)
  | ok versions =>
      apply Parallel.some outcomes
      apply (compiled.emit_if _ _ _ _).modify_state
      intro current otherCurrent _ states
      rw [ProgramState.commit_unnumbered, ProgramState.commit_unnumbered, states, versions]

theorem active_version (respects : B.Respects close) (program : Nat) :
    Parallel close (Except.map Version.unnumbered) (world.activeVersion program)
      (other.activeVersion program) := by
  unfold activeVersion
  cases present : world.program? program with
  | none =>
      rw [twin.absent present]
      exact .none
  | some found =>
      obtain ⟨state, otherPresent, same⟩ := twin.present present
      rw [otherPresent]
      have key : state.key = found.state.key := ProgramState.key_of_unnumbered same
      have currents : state.current?.map Version.unnumbered =
          found.state.current?.map Version.unnumbered := by
        rw [← ProgramState.current_unnumbered, same, ProgramState.current_unnumbered]
      have cached : (state.cached? found.state.key).map Version.unnumbered =
          (found.state.cached? found.state.key).map Version.unnumbered := by
        rw [← ProgramState.cached_unnumbered, same, ProgramState.cached_unnumbered]
      simp only [Option.bind_eq_bind, Option.bind_some, key]
      cases current : found.state.current? with
      | some version =>
          obtain ⟨another, otherCurrent, versions⟩ := some_of_map_eq currents current
          simp only [otherCurrent]
          exact .some (congrArg Except.ok versions) twin
      | none =>
          simp only [none_of_map_eq currents current]
          cases lookup : found.state.cached? found.state.key with
          | some version =>
              obtain ⟨another, otherLookup, versions⟩ := some_of_map_eq cached lookup
              simp only [otherLookup]
              have adopted : Twin close (world.modifyState program fun state => state.adopt version)
                  (other.modifyState program fun state => state.adopt another) := by
                apply twin.modify_state
                intro one two _ states
                rw [ProgramState.adopt_unnumbered, ProgramState.adopt_unnumbered, states, versions]
              exact .some (congrArg Except.ok versions) (adopted.reported _ _ _ _)
          | none =>
              simp only [none_of_map_eq cached lookup]
              rw [twin.settings]
              cases world.settings? found.manager with
              | none => exact .none
              | some settings => exact twin.compile_active respects settings program found same

/-! ## Linking -/

theorem owner {version another : Version B} (same : another.unnumbered = version.unnumbered) :
    (other.owner? another).map Program.unnumbered =
      (world.owner? version).map Program.unnumbered := by
  obtain ⟨serial, program, _⟩ := Version.mk.inj same
  unfold owner?
  rw [serial, program, twin.orphans]
  split
  next => rfl
  next => exact twin.programs version.program

theorem cached_kernels {version another : Version B} (serial : another.serial = version.serial) :
    (other.cachedKernels another).map CachedKernels.unnumbered =
      (world.cachedKernels version).map CachedKernels.unnumbered := by
  have filtered : ∀ one : World B,
      (one.cachedKernels version).map CachedKernels.unnumbered =
        (one.kernels.map CachedKernels.unnumbered).filter
          fun cached => cached.version = version.serial := by
    intro one
    rw [List.filter_map]
    rfl
  have same : other.cachedKernels another = other.cachedKernels version := by
    simp only [cachedKernels, serial]
  rw [same, filtered, filtered, twin.kernels]

theorem cached_kernels_for {version another : Version B}
    (serial : another.serial = version.serial) (conformances : ConformanceList) :
    (other.cachedKernels? another conformances).map Kernels.unnumbered =
      (world.cachedKernels? version conformances).map Kernels.unnumbered := by
  have found : ∀ (one : World B) (version : Version B),
      (one.cachedKernels? version conformances).map Kernels.unnumbered =
        (((one.cachedKernels version).map CachedKernels.unnumbered).find?
          fun cached => cached.conformances = conformances).map CachedKernels.kernels := by
    intro one version
    rw [cachedKernels?, List.find?_map, Option.map_map, Option.map_map]
    rfl
  rw [found, found, twin.cached_kernels serial]

theorem record_kernels (manager : Nat) {linked another : LinkedKernels B}
    (same : another.unnumbered = linked.unnumbered) :
    (other.recordKernels manager another).1.unnumbered =
        (world.recordKernels manager linked).1.unnumbered ∧
      Twin close (world.recordKernels manager linked).2
        (other.recordKernels manager another).2 := by
  have counted : Twin close { world with kernelsCount := world.kernelsCount + 1 }
      { other with kernelsCount := other.kernelsCount + 1 } :=
    { twin with kernelsCount := congrArg (· + 1) twin.kernelsCount }
  constructor
  · simp only [recordKernels, Kernels.unnumbered, same, twin.kernelsCount]
  · exact (counted.modify_manager manager _ _ fun _ _ states => ⟨rfl, states⟩).reported _ _ _ _

theorem keep_kernels {version another : Version B} (serial : another.serial = version.serial)
    (conformances : ConformanceList) {kernels fresh : Kernels B}
    (same : fresh.unnumbered = kernels.unnumbered) :
    (other.keepKernels another conformances fresh).1.unnumbered =
        (world.keepKernels version conformances kernels).1.unnumbered ∧
      Twin close (world.keepKernels version conformances kernels).2
        (other.keepKernels another conformances fresh).2 := by
  have cached := twin.cached_kernels_for serial conformances
  unfold keepKernels
  cases lookup : world.cachedKernels? version conformances with
  | some kept =>
      obtain ⟨otherKept, otherLookup, sameKept⟩ := some_of_map_eq cached lookup
      rw [otherLookup]
      exact ⟨sameKept, twin⟩
  | none =>
      rw [none_of_map_eq cached lookup]
      refine ⟨same, { twin with kernels := ?_ }⟩
      simp only [List.map_append, twin.kernels, List.map_cons, List.map_nil,
        CachedKernels.unnumbered, serial, same]

end World.Twin

namespace World

/-- The version has a handle for every entry point of the program that it belongs to. -/
def Fits (world : World B) (version : Version B) : Prop :=
  ∀ owner, world.owner? version = some owner → ∀ group ∈ owner.desc.groups,
    ∀ entry ∈ group.entryPoints,
      ProgramDesc.IndexedBelow version.linkInput.entryPoints.length entry

namespace Twin

variable {close : B.State → B.State → Prop} {world other : World B}
  (twin : Twin close world other) (respects : B.Respects close) {version another : Version B}
  (same : another.unnumbered = version.unnumbered)

include twin respects same

theorem link (manager : Nat) (found : Program B) (state : ProgramState B)
    (indexed : ∀ group ∈ found.desc.groups, ∀ entry ∈ group.entryPoints,
      ProgramDesc.IndexedBelow version.linkInput.entryPoints.length entry)
    (conformances : ConformanceList) (log : String) :
    Parallel close (Logged.map Kernels.unnumbered)
      (world.link manager found conformances version log)
      (other.link manager { found with state := state } conformances another log) := by
  unfold World.link
  cases lookup : world.managers[manager]? with
  | none =>
      rw [twin.unmanaged lookup]
      exact .none
  | some managedBy =>
      obtain ⟨service, otherLookup, states⟩ := twin.managed lookup
      rw [otherLookup]
      simp only [Option.bind_eq_bind, Option.bind_some, linkIn,
        Version.link_input_renumbered same]
      have ⟨logs, after, agree⟩ := LinkedKernels.alike_job respects conformances another.id
        indexed ⟨managedBy.service, log, world.versionIds⟩ ⟨service, log, other.versionIds⟩ rfl
        states
      have absorbed := twin.absorb manager after
      cases reached : (LinkedKernels.job found.desc conformances version.linkInput).run
          ⟨managedBy.service, log, world.versionIds⟩ with
      | mk outcome work =>
          cases otherReached : (LinkedKernels.job found.desc conformances
              (version.linkInput.renumbered another.id)).run
              ⟨service, log, other.versionIds⟩ with
          | mk otherOutcome otherWork =>
              simp only [reached, otherReached] at logs agree absorbed ⊢
              rw [logs]
              cases agree with
              | error failure => exact .some rfl absorbed
              | ok values =>
                  have ⟨kernels, recorded⟩ := absorbed.record_kernels manager values.symm
                  apply Parallel.some _ recorded
                  simp only [Logged.map, Except.map, kernels]

theorem link_keeping (found : Program B) (state : ProgramState B)
    (indexed : ∀ group ∈ found.desc.groups, ∀ entry ∈ group.entryPoints,
      ProgramDesc.IndexedBelow version.linkInput.entryPoints.length entry)
    (conformances : ConformanceList) :
    Parallel close (Except.map Kernels.unnumbered)
      (world.linkKeeping found conformances version)
      (other.linkKeeping { found with state := state } conformances another) := by
  unfold linkKeeping
  apply (twin.link respects same found.manager found state indexed conformances "").bind
  intro logged otherLogged done otherDone _ sameLogged linked
  obtain ⟨log, outcome⟩ := logged
  obtain ⟨otherLog, otherOutcome⟩ := otherLogged
  obtain ⟨logs, outcomes⟩ := Logged.mk.inj sameLogged
  have serial : another.serial = version.serial := (Version.mk.inj same).1
  cases agree_of_map_eq outcomes with
  | error error => exact .some rfl linked
  | ok kernels =>
      have warned := linked.emit_if (!Text.allBlank log) (!Text.allBlank otherLog)
        (.kernelsWarnings version.name log) (.kernelsWarnings another.name otherLog)
      have ⟨kept, keeping⟩ := warned.keep_kernels serial conformances kernels
      exact .some (congrArg Except.ok kept) keeping

theorem kernels_of (fits : world.Fits version) :
    Parallel close (Except.map Kernels.unnumbered) (world.kernelsOf version)
      (other.kernelsOf another) := by
  have owners := twin.owner same
  unfold kernelsOf
  cases owned : world.owner? version with
  | none =>
      rw [none_of_map_eq owners owned]
      exact .some rfl twin
  | some found =>
      obtain ⟨state, otherOwned, states⟩ := Program.of_unnumbered owners owned
      have conformances : state.conformances = found.state.conformances :=
        congrArg ProgramKey.conformances (ProgramState.key_of_unnumbered states)
      have serial : another.serial = version.serial := (Version.mk.inj same).1
      have cached := twin.cached_kernels_for serial found.state.conformances
      simp only [otherOwned, conformances]
      cases lookup : world.cachedKernels? version found.state.conformances with
      | some kernels =>
          obtain ⟨otherKernels, otherLookup, sameKernels⟩ := some_of_map_eq cached lookup
          simp only [otherLookup]
          exact .some (congrArg Except.ok sameKernels) (twin.reported _ _ _ _)
      | none =>
          simp only [none_of_map_eq cached lookup]
          exact twin.link_keeping respects same found state (fits found owned) _

theorem create_kernels (fits : world.Fits version) (manager program : Nat) (log : String) :
    Parallel close (Logged.map Kernels.unnumbered)
      (world.createKernels manager program version log)
      (other.createKernels manager program another log) := by
  have owners := twin.owner same
  obtain ⟨serial, programs, _⟩ := Version.mk.inj same
  unfold createKernels
  cases present : world.program? program with
  | none =>
      rw [twin.absent present]
      exact .none
  | some found =>
      obtain ⟨_, otherPresent, _⟩ := twin.present present
      simp only [otherPresent, Option.bind_eq_bind, Option.bind_some]
      cases owned : world.owner? version with
      | none =>
          rw [none_of_map_eq owners owned]
          exact .some rfl twin
      | some found =>
          obtain ⟨state, otherOwned, states⟩ := Program.of_unnumbered owners owned
          have conformances : state.conformances = found.state.conformances :=
            congrArg ProgramKey.conformances (ProgramState.key_of_unnumbered states)
          simp only [otherOwned, conformances, programs]
          split
          next => exact twin.link respects same manager found state (fits found owned) _ log
          next => exact .some rfl twin

end Twin

end World

end ShaderCache
