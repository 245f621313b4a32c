import ShaderCache.Proofs.KeptKernels

/-!
# Calls for kernels in steps

A call for kernels holds no lock as a whole. It resolves the active version of a program, reads
the conformances of the owner, looks for kept kernels, links, and keeps what it linked unless
somebody was faster. Between any two of these steps, other calls take theirs and other threads
make requests.
-/

set_option autoImplicit false

namespace ShaderCache

variable {B : Backend}

/-- How far a call has come. -/
inductive KernelCall (B : Backend) where
  | asked (program : Nat)
  | resolved (version : Version B)
  /-- The owner is as it was when its conformances were read. -/
  | configured (version : Version B) (owner : Program B)
  | missed (version : Version B) (owner : Program B)
  | linked (version : Version B) (owner : Program B) (kernels : Kernels B)
  | answered (version : Version B) (conformances : ConformanceList) (kernels : Kernels B)
  | failed (error : ProgramError)

namespace KernelCall

/-- The next step of a call. One that has ended stays as it is. -/
def advance (archive : Archive B) : KernelCall B → Archive B × KernelCall B
  | .asked program =>
      match archive.world.activeVersion program with
      | some (.ok version, _) =>
          (archive.after (.operate (.activeVersion program)), .resolved version)
      | some (.error error, _) =>
          (archive.after (.operate (.activeVersion program)), .failed error)
      | none => (archive, .asked program)
  | .resolved version =>
      match archive.world.owner? version with
      | some owner => (archive, .configured version owner)
      | none => (archive, .failed .orphaned)
  | .configured version owner =>
      let conformances := owner.state.conformances
      match archive.world.cachedKernels? version conformances with
      | some kernels =>
          ({ archive with world :=
              archive.world.emit (.kernelsReused version.id conformances) },
            .answered version conformances kernels)
      | none => (archive, .missed version owner)
  | .missed version owner =>
      match archive.world.link owner.manager owner owner.state.conformances version "" with
      | some (⟨log, .ok kernels⟩, next) =>
          let warned := next.emitIf (!Text.allBlank log) (.kernelsWarnings version.name log)
          ({ archive with world := warned }, .linked version owner kernels)
      | some (⟨_, .error error⟩, next) => ({ archive with world := next }, .failed error)
      | none => (archive, .missed version owner)
  | .linked version owner kernels =>
      let conformances := owner.state.conformances
      let (kept, next) := archive.world.keepKernels version conformances kernels
      ({ archive with world := next }, .answered version conformances kept)
  | .answered version conformances kernels => (archive, .answered version conformances kernels)
  | .failed error => (archive, .failed error)

def answer? : KernelCall B → Option (Version B × ConformanceList × Kernels B)
  | .answered version conformances kernels => some (version, conformances, kernels)
  | _ => none

theorem answered_of_answer {calls : Option (KernelCall B)} {version : Version B}
    {conformances : ConformanceList} {kernels : Kernels B}
    (answer : calls.bind answer? = some (version, conformances, kernels)) :
    calls = some (.answered version conformances kernels) := by
  obtain ⟨call, rfl, found⟩ := Option.bind_eq_some_iff.mp answer
  cases call with
  | answered => cases found; rfl
  | _ => simp [answer?] at found

def outcome? : KernelCall B → Option (Except ProgramError (Kernels B))
  | .answered _ _ kernels => some (.ok kernels)
  | .failed error => some (.error error)
  | _ => none

end KernelCall

/-- What happens next: a thread makes a request as a whole or starts a call in steps, or one of
these calls goes on. -/
inductive Action where
  | request (request : Request)
  | askActive (program : Nat)
  | ask (version : Nat)
  | proceed (call : Nat)

/-- An archive with the calls that were started, by number. -/
structure Shared (B : Backend) where
  archive : Archive B
  calls : List (KernelCall B) := []

namespace Shared

def opening (files : FileTree) (managers : List (Manager B)) : Shared B :=
  { archive := .opening files managers }

def step (shared : Shared B) : Action → Shared B
  | .request request => { shared with archive := shared.archive.after request }
  | .askActive program => { shared with calls := shared.calls ++ [.asked program] }
  | .ask serial =>
      { shared with calls := shared.calls ++
          (shared.archive.versions[serial]?.map KernelCall.resolved).toList }
  | .proceed number =>
      match shared.calls[number]? with
      | some call =>
          let (archive, next) := call.advance shared.archive
          ⟨archive, shared.calls.set number next⟩
      | none => shared

def run (shared : Shared B) : List Action → Shared B
  | [] => shared
  | action :: rest => (shared.step action).run rest

theorem run_append (shared : Shared B) (actions more : List Action) :
    shared.run (actions ++ more) = (shared.run actions).run more := by
  induction actions generalizing shared with
  | nil => rfl
  | cons action rest ih => exact ih (shared.step action)

end Shared

/-! ## Calls without interruption -/

namespace KernelCall

/-- Some steps of a call one after the other. -/
def proceed (archive : Archive B) (call : KernelCall B) : Nat → Archive B × KernelCall B
  | 0 => (archive, call)
  | steps + 1 =>
      let (next, later) := call.advance archive
      later.proceed next steps

/-- The steps of a call that is not interrupted make up the call as a whole. -/
theorem proceed_kernels_of {archive : Archive B} {version : Version B}
    {outcome : Except ProgramError (Kernels B)} {next : World B}
    (answered : archive.world.kernelsOf version = some (outcome, next)) :
    ∃ ended, (KernelCall.resolved version).proceed archive 4 = (⟨next, archive.versions⟩, ended) ∧
      ended.outcome? = some outcome := by
  cases owned : archive.world.owner? version with
  | none =>
      simp only [World.kernelsOf, owned, Option.some.injEq, Prod.mk.injEq] at answered
      obtain ⟨rfl, rfl⟩ := answered
      refine ⟨.failed .orphaned, ?_, rfl⟩
      simp only [proceed, advance, owned]
  | some owner =>
      cases cached : archive.world.cachedKernels? version owner.state.conformances with
      | some kernels =>
          simp only [World.kernelsOf, owned, cached, Option.some.injEq, Prod.mk.injEq] at answered
          obtain ⟨rfl, rfl⟩ := answered
          refine ⟨.answered version owner.state.conformances kernels, ?_, rfl⟩
          simp only [proceed, advance, owned, cached]
      | none =>
          simp only [World.kernelsOf, owned, cached, World.linkKeeping,
            Option.bind_eq_bind] at answered
          obtain ⟨⟨⟨log, linked⟩, done⟩, linkEq, answered⟩ := Option.bind_eq_some_iff.mp answered
          cases linked with
          | error error =>
              cases answered
              refine ⟨.failed error, ?_, rfl⟩
              simp only [proceed, advance, owned, cached, linkEq]
          | ok kernels =>
              cases answered
              refine ⟨.answered version owner.state.conformances _, ?_, rfl⟩
              simp only [proceed, advance, owned, cached, linkEq]

theorem proceed_active_kernels {archive : Archive B} {program : Nat}
    {outcome : Except ProgramError (Kernels B)} {next : World B}
    (answered : archive.world.activeKernels program = some (outcome, next)) :
    ∃ ended, (KernelCall.asked program).proceed archive 5 =
        (archive.after (.operate (.activeKernels program)), ended) ∧
      ended.outcome? = some outcome := by
  rw [Archive.after_active_kernels answered]
  simp only [World.activeKernels, Option.bind_eq_bind] at answered
  obtain ⟨⟨resolution, between⟩, resolved, answered⟩ := Option.bind_eq_some_iff.mp answered
  have between_eq := Archive.after_active_version resolved
  cases resolution with
  | error error =>
      cases answered
      refine ⟨.failed error, ?_, rfl⟩
      simp only [proceed, advance, resolved, between_eq]
  | ok version =>
      let later : Archive B :=
        ⟨between, archive.versions ++ (archive.world.activeMade? program).toList⟩
      have supplied : later.world.kernelsOf version = some (outcome, next) := answered
      obtain ⟨ended, proceeds, outcomeEq⟩ := proceed_kernels_of supplied
      have first : (KernelCall.asked program).advance archive = (later, .resolved version) := by
        simp only [advance, resolved, between_eq, later]
      refine ⟨ended, ?_, outcomeEq⟩
      calc (KernelCall.asked program).proceed archive 5
        _ = ((KernelCall.asked program).advance archive).2.proceed
              ((KernelCall.asked program).advance archive).1 4 := rfl
        _ = (KernelCall.resolved version).proceed later 4 := by rw [first]
        _ = (⟨next, later.versions⟩, ended) := proceeds

end KernelCall

/-! ## The invariant -/

/-- What is kept first is what is found. -/
theorem World.cached_of_keep {world : World B} {version : Version B}
    {conformances : ConformanceList}
    (missing : world.cachedKernels? version conformances = none) (kernels : Kernels B) :
    ({ world with kernels := world.kernels ++ [⟨version.serial, conformances, kernels⟩] } :
      World B).cachedKernels? version conformances = some kernels := by
  rw [cachedKernels?, cachedKernels, Option.map_eq_none_iff] at missing
  simp [cachedKernels?, cachedKernels, List.find?_append, missing]

namespace Archive

open World (Linked Quiet)

variable {archive : Archive B}

/-- A sound archive goes on to be sound, and nothing that was made is lost. -/
structure Grows (before after : Archive B) : Prop where
  sound : after.Sound
  kept : after.Kept
  follows : Follows before after

theorem Grows.refl (sound : archive.Sound) (kept : archive.Kept) : Grows archive archive :=
  ⟨sound, kept, Follows.refl archive⟩

theorem Sound.grows (sound : archive.Sound) (kept : archive.Kept) {made : Option (Version B)}
    {next : World B} {label : Option (Nat × ConformanceList)} (soundNext : next.Sound)
    (advances : Advances archive made next) (collects : Collects archive made next label) :
    Grows archive ⟨next, archive.versions ++ made.toList⟩ :=
  ⟨sound.advanced soundNext advances, kept.collected sound advances collects,
    sound.follows advances collects⟩

theorem Sound.grows_after (sound : archive.Sound) (kept : archive.Kept) (request : Request) :
    Grows archive (archive.after request) :=
  sound.grows kept (sound.served request) (sound.advances request) (sound.collects request)

theorem Sound.grows_quiet (sound : archive.Sound) (kept : archive.Kept) {next : World B}
    (quiet : Quiet archive.world next) : Grows archive ⟨next, archive.versions⟩ := by
  have grows := sound.grows kept (sound.world.quiet quiet) (.quiet quiet) (.unmade quiet.kernels)
  simpa using grows

/-- Kernels of a version come in under conformances that it has none for. -/
theorem Sound.grows_keeping (sound : archive.Sound) (kept : archive.Kept) {version : Version B}
    {desc : ProgramDesc} {description : String} {entry : CachedKernels B}
    (held : version ∈ archive.versions)
    (described : Described archive.world version desc description)
    (missing : archive.world.cachedKernels? version entry.conformances = none)
    (linked : Linked desc description version entry) :
    Grows archive
      ⟨{ archive.world with kernels := archive.world.kernels ++ [entry] }, archive.versions⟩ := by
  have below : entry.version < archive.world.versionCount := by
    rw [linked.serial]
    exact sound.below held
  have advances : Advances archive none
      { archive.world with kernels := archive.world.kernels ++ [entry] } :=
    ⟨rfl, Nat.le_refl _, fun _ later present => .remaining present (remains_refl none later),
      fun _ => .inl, fun _ none => nomatch none⟩
  have grows := sound.grows kept (sound.world.keep below) advances
    (.linked (by simpa using held) described missing linked rfl)
  simpa using grows

end Archive

namespace KernelCall

open Archive (Described Follows Grows)
open World (Linked)

/-- What is known of a call that has come so far. -/
def Valid (archive : Archive B) : KernelCall B → Prop
  | .asked _ => True
  | .resolved version => version ∈ archive.versions
  | .configured version owner | .missed version owner =>
      version ∈ archive.versions ∧
        Described archive.world version owner.desc owner.description
  | .linked version owner kernels =>
      version ∈ archive.versions ∧
        Described archive.world version owner.desc owner.description ∧
        Linked owner.desc owner.description version
          ⟨version.serial, owner.state.conformances, kernels⟩
  | .answered version conformances kernels =>
      version ∈ archive.versions ∧
        archive.world.cachedKernels? version conformances = some kernels
  | .failed _ => True

/-- What a step of a call comes to: the archive is in order, and so is the call. -/
structure Advanced (archive : Archive B) (result : Archive B × KernelCall B) : Prop where
  grows : Grows archive result.1
  valid : result.2.Valid result.1

/-- What is known of a call stays true while others go on. -/
theorem Valid.followed {archive later : Archive B} {call : KernelCall B}
    (valid : call.Valid archive)
    (follows : Follows archive later) : call.Valid later := by
  cases call with
  | asked program => trivial
  | resolved version => exact follows.versions version valid
  | configured version owner | missed version owner =>
      exact ⟨follows.versions version valid.1, follows.described version valid.1 _ _ valid.2⟩
  | linked version owner kernels =>
      exact ⟨follows.versions version valid.1, follows.described version valid.1 _ _ valid.2.1,
        valid.2.2⟩
  | answered version conformances kernels =>
      exact ⟨follows.versions version valid.1, follows.cached valid.2⟩
  | failed error => trivial

/-- What a call answers with is kept, and was linked for the conformances that the call has
read. -/
theorem Valid.genuine {archive : Archive B} {version : Version B}
    {conformances : ConformanceList} {kernels : Kernels B}
    (valid : (KernelCall.answered version conformances kernels).Valid archive)
    (sound : archive.Sound) (kept : archive.Kept) :
    Archive.Genuine archive ⟨version.serial, conformances, kernels⟩ version := by
  obtain ⟨held, cached⟩ := valid
  obtain ⟨entry, present, serial, rfl, rfl⟩ := World.mem_of_cached cached
  rw [← serial]
  exact kept.found sound present held serial

theorem Valid.resolve {archive : Archive B} (sound : archive.Sound) (kept : archive.Kept)
    (program : Nat) : Advanced archive ((KernelCall.asked program).advance archive) := by
  have grows := sound.grows_after kept (.operate (.activeVersion program))
  simp only [KernelCall.advance]
  split
  next version next answered =>
    exact ⟨grows, (sound.resolved_version answered).held⟩
  next => exact ⟨grows, trivial⟩
  next => exact ⟨Grows.refl sound kept, trivial⟩

theorem Valid.read {archive : Archive B} (sound : archive.Sound) (kept : archive.Kept)
    {version : Version B} (valid : (KernelCall.resolved version).Valid archive) :
    Advanced archive ((KernelCall.resolved version).advance archive) := by
  simp only [KernelCall.advance]
  split
  next owner owned =>
    exact ⟨Grows.refl sound kept, valid,
      Archive.described_of_present (World.program_of_owner owned)⟩
  next => exact ⟨Grows.refl sound kept, trivial⟩

theorem Valid.look {archive : Archive B} (sound : archive.Sound) (kept : archive.Kept)
    {version : Version B} {owner : Program B}
    (valid : (KernelCall.configured version owner).Valid archive) :
    Advanced archive ((KernelCall.configured version owner).advance archive) := by
  simp only [KernelCall.advance]
  split
  next kernels cached =>
    exact ⟨sound.grows_quiet kept (World.quiet_emit _ _), valid.1, cached⟩
  next => exact ⟨Grows.refl sound kept, valid⟩

theorem Valid.link {archive : Archive B} (sound : archive.Sound) (kept : archive.Kept)
    {version : Version B} {owner : Program B}
    (valid : (KernelCall.missed version owner).Valid archive) :
    Advanced archive ((KernelCall.missed version owner).advance archive) := by
  cases managed : archive.world.managers[owner.manager]? with
  | none =>
      simp only [KernelCall.advance, World.link, managed, Option.bind_eq_bind, Option.bind_none]
      exact ⟨Grows.refl sound kept, valid⟩
  | some manager =>
      have links := archive.world.link_in_links owner owner.state.conformances version "" managed
      simp only [KernelCall.advance, World.link, managed, Option.bind_eq_bind, Option.bind_some]
      cases reached : archive.world.linkIn manager.service owner.manager owner
          owner.state.conformances version "" with
      | mk logged next =>
          obtain ⟨log, outcome⟩ := logged
          rw [reached] at links
          cases links with
          | failed managed fails quiet ids => exact ⟨sound.grows_quiet kept quiet, trivial⟩
          | @made _ linked _ managed makes quiet ids =>
              have warned := quiet.trans (World.quiet_emit_if next (!Text.allBlank log)
                (.kernelsWarnings version.name log))
              have grows := sound.grows_quiet kept warned
              exact ⟨grows, grows.follows.versions version valid.1,
                grows.follows.described version valid.1 _ _ valid.2, rfl, _, rfl, makes⟩

/-- Whoever keeps kernels first decides what everybody gets. -/
theorem Valid.keep {archive : Archive B} (sound : archive.Sound) (kept : archive.Kept)
    {version : Version B} {owner : Program B} {kernels : Kernels B}
    (valid : (KernelCall.linked version owner kernels).Valid archive) :
    Advanced archive ((KernelCall.linked version owner kernels).advance archive) := by
  obtain ⟨held, described, linked⟩ := valid
  simp only [KernelCall.advance, World.keepKernels]
  split
  next earlier cached => exact ⟨Grows.refl sound kept, held, cached⟩
  next missing =>
    have grows := sound.grows_keeping kept held described missing linked
    exact ⟨grows, held, World.cached_of_keep missing kernels⟩

/-- The step of a call keeps the archive in order, and leads to where the call knows what it has
to know. -/
theorem Valid.advance {archive : Archive B} {call : KernelCall B} (valid : call.Valid archive)
    (sound : archive.Sound) (kept : archive.Kept) : Advanced archive (call.advance archive) := by
  cases call with
  | asked program => exact Valid.resolve sound kept program
  | resolved version => exact valid.read sound kept
  | configured version owner => exact valid.look sound kept
  | missed version owner => exact valid.link sound kept
  | linked version owner kernels => exact valid.keep sound kept
  | answered version conformances kernels => exact ⟨Grows.refl sound kept, valid⟩
  | failed error => exact ⟨Grows.refl sound kept, trivial⟩

end KernelCall

namespace Shared

open Archive (Grows)

/-- The archive is in order, and so is every call. -/
structure Valid (shared : Shared B) : Prop where
  sound : shared.archive.Sound
  kept : shared.archive.Kept
  calls : ∀ call ∈ shared.calls, call.Valid shared.archive

variable {shared : Shared B}

/-- One action keeps everything in order, and loses nothing that was made. -/
theorem Valid.step (valid : shared.Valid) (action : Action) :
    (shared.step action).Valid ∧ Grows shared.archive (shared.step action).archive := by
  have idle := Grows.refl valid.sound valid.kept
  cases action with
  | request request =>
      have grows := valid.sound.grows_after valid.kept request
      refine ⟨⟨grows.sound, grows.kept, ?_⟩, grows⟩
      intro call isCall
      exact (valid.calls call isCall).followed grows.follows
  | askActive program =>
      refine ⟨⟨valid.sound, valid.kept, ?_⟩, idle⟩
      intro call isCall
      rcases List.mem_append.mp isCall with earlier | last
      · exact valid.calls call earlier
      · cases List.mem_singleton.mp last
        trivial
  | ask serial =>
      refine ⟨⟨valid.sound, valid.kept, ?_⟩, idle⟩
      intro call isCall
      rcases List.mem_append.mp isCall with earlier | last
      · exact valid.calls call earlier
      · obtain ⟨version, lookup, rfl⟩ := Option.map_eq_some_iff.mp (Option.mem_toList.mp last)
        exact List.mem_of_getElem? lookup
  | proceed number =>
      cases started : shared.calls[number]? with
      | none =>
          simp only [Shared.step, started]
          exact ⟨valid, idle⟩
      | some call =>
          have isCall := List.mem_of_getElem? started
          have advanced := (valid.calls call isCall).advance valid.sound valid.kept
          simp only [Shared.step, started]
          refine ⟨⟨advanced.grows.sound, advanced.grows.kept, ?_⟩, advanced.grows⟩
          intro other isOther
          rcases List.mem_or_eq_of_mem_set isOther with earlier | rfl
          · exact (valid.calls other earlier).followed advanced.grows.follows
          · exact advanced.valid

/-- By induction on the actions: so does a run. -/
theorem Valid.run {shared : Shared B} (valid : shared.Valid) (actions : List Action) :
    (shared.run actions).Valid ∧ Grows shared.archive (shared.run actions).archive := by
  induction actions generalizing shared with
  | nil => exact ⟨valid, Grows.refl valid.sound valid.kept⟩
  | cons action rest ih =>
      obtain ⟨validNext, first⟩ := valid.step action
      obtain ⟨validLater, later⟩ := ih validNext
      exact ⟨validLater, later.sound, later.kept, first.follows.trans later.follows⟩

theorem valid_opening (files : FileTree) (managers : List (Manager B)) :
    (opening files managers).Valid where
  sound := Archive.sound_opening files managers
  kept := Archive.kept_opening files managers
  calls call isCall := by simp [opening] at isCall

end Shared

end ShaderCache
