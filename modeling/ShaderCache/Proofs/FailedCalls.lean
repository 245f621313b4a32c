import ShaderCache.Proofs.Renumbering
import ShaderCache.Proofs.WorldEffects

/-!
# Failed calls

A call that fails leaves the world as it was, up to the state of the backend, the identifiers that
it used up and what it reported. What the backend remembers of it is its own affair: a relation
says which of its states are close.
-/

set_option autoImplicit false

namespace ShaderCache

variable {B : Backend}

/-- Compilations and links that fail lead to states that are close to the ones before. -/
structure Backend.Forgets (B : Backend) (close : B.State → B.State → Prop) : Prop where
  refl : ∀ state, close state state
  compiling : ∀ desc request work failure after,
    (CompiledVersion.job desc request).run work = (.error failure, after) →
      close work.service after.service
  linking : ∀ desc conformances input work failure after,
    (LinkedKernels.job desc conformances input).run work = (.error failure, after) →
      close work.service after.service

/-- The answers of the backend do not depend on calls that failed earlier: some states cannot be
told apart, and a failure leads from each state to such a one. -/
def Backend.ForgetsFailures (B : Backend) : Prop :=
  ∃ close, Equivalence close ∧ B.Respects close ∧ B.Forgets close

theorem Backend.forgets_everything (B : Backend) : B.Forgets fun _ _ => True :=
  ⟨fun _ => trivial, fun _ _ _ _ _ _ => trivial, fun _ _ _ _ _ _ _ => trivial⟩

theorem Backend.Steady.forgets_failures (steady : B.Steady) : B.ForgetsFailures :=
  ⟨fun _ _ => True, ⟨fun _ => trivial, fun _ => trivial, fun _ _ => trivial⟩, steady.respects,
    B.forgets_everything⟩

/-- Managers that differ in nothing but the states of their backends, which are close. -/
structure Manager.Close (close : B.State → B.State → Prop) (manager other : Manager B) :
    Prop where
  same : other = { manager with service := other.service }
  service : close manager.service other.service

namespace World

/-- Nothing but states of backends, which are close, identifiers of versions and reports is
different. -/
structure Unmoved (close : B.State → B.State → Prop) (before after : World B) : Prop where
  files : after.files = before.files
  managers : ∀ manager : Nat,
    Option.Rel (Manager.Close close) before.managers[manager]? after.managers[manager]?
  programs : after.programs = before.programs
  kernels : after.kernels = before.kernels
  orphans : after.orphans = before.orphans
  programIds : after.programIds = before.programIds
  programCount : after.programCount = before.programCount
  versionCount : after.versionCount = before.versionCount
  kernelsCount : after.kernelsCount = before.kernelsCount

/-- Reports and identifiers do not count. -/
theorem Unmoved.reported {close : B.State → B.State → Prop} {before after : World B}
    (unmoved : Unmoved close before after) (events : List Event) (ids : IdSequence) :
    Unmoved close before { after with events := events, versionIds := ids } :=
  ⟨unmoved.files, unmoved.managers, unmoved.programs, unmoved.kernels, unmoved.orphans,
    unmoved.programIds, unmoved.programCount, unmoved.versionCount, unmoved.kernelsCount⟩

section Failures

variable {close : B.State → B.State → Prop} (forgets : B.Forgets close)

include forgets

theorem close_refl (manager : Option (Manager B)) :
    Option.Rel (Manager.Close close) manager manager := by
  cases manager with
  | none => exact .none
  | some found => exact .some ⟨rfl, forgets.refl found.service⟩

theorem unmoved_refl (world : World B) : Unmoved close world world :=
  ⟨rfl, fun _ => close_refl forgets _, rfl, rfl, rfl, rfl, rfl, rfl, rfl⟩

theorem unmoved_absorb {world : World B} {manager : Nat} {found : Manager B}
    {work : Work B.State} (managed : world.managers[manager]? = some found)
    (states : close found.service work.service) :
    Unmoved close world (world.absorb manager work) := by
  refine ⟨rfl, ?_, rfl, rfl, rfl, rfl, rfl, rfl, rfl⟩
  intro other
  simp only [absorb, modifyManager, List.getElem?_modify]
  by_cases here : manager = other
  · subst here
    simp only [managed, ↓reduceIte]
    exact .some ⟨rfl, states⟩
  · simpa [here] using close_refl forgets (world.managers[other]?)

theorem link_in_failed {world done : World B} {manager : Nat} {found : Manager B}
    {program : Program B} {conformances : ConformanceList} {version : Version B}
    {log noted : String} {error : ProgramError}
    (managed : world.managers[manager]? = some found)
    (failed : world.linkIn found.service manager program conformances version log =
      (⟨noted, .error error⟩, done)) : Unmoved close world done := by
  unfold linkIn at failed
  cases reached : (LinkedKernels.job program.desc conformances version.linkInput).run
      ⟨found.service, log, world.versionIds⟩ with
  | mk outcome after =>
      simp only [reached] at failed
      cases outcome with
      | error failure =>
          cases failed
          exact unmoved_absorb forgets managed (forgets.linking _ _ _ _ _ _ reached)
      | ok linked => simp at failed

theorem compile_in_failed {world done : World B} {context : CompileContext} {manager serial : Nat}
    {found : Manager B} {program : Program B} {defines : DefineList} {log noted : String}
    {error : ProgramError} (managed : world.managers[manager]? = some found)
    (failed : world.compileIn context found.service manager serial program defines log =
      (⟨noted, .error error⟩, done)) : Unmoved close world done := by
  unfold compileIn at failed
  cases requested : context.request program.desc defines with
  | error cause =>
      simp only [requested] at failed
      cases failed
      exact (unmoved_refl forgets world).reported _ world.versionIds
  | ok request =>
      cases reached : (CompiledVersion.job program.desc request).run
          ⟨found.service, log, world.versionIds⟩ with
      | mk outcome after =>
          simp only [requested, reached] at failed
          cases outcome with
          | error failure =>
              cases failure
              cases failed
              exact (unmoved_absorb forgets managed
                (forgets.compiling _ _ _ _ _ reached)).reported _ after.versionIds
          | ok compiled => simp at failed

/-- A call for the active version that fails leaves everything as it was. -/
theorem active_version_failed {world next : World B} {program : Nat} {error : ProgramError}
    (failed : world.activeVersion program = some (.error error, next)) :
    Unmoved close world next := by
  simp only [activeVersion, Option.bind_eq_bind] at failed
  obtain ⟨found, present, failed⟩ := Option.bind_eq_some_iff.mp failed
  -- A version that is current or cached is answered, so the program was compiled.
  split at failed
  next => simp at failed
  next =>
    split at failed
    next => simp at failed
    next =>
      obtain ⟨settings, configured, failed⟩ := Option.bind_eq_some_iff.mp failed
      simp only [compileActive, compileUnder, Option.bind_eq_bind] at failed
      obtain ⟨⟨⟨log, outcome⟩, done⟩, compiled, failed⟩ := Option.bind_eq_some_iff.mp failed
      obtain ⟨manager, managed, compiled⟩ := Option.bind_eq_some_iff.mp compiled
      cases outcome with
      | ok version => simp at failed
      | error cause =>
          cases failed
          exact (compile_in_failed forgets managed (Option.some.inj compiled)).reported _
            done.versionIds

/-- A call for kernels that fails leaves everything as it was. -/
theorem kernels_of_failed {world next : World B} {version : Version B} {error : ProgramError}
    (failed : world.kernelsOf version = some (.error error, next)) :
    Unmoved close world next := by
  unfold kernelsOf at failed
  split at failed
  next =>
    cases failed
    exact unmoved_refl forgets world
  next owner owned =>
    simp only at failed
    split at failed
    next => simp at failed
    next =>
      simp only [linkKeeping, link, Option.bind_eq_bind] at failed
      obtain ⟨⟨⟨log, outcome⟩, done⟩, linked, failed⟩ := Option.bind_eq_some_iff.mp failed
      obtain ⟨manager, managed, linked⟩ := Option.bind_eq_some_iff.mp linked
      cases outcome with
      | ok kernels => simp at failed
      | error cause =>
          cases failed
          exact link_in_failed forgets managed (Option.some.inj linked)

end Failures

end World

end ShaderCache
