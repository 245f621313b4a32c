import ShaderCache.Proofs.KernelCalls

/-!
# Concurrent calls for kernels

However calls for kernels are interleaved with each other and with requests that change the
configuration, those that have read the same conformances come to the same object.
-/

set_option autoImplicit false

namespace ShaderCache

variable {B : Backend}

namespace Shared

open Archive (Described)

/-- In every state that an interleaving reaches, for a call for the kernels of a version that was
answered: the kernels were linked from that version for exactly the conformances that the call has
read. In every later state, all calls for that version that have read the same conformances and
were answered have got the same object, and a call that is not interrupted gets it too. -/
theorem concurrent_calls_agree (files : FileTree) (managers : List (Manager B))
    (actions more : List Action) {number : Nat} {version : Version B}
    {conformances : ConformanceList} {kernels : Kernels B}
    (answered : ((opening files managers).run actions).calls[number]? =
      some (.answered version conformances kernels)) :
    let later := ((opening files managers).run actions).run more
    kernels.linked.conformances = conformances ∧ kernels.linked.versionId = version.id ∧
    (∃ desc description, Described later.archive.world version desc description ∧
      ∃ work : Work B.State,
        linkOutcome desc description conformances version.linkInput work = .ok kernels.linked) ∧
    (∀ (other : Nat) (found : Kernels B),
      later.calls[other]? = some (.answered version conformances found) → found = kernels) ∧
    ∀ owner, later.archive.world.owner? version = some owner →
      owner.state.conformances = conformances →
        ∃ next, later.archive.world.kernelsOf version = some (.ok kernels, next) := by
  intro later
  obtain ⟨valid, _⟩ := (valid_opening files managers).run actions
  obtain ⟨validLater, grows⟩ := valid.run more
  have known := valid.calls _ (List.mem_of_getElem? answered)
  have knownLater := known.followed grows.follows
  have genuine := knownLater.genuine validLater.sound validLater.kept
  obtain ⟨desc, description, linked, described⟩ := genuine.linked
  obtain ⟨work, _, makes⟩ := linked.linked
  refine ⟨genuine.labels.2, genuine.labels.1, ⟨desc, description, described, work, makes⟩, ?_, ?_⟩
  · intro other found otherAnswered
    have otherKnown := validLater.calls _ (List.mem_of_getElem? otherAnswered)
    exact Option.some.inj (otherKnown.2.symm.trans knownLater.2)
  · intro owner owned configured
    have cached := knownLater.2
    rw [← configured] at cached
    refine ⟨later.archive.world.emit (.kernelsReused version.id owner.state.conformances), ?_⟩
    simp only [World.kernelsOf, owned]
    rw [cached]

/-- Two calls miss and link at the same time, while the conformances change; the one that links
last is the first to keep its kernels. -/
theorem concurrent_calls_agree_on_last :
    let actions : List Action := [.request (.operate (.newProgram 0 .oneKernel ∅)),
      .request (.operate (.activeVersion 0)), .ask 0, .ask 0, .proceed 0, .proceed 1,
      .proceed 0, .proceed 1,
      .request (.operate (.editProgram 0 (.addConformance "Lambert" "IMaterial" 1))),
      .proceed 0, .proceed 1, .proceed 1, .proceed 0]
    let shared := (opening {} [Manager.echo]).run actions
    ∃ version conformances kernels,
      shared.calls[0]? = some (.answered version conformances kernels) ∧
      shared.calls[1]? = some (.answered version conformances kernels) ∧
      kernels.serial = 1 ∧ kernels.linked.conformances = conformances := by
  intro actions shared
  have first : (shared.calls[0]?.bind KernelCall.answer?).map (fun answer =>
      (answer.1.serial, answer.2.1, answer.2.2.serial)) = some (0, ∅, 1) := by
    decide +kernel
  have second : (shared.calls[1]?.bind KernelCall.answer?).map (fun answer =>
      (answer.1.serial, answer.2.1)) = some (0, ∅) := by
    decide +kernel
  obtain ⟨valid, _⟩ := (valid_opening {} [Manager.echo]).run actions
  have agree : ∀ version conformances kernels,
      shared.calls[0]? = some (.answered version conformances kernels) →
        kernels.linked.conformances = conformances ∧ ∀ (other : Nat) (found : Kernels Backend.echo),
          shared.calls[other]? = some (.answered version conformances found) →
            found = kernels := by
    intro version conformances kernels answered
    have facts := concurrent_calls_agree {} [Manager.echo] actions [] answered
    simp only [Shared.run] at facts
    exact ⟨facts.1, facts.2.2.2.1⟩
  -- From here on, the state must not be evaluated any more.
  change shared.Valid at valid
  clear_value shared
  obtain ⟨⟨version, conformances, kernels⟩, answer, values⟩ := Option.map_eq_some_iff.mp first
  obtain ⟨⟨other, others, found⟩, otherAnswer, otherValues⟩ := Option.map_eq_some_iff.mp second
  have answered := KernelCall.answered_of_answer answer
  have otherAnswered := KernelCall.answered_of_answer otherAnswer
  obtain ⟨serial, none, last⟩ : version.serial = 0 ∧ conformances = ∅ ∧ kernels.serial = 1 := by
    simpa using values
  obtain ⟨otherSerial, otherNone⟩ : other.serial = 0 ∧ others = ∅ := by simpa using otherValues
  have known := valid.calls _ (List.mem_of_getElem? answered)
  have otherKnown := valid.calls _ (List.mem_of_getElem? otherAnswered)
  have sameVersion := valid.sound.unique otherKnown.1 known.1 (otherSerial.trans serial.symm)
  have sameConformances := otherNone.trans none.symm
  rw [sameVersion, sameConformances] at otherAnswered
  obtain ⟨labelled, unique⟩ := agree version conformances kernels answered
  rw [unique 1 found otherAnswered] at otherAnswered
  exact ⟨version, conformances, kernels, answered, otherAnswered, last, labelled⟩

end Shared

end ShaderCache
