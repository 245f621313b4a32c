import ShaderCache.Proofs.Echo
import ShaderCache.Proofs.KernelOrigins
import ShaderCache.Proofs.Reflections

/-!
# Identifiers of versions

Every version gets the identifier that was next when it was compiled, and a compilation that fails
late uses one up. So the identifiers of all versions that were ever made are among those drawn, in
the order of the versions, whichever programs and managers they belong to. A version hands its
identifier on to its reflection, to the kernels that are linked from it and to theirs.
-/

set_option autoImplicit false

namespace ShaderCache

variable {B : Backend}

/-! ## Sequences -/

namespace IdSequence

inductive Call where
  | draw
  | peek
  deriving DecidableEq

def answer (ids : IdSequence) : Call → UInt64 × IdSequence
  | .draw => ids.draw
  | .peek => (ids.peek, ids)

def answers (ids : IdSequence) : List Call → List UInt64
  | [] => []
  | call :: rest => (ids.answer call).1 :: (ids.answer call).2.answers rest

/-- Drawing or peeking, a call gets the identifier after as many as were drawn before. -/
theorem answers_get (ids : IdSequence) (calls : List Call) (position : Nat) :
    (ids.answers calls)[position]? = calls[position]?.map fun _ =>
      ids.upcoming + UInt64.ofNat ((calls.take position).count .draw) := by
  induction calls generalizing ids position with
  | nil => rfl
  | cons call rest ih =>
      cases position with
      | zero => cases call <;> simp [answers, answer, draw, peek]
      | succ before =>
          rw [answers, List.getElem?_cons_succ, ih, List.getElem?_cons_succ, List.take_succ_cons]
          cases call with
          | peek => simp [answer]
          | draw =>
              have next : (ids.answer .draw).2.upcoming = ids.upcoming + 1 := rfl
              rw [next, List.count_cons_self, UInt64.ofNat_add, UInt64.add_assoc,
                UInt64.add_comm (UInt64.ofNat _)]
              rfl

theorem answers_to_nat {first : UInt64} {calls : List Call} {position : Nat}
    (inside : position < calls.length) :
    ((startingAt first).answers calls)[position]?.map UInt64.toNat =
      some ((first.toNat + (calls.take position).count .draw) % 2 ^ 64) := by
  rw [answers_get, List.getElem?_eq_getElem inside, Option.map_some, Option.map_some,
    UInt64.toNat_add, UInt64.toNat_ofNat', Nat.add_mod_mod]
  rfl

theorem count_take_lt {calls : List Call} {one other : Nat} (before : one < other)
    (draws : calls[one]? = some .draw) :
    (calls.take one).count .draw < (calls.take other).count .draw := by
  have upTo : (calls.take (one + 1)).count .draw = (calls.take one).count .draw + 1 := by
    rw [List.take_add_one, draws, Option.toList_some, List.count_append, List.count_singleton_self]
  have further : (calls.take (one + 1)).count .draw ≤ (calls.take other).count .draw :=
    (List.take_sublist_take_left before).count_le Call.draw
  omega

/-- Two draws with fewer than `2 ^ 64` from one to the other get different identifiers. -/
theorem draws_differ {first : UInt64} {calls : List Call} {one other : Nat} (before : one < other)
    (draws : calls[one]? = some .draw) (drawsAgain : calls[other]? = some .draw)
    (near : (calls.take other).count .draw < (calls.take one).count .draw + 2 ^ 64) :
    ((startingAt first).answers calls)[one]? ≠ ((startingAt first).answers calls)[other]? := by
  intro same
  have values := congrArg (Option.map UInt64.toNat) same
  obtain ⟨inside, _⟩ := List.getElem?_eq_some_iff.mp draws
  obtain ⟨otherInside, _⟩ := List.getElem?_eq_some_iff.mp drawsAgain
  rw [answers_to_nat inside, answers_to_nat otherInside, Option.some.injEq] at values
  have apart := count_take_lt before draws
  omega

theorem draw_many_eq (ids : IdSequence) (count : Nat) :
    (drawMany count ids).1 = (List.range count).map fun place =>
      ids.upcoming + UInt64.ofNat place := by
  have answered : (drawMany count ids).1 = ids.answers (List.replicate count .draw) := by
    induction count generalizing ids with
    | zero => rfl
    | succ count ih =>
        rw [List.replicate_succ, answers]
        exact congrArg _ (ih _)
  apply List.ext_getElem?
  intro place
  rw [answered, answers_get, List.getElem?_map]
  by_cases below : place < count
  · rw [List.getElem?_replicate_of_lt below, List.getElem?_range below, List.take_replicate,
      Nat.min_eq_left (Nat.le_of_lt below), List.count_replicate_self]
    rfl
  · have beyond := Nat.le_of_not_lt below
    rw [List.getElem?_eq_none (by rwa [List.length_replicate]),
      List.getElem?_eq_none (by rwa [List.length_range])]
    rfl

theorem draw_many_add (ids : IdSequence) (count more : Nat) :
    drawMany (count + more) ids =
      ((drawMany count ids).1 ++ (drawMany more (drawMany count ids).2).1,
        (drawMany more (drawMany count ids).2).2) := by
  induction count generalizing ids with
  | zero => simp [drawMany]
  | succ count ih =>
      rw [Nat.add_right_comm]
      simp only [drawMany, ih, List.cons_append]

/-- Identifiers that start at one increase, as long as the last one does not wrap around. -/
theorem draw_many_increasing {count : Nat} (few : count < 2 ^ 64) :
    (drawMany count initial).1.Pairwise (· < ·) ∧ ∀ id ∈ (drawMany count initial).1, 0 < id := by
  have value : ∀ place, place < count →
      (initial.upcoming + UInt64.ofNat place).toNat = place + 1 := by
    intro place below
    rw [UInt64.toNat_add, UInt64.toNat_ofNat', Nat.add_mod_mod]
    have start : initial.upcoming.toNat = 1 := rfl
    omega
  rw [draw_many_eq]
  constructor
  · apply List.pairwise_map.mpr
    apply List.pairwise_lt_range.imp_of_mem
    intro one other isOne isOther before
    rw [UInt64.lt_iff_toNat_lt, value one (List.mem_range.mp isOne),
      value other (List.mem_range.mp isOther)]
    omega
  · intro id drawn
    obtain ⟨place, below, rfl⟩ := List.mem_map.mp drawn
    rw [UInt64.lt_iff_toNat_lt, value place (List.mem_range.mp below)]
    exact Nat.succ_pos place

end IdSequence

/-! ## Requests -/

/-- The ways in which a request can use identifiers, with the version that it makes. -/
inductive Draws (ids : IdSequence) : Option (Version B) → IdSequence → Prop where
  | unused : Draws ids none ids
  /-- A compilation drew and failed then. -/
  | lost : Draws ids none ids.draw.2
  | given {version : Version B} (id : version.id = ids.upcoming) :
      Draws ids (some version) ids.draw.2

theorem draws_of_one {ids after : IdSequence} (one : ids.OneDraw after) :
    Draws (B := B) ids none after := by
  cases one with
  | inl kept =>
      rw [kept]
      exact .unused
  | inr drew =>
      rw [drew]
      exact .lost

theorem draws_of_kept {ids after : IdSequence} (kept : after = ids) :
    Draws (B := B) ids none after :=
  draws_of_one (.inl kept)

/-- The sequence goes on behind what was drawn, and the versions got some of that, in order. -/
structure Hands (count : Nat) (ids after : IdSequence) (made : List (Version B)) : Prop where
  after : after = (IdSequence.drawMany count ids).2
  given : (made.map Version.id).Sublist (IdSequence.drawMany count ids).1

theorem Hands.append {count more : Nat} {ids between after : IdSequence}
    {made others : List (Version B)} (hands : Hands count ids between made)
    (later : Hands more between after others) :
    Hands (count + more) ids after (made ++ others) := by
  have between_eq := hands.after
  constructor
  · rw [IdSequence.draw_many_add, ← between_eq]
    exact later.after
  · rw [IdSequence.draw_many_add, ← between_eq, List.map_append]
    exact hands.given.append later.given

theorem IdSequence.upcoming_drawn (ids : IdSequence) :
    (ids.draw.2.upcoming - ids.upcoming).toNat = 1 := by
  have upcoming : ids.draw.2.upcoming = 1 + ids.upcoming := UInt64.add_comm _ _
  rw [upcoming, UInt64.add_sub_cancel]
  rfl

theorem Draws.hands {ids next : IdSequence} {made : Option (Version B)}
    (draws : Draws ids made next) :
    Hands (next.upcoming - ids.upcoming).toNat ids next made.toList := by
  cases draws with
  | unused =>
      rw [UInt64.sub_self]
      exact ⟨rfl, List.Sublist.refl _⟩
  | lost =>
      rw [ids.upcoming_drawn]
      exact ⟨rfl, List.nil_sublist _⟩
  | given id =>
      rw [ids.upcoming_drawn]
      refine ⟨rfl, ?_⟩
      rw [Option.toList_some, List.map_singleton, id]
      exact List.Sublist.refl _

theorem Draws.at_most_once {ids next : IdSequence} {made : Option (Version B)}
    (draws : Draws ids made next) : (next.upcoming - ids.upcoming).toNat ≤ 1 := by
  cases draws with
  | unused =>
      rw [UInt64.sub_self]
      exact Nat.zero_le 1
  | lost | given => exact Nat.le_of_eq ids.upcoming_drawn

namespace World

variable {world next : World B}

theorem Compiles.draws {settings : Settings} {manager serial : Nat} {found : Program B}
    {defines : DefineList} {log : String} {outcome : Except ProgramError (Version B)}
    (compiles : Compiles world settings manager serial found defines log outcome next) :
    Draws world.versionIds outcome.toOption next.versionIds := by
  cases compiles with
  | failed managed fails quiet ids => exact draws_of_one ids
  | made managed makes quiet id ids =>
      rw [ids]
      exact .given id

/-- A call that makes a version raises the number of versions. -/
theorem MakesActive.unmade_of_count {program : Nat} {found : Program B}
    {made : Option (Version B)} (makes : MakesActive world program found made next)
    (same : next.versionCount = world.versionCount) : made = none := by
  cases makes with
  | unmade alters produced => rfl
  | made managed makes quiet =>
      have raised := quiet.versionCount
      rw [version_count_modify_state, same] at raised
      exact absurd raised (Nat.ne_of_lt (Nat.lt_succ_self _))

theorem Sound.draws_active (sound : world.Sound) {program : Nat} {found : Program B}
    {outcome : Except ProgramError (Version B)} (present : world.program? program = some found)
    (answered : world.activeVersion program = some (outcome, next))
    (resolves : Resolves world program found outcome next) :
    Draws world.versionIds (world.activeMade? program) next.versionIds := by
  -- What a call makes is told apart from how it resolves, and the number of versions links the two.
  have unmade := (sound.makes_active present answered resolves).unmade_of_count
  cases resolves with
  | current clean =>
      rw [unmade rfl]
      exact .unused
  | adopted unclean cached quiet ids =>
      rw [unmade (quiet.versionCount.trans (version_count_modify_state _ _ _))]
      exact draws_of_kept ids
  | compiled unclean missing managed compiles =>
      cases compiles with
      | failed managedBy fails quiet ids =>
          rw [unmade quiet.versionCount]
          exact draws_of_one ids
      | @made _ compiled _ managedBy makes quiet id ids =>
          have made : world.activeMade? program =
              some (world.freshVersion program found compiled) := by
            simp [activeMade?, answered, freshVersion]
          rw [made, ids]
          exact .given id

theorem Supplies.version_ids {version : Version B} {owner : Program B}
    {outcome : Except ProgramError (Kernels B)}
    (supplies : Supplies world version owner outcome next) :
    next.versionIds = world.versionIds := by
  obtain ⟨_, _, ids⟩ := supplies.quiet
  exact ids

theorem Sound.draws_performed (sound : world.Sound) {operation : Operation} {answer : Answer B}
    (performs : Performs world operation answer next) :
    Draws world.versionIds (world.made? (.operate operation)) next.versionIds := by
  cases performs with
  | unmanaged absent => exact .unused
  | untargeted target absent =>
      rw [Archive.made_of_untargeted target absent]
      exact .unused
  | created managed creates => exact draws_of_kept creates.versionIds
  | dropped present drops => exact draws_of_kept drops.versionIds
  | edited present alters ids => exact draws_of_kept ids
  | swept sweeping alters ids =>
      rw [Archive.made_of_sweeping sweeping]
      exact draws_of_kept ids
  | resolved present answered resolves => exact sound.draws_active present answered resolves
  | provided present provides =>
      cases provides with
      | unresolved answered resolves => exact sound.draws_active present answered resolves
      | resolved answered resolves settled supplies =>
          rw [supplies.version_ids]
          exact sound.draws_active present answered resolves

theorem Sound.version_ids_kernels_of (sound : world.Sound) {version : Version B}
    {outcome : Except ProgramError (Kernels B)}
    (answered : world.kernelsOf version = some (outcome, next)) :
    next.versionIds = world.versionIds := by
  cases owned : world.owner? version with
  | none =>
      simp only [kernelsOf, owned, Option.some.injEq, Prod.mk.injEq] at answered
      rw [answered.2]
  | some owner =>
      obtain ⟨setup, managed, _⟩ := sound.managed _ owner (program_of_owner owned)
      obtain ⟨found, later, kernels_eq, supplies⟩ := world.kernels_of_supplies owned managed
      cases kernels_eq.symm.trans answered
      exact supplies.version_ids

theorem version_ids_create_kernels {manager program : Nat} {version : Version B} {log : String}
    {logged : Logged (Kernels B)}
    (created : world.createKernels manager program version log = some (logged, next)) :
    next.versionIds = world.versionIds := by
  rcases create_kernels_ends created with ⟨rfl, _⟩ | ⟨owner, _, links⟩
  · rfl
  · exact links.ids

theorem version_ids_respond {Value : Type} {response : Value → Response B}
    {answer : Option (Value × World B)}
    (kept : ∀ value next, answer = some (value, next) → next.versionIds = world.versionIds) :
    (world.respondWith response answer).2.versionIds = world.versionIds := by
  cases answer with
  | none => rfl
  | some pair => exact kept pair.1 pair.2 rfl

end World

namespace Archive

variable {archive : Archive B}

/-- A request draws at most once, and a version that it makes gets what it draws. -/
theorem Sound.draws (sound : archive.Sound) (request : Request) :
    Draws archive.world.versionIds (archive.world.made? request)
      (archive.after request).world.versionIds := by
  cases request with
  | operate operation => exact sound.world.draws_performed (sound.world.performs operation)
  | createVersion manager program log =>
      simp only [Archive.after, World.serve, World.made?]
      cases present : archive.world.program? program with
      | none =>
          rw [World.create_version_absent _ log (.inl present)]
          exact .unused
      | some found =>
          cases managed : archive.world.setup? manager with
          | none =>
              rw [World.create_version_absent _ log (.inr managed)]
              exact .unused
          | some setup =>
              obtain ⟨logged, next, created, compiles⟩ :=
                World.create_version_compiles _ present managed log
              rw [created]
              exact compiles.draws
  | kernelsOf serial =>
      apply draws_of_kept
      apply World.version_ids_respond
      intro outcome next answered
      obtain ⟨version, _, called⟩ := Option.bind_eq_some_iff.mp answered
      exact sound.world.version_ids_kernels_of called
  | createKernels manager program serial log =>
      apply draws_of_kept
      apply World.version_ids_respond
      intro logged next answered
      obtain ⟨version, _, created⟩ := Option.bind_eq_some_iff.mp answered
      exact World.version_ids_create_kernels created
  | addSearchPath manager path =>
      apply draws_of_kept
      simp only [Archive.after, World.serve, World.addSearchPath]
      split <;> rfl
  | _ => exact .unused

/-! ## Runs -/

/-- How many identifiers the requests draw, also those that no version gets. -/
def draws (archive : Archive B) : List Request → Nat
  | [] => 0
  | request :: rest =>
      let next := archive.after request
      (next.world.versionIds.upcoming - archive.world.versionIds.upcoming).toNat + next.draws rest

/-- What a run adds to the versions was given its identifiers in order, by induction on the
requests. -/
theorem Sound.hands {archive : Archive B} (sound : archive.Sound) (requests : List Request) :
    ∃ made, (archive.run requests).versions = archive.versions ++ made ∧
      Hands (archive.draws requests) archive.world.versionIds
        (archive.run requests).world.versionIds made := by
  induction requests generalizing archive with
  | nil => exact ⟨[], (List.append_nil _).symm, rfl, List.Sublist.refl _⟩
  | cons request rest ih =>
      obtain ⟨others, versions, later⟩ := ih (sound.after request)
      refine ⟨(archive.world.made? request).toList ++ others, ?_, ?_⟩
      · rw [← List.append_assoc]
        exact versions
      · exact (sound.draws request).hands.append later

theorem Sound.draws_le_length {archive : Archive B} (sound : archive.Sound)
    (requests : List Request) : archive.draws requests ≤ requests.length := by
  induction requests generalizing archive with
  | nil => exact Nat.le_refl 0
  | cons request rest ih =>
      have once := (sound.draws request).at_most_once
      have later := ih (sound.after request)
      rw [Archive.draws, List.length_cons]
      omega

/-! ## What carries an identifier -/

end Archive

/-- The kernels carry the identifier of the version, and so does what is reflected of them. -/
def LinkedKernels.Carries (linked : LinkedKernels B) (version : Version B) : Prop :=
  linked.versionId = version.id ∧ linked.reflection.versionId = version.id

theorem link_outcome_carries {desc : ProgramDesc} {description : String}
    {conformances : ConformanceList} {version : Version B} {work : Work B.State}
    {linked : LinkedKernels B}
    (makes : linkOutcome desc description conformances version.linkInput work = .ok linked) :
    linked.Carries version := by
  obtain ⟨_, handle, reflected⟩ :=
    link_outcome_yields (LinkedKernels.yields_reflected desc conformances version.linkInput) makes
  constructor
  · exact (link_outcome_labels makes).1
  · rw [reflected.reflection]
    rfl

namespace World

/-- A call that was not met with silence went to somebody. -/
theorem responded {world : World B} {Value : Type} {response : Value → Response B}
    {call : Option (Value × World B)} {log : String} {version : Version B}
    (answered : (world.respondWith response call).1 = .version log (.ok version)) :
    ∃ value next, call = some (value, next) ∧ response value = .version log (.ok version) := by
  cases call with
  | none => cases answered
  | some pair => exact ⟨pair.1, pair.2, rfl, answered⟩

end World

namespace Archive

variable {archive : Archive B}

theorem reflection_carries (files : FileTree) (managers : List (Manager B))
    {requests : List Request} {version : Version B}
    (held : version ∈ ((opening files managers).run requests).versions) :
    version.compiled.reflection.versionId = version.id := by
  rcases made_in_run held with before | ⟨earlier, request, later, rfl, made⟩
  · cases before
  · have sound := sound_reached files managers earlier
    obtain ⟨_, _, found, _, _, _, compiled⟩ := (sound.world.originates made).compiled
    obtain ⟨_, _, handle, reflected⟩ :=
      compile_outcome_yields (CompiledVersion.yields_reflected found.desc) compiled.compiled
    rw [reflected.reflection]
    rfl

theorem Kept.carries (kept : archive.Kept) (sound : archive.Sound) {version : Version B}
    (held : version ∈ archive.versions) {entry : CachedKernels B}
    (cached : entry ∈ archive.world.cachedKernels version) :
    entry.kernels.linked.Carries version := by
  obtain ⟨present, isVersion⟩ := List.mem_filter.mp cached
  have genuine := kept.found sound present held (of_decide_eq_true isVersion)
  obtain ⟨desc, description, linked, _⟩ := genuine.linked
  obtain ⟨work, _, makes⟩ := linked.linked
  exact link_outcome_carries makes

/-- A version that a request answers with is one of the archive from then on. -/
theorem Sound.answered_version (sound : archive.Sound) {request : Request} {log : String}
    {version : Version B} (answered : archive.respond request = .version log (.ok version)) :
    version ∈ (archive.after request).versions := by
  cases request with
  | createVersion manager program asked =>
      obtain ⟨logged, next, created, same⟩ := World.responded answered
      have made : archive.world.made? (.createVersion manager program asked) = some version := by
        have succeeds : logged.outcome = .ok version := (Response.version.inj same).2
        simp only [World.made?, created, Option.bind_some, succeeds]
        rfl
      apply List.mem_append_right
      rw [made]
      exact List.mem_singleton_self version
  | operate operation =>
      cases operation with
      | activeVersion program =>
          obtain ⟨outcome, next, called, same⟩ := World.responded answered
          rw [(Response.version.inj same).2] at called
          exact (sound.resolved_version called).held
      | newProgram | editProgram | activeKernels =>
          obtain ⟨_, _, _, same⟩ := World.responded answered
          cases same
      | _ => cases answered
  | kernelsOf | createKernels =>
      obtain ⟨_, _, _, same⟩ := World.responded answered
      cases same
  | inspectManager | inspectProgram | inspectVersion =>
      exact absurd answered (World.inspected_other (by simp) fun _ => by simp)
  | _ => cases answered

/-- All versions that a run makes, whichever programs and managers they belong to, have identifiers
that were drawn in this order, and compilations that failed may have drawn others in between. Below
`2 ^ 64 - 1` draws the identifiers increase from one on. What is reflected of a version and the
kernels that are linked from it carry its identifier. The sequence counts draws from wherever it
starts. -/
theorem version_ids_unique (files : FileTree) (managers : List (Manager B))
    (requests : List Request) :
    let reached := (opening files managers).run requests
    let drawn := (opening files managers).draws requests
    (reached.world.versionIds = (IdSequence.drawMany drawn .initial).2 ∧
      (reached.versions.map Version.id).Sublist (IdSequence.drawMany drawn .initial).1) ∧
    (drawn < 2 ^ 64 - 1 → (reached.versions.map Version.id).Pairwise (· < ·) ∧
      ∀ version ∈ reached.versions, version.id ≠ 0) ∧
    (∀ version ∈ reached.versions, version.compiled.reflection.versionId = version.id ∧
      ∀ entry ∈ reached.world.cachedKernels version, entry.kernels.linked.Carries version) ∧
    (∀ request log version, reached.respond request = .version log (.ok version) →
      version ∈ (reached.after request).versions) ∧
    (∀ request log kernels, reached.respond request = .kernels log (.ok kernels) →
      ∃ version, reached.asked? request = some version ∧
        version ∈ (reached.after request).versions ∧ kernels.linked.Carries version) ∧
    (∀ (first : UInt64) (calls : List IdSequence.Call) (position : Nat),
      position < calls.length →
        ((IdSequence.startingAt first).answers calls)[position]?.map UInt64.toNat =
          some ((first.toNat + (calls.take position).count .draw) % 2 ^ 64)) ∧
    ∀ (first : UInt64) (calls : List IdSequence.Call) (one other : Nat), one < other →
      calls[one]? = some .draw → calls[other]? = some .draw →
      (calls.take other).count .draw < (calls.take one).count .draw + 2 ^ 64 →
        ((IdSequence.startingAt first).answers calls)[one]? ≠
          ((IdSequence.startingAt first).answers calls)[other]? := by
  intro reached drawn
  have start : (opening files managers).Sound := sound_opening files managers
  have sound : reached.Sound := start.run requests
  have kept : reached.Kept := (kept_opening files managers).run start requests
  obtain ⟨made, versions, hands⟩ := start.hands requests
  have given : (reached.versions.map Version.id).Sublist
      (IdSequence.drawMany drawn .initial).1 := by
    have all : reached.versions = made := versions
    rw [all]
    exact hands.given
  refine ⟨⟨hands.after, given⟩, ?_, ?_, fun _ _ _ => sound.answered_version, ?_,
    fun _ _ _ => IdSequence.answers_to_nat, fun _ _ _ _ => IdSequence.draws_differ⟩
  · intro few
    obtain ⟨increasing, positive⟩ := IdSequence.draw_many_increasing (Nat.lt_of_lt_pred few)
    refine ⟨increasing.sublist given, fun version held zero => ?_⟩
    have above := positive _ (given.subset (List.mem_map_of_mem held))
    rw [zero] at above
    exact absurd above (by decide)
  · intro version held
    exact ⟨reflection_carries files managers held, fun entry => kept.carries sound held⟩
  · intro request log kernels answered
    obtain ⟨version, found, asked, held, _, work, makes⟩ := kept.answered_asked sound answered
    exact ⟨version, asked, held, link_outcome_carries makes⟩

def unlessOpaque (component : List String) : Except String (List String) :=
  if "OPAQUE" ∈ component then .error "There is nothing to see." else .ok component

/-- An echo that does not reflect what has an opaque part. -/
def opaqueEcho : Backend :=
  { Backend.echo with reflect := fun component => pure (unlessOpaque component) }

/-- The second compilation fails after it drew, and nobody keeps the version of the last one. -/
theorem version_ids_past_failure :
    let manager : Manager opaqueEcho := { device := { type := .vulkan }, service := () }
    let requests : List Request := [.operate (.newProgram 0 .oneKernel ∅),
      .operate (.newProgram 1 .oneKernel ∅), .operate (.activeVersion 0),
      .operate (.editProgram 0 (.addDefine "MODE" "OPAQUE")), .operate (.activeVersion 0),
      .operate (.activeVersion 1), .createVersion 1 1 ""]
    let start := opening {} [manager, manager]
    let reached := start.run requests
    let request : Request := .operate (.activeKernels 1)
    reached.versions.map Version.id = [1, 3, 4] ∧
      (reached.versions.map Version.id).Pairwise (· < ·) ∧
      ∃ kernels, reached.respond request = .kernels "" (.ok kernels) ∧
        kernels.linked.reflection.versionId = 3 := by
  intro manager requests start reached request
  have ids : reached.versions.map Version.id = [1, 3, 4] := by
    decide +kernel
  have asks : (reached.asked? request).map Version.id = some 3 := by
    decide +kernel
  have links : (reached.world.activeKernels 1).map
      (fun answer => answer.1.toOption.map fun kernels => kernels.linked.name) =
      some (some "(main)") := by
    decide +kernel
  obtain ⟨kernels, answered, _⟩ := answered_active links
  obtain ⟨_, distinct, _, _, carried, _⟩ :=
    version_ids_unique {} [manager, manager] requests
  have few : start.draws requests < 2 ^ 64 - 1 :=
    Nat.lt_of_le_of_lt ((sound_opening {} _).draws_le_length requests) (by decide)
  obtain ⟨version, isAsked, _, _, reflected⟩ := carried request "" kernels answered
  rw [isAsked, Option.map_some, Option.some.injEq] at asks
  exact ⟨ids, (distinct few).1, kernels, answered, reflected.trans asks⟩

end Archive

end ShaderCache
