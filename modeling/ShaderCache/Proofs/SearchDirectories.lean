import Mathlib.Data.List.Infix
import ShaderCache.Files.Resolver
import ShaderCache.Proofs.PathSteps

/-!
# Search directories

A file is looked for under the normalized form of a search directory. Normalizing drops the moves
up for which there is no name to leave. An absolute path loses nothing by that, since nothing is
above the root. A relative path that climbs out of the current directory leads elsewhere.
-/

set_option autoImplicit false

namespace ShaderCache

namespace Path

/-! ## Climbing -/

def Step.isName : Step → Bool
  | .name _ => true
  | _ => false

/-- At some point more moves lead up than `depth` names and those before it lead down. -/
def ClimbsFrom (depth : Nat) (moves : List Step) : Prop :=
  ∃ first, first <+: moves ∧ depth + first.countP Step.isName < first.count .up

/-- The path leaves the directory that it starts in. -/
def Climbs (path : Path) : Prop :=
  ClimbsFrom 0 path.moves

instance (depth : Nat) (moves : List Step) : Decidable (ClimbsFrom depth moves) :=
  decidable_of_iff (∃ first ∈ moves.inits, depth + first.countP Step.isName < first.count .up)
    (by simp only [ClimbsFrom, List.mem_inits])

instance (path : Path) : Decidable path.Climbs :=
  inferInstanceAs (Decidable (ClimbsFrom 0 path.moves))

theorem climbs_from_nil (depth : Nat) : ¬ ClimbsFrom depth [] := by
  rintro ⟨first, starts, climbs⟩
  cases List.prefix_nil.mp starts
  simp at climbs

/-- After a first move that leaves as much room as there was, the rest climbs or does not. -/
theorem climbs_from_cons {depth later : Nat} {step : Step}
    (room : depth + [step].countP Step.isName = later + [step].count .up) (rest : List Step) :
    ClimbsFrom depth (step :: rest) ↔ ClimbsFrom later rest := by
  have names (more : List Step) :
      (step :: more).countP Step.isName = [step].countP Step.isName + more.countP Step.isName := by
    rw [← List.singleton_append, List.countP_append]
  have ups (more : List Step) : (step :: more).count .up = [step].count .up + more.count .up := by
    rw [← List.singleton_append, List.count_append]
  constructor
  · rintro ⟨first, starts, climbs⟩
    rcases List.prefix_cons_iff.mp starts with rfl | ⟨more, rfl, follows⟩
    · simp at climbs
    · rw [names, ups] at climbs
      exact ⟨more, follows, by omega⟩
  · rintro ⟨more, starts, climbs⟩
    refine ⟨step :: more, List.prefix_cons_iff.mpr (.inr ⟨more, rfl, starts⟩), ?_⟩
    rw [names, ups]
    omega

theorem climbs_from_name (depth : Nat) (name : List Char) (rest : List Step) :
    ClimbsFrom depth (.name name :: rest) ↔ ClimbsFrom (depth + 1) rest :=
  climbs_from_cons (by simp [Step.isName]) rest

theorem climbs_from_up_succ (depth : Nat) (rest : List Step) :
    ClimbsFrom (depth + 1) (.up :: rest) ↔ ClimbsFrom depth rest :=
  climbs_from_cons (by simp [Step.isName]) rest

theorem climbs_from_up_zero (rest : List Step) : ClimbsFrom 0 (.up :: rest) :=
  ⟨[.up], by simp, by simp [Step.isName]⟩

/-! ## Places that are walked to -/

theorem walk_length_le (parts above base : List (List Char)) :
    (walk (above ++ base) (parts.filterMap stepOf?)).length ≤
      (walk above (parts.filterMap stepOf?)).length + base.length := by
  induction parts generalizing above base with
  | nil => simp
  | cons part rest ih =>
      cases means : stepOf? part with
      | none => simpa [List.filterMap_cons_none means] using ih above base
      | some step =>
          rw [List.filterMap_cons_some means]
          rcases move_of_part means with rfl | ⟨rfl, _⟩
          · cases above with
            | nil =>
                have below := ih [] base.tail
                simp [move] at below ⊢
                omega
            | cons first others => exact ih others base
          · exact ih (part :: above) base

/-- Where a walk climbs out of where it starts, a walk from the root would lead deeper. -/
theorem walk_shorter {base : List (List Char)} (nonempty : base ≠ [])
    (parts above : List (List Char))
    (climbs : ClimbsFrom above.length (parts.filterMap stepOf?)) :
    (walk (above ++ base) (parts.filterMap stepOf?)).length <
      (walk above (parts.filterMap stepOf?)).length + base.length := by
  induction parts generalizing above with
  | nil => exact absurd climbs (climbs_from_nil _)
  | cons part rest ih =>
      cases means : stepOf? part with
      | none =>
          rw [List.filterMap_cons_none means] at climbs ⊢
          exact ih above climbs
      | some step =>
          rw [List.filterMap_cons_some means] at climbs ⊢
          rcases move_of_part means with rfl | ⟨rfl, _⟩
          · cases above with
            | nil =>
                obtain ⟨first, others, rfl⟩ := List.exists_cons_of_ne_nil nonempty
                have below := walk_length_le rest [] others
                simp [move] at below ⊢
                omega
            | cons first others => exact ih others ((climbs_from_up_succ _ _).mp climbs)
          · exact ih (part :: above) ((climbs_from_name _ _ _).mp climbs)

end Path

namespace FileTree

open ShaderCache.Path (stepOf? move walk)

variable {tree : FileTree}

/-! ## Walks -/

/-- Where a part can lead from a directory. -/
inductive Follows (tree : FileTree) (place : Place) (part : List Char) : Place → Prop where
  | stays (nothing : stepOf? part = none) : Follows tree place part place
  | rises (up : stepOf? part = some .up) : Follows tree place part place.tail
  | enters (named : stepOf? part = some (.name part)) (short : isTooLong part = false)
      (there : (tree.entry? (part :: place)).isSome) : Follows tree place part (part :: place)

theorem follow_iff {place next : Place} {part : List Char} :
    tree.follow place part = .ok next ↔
      tree.entry? place = some .directory ∧ Follows tree place part next := by
  unfold follow directoryAt
  cases found : tree.entry? place with
  | none => simp [bind, Except.bind]
  | some entry =>
      cases entry with
      | file content => simp [bind, Except.bind]
      | directory =>
          simp only [true_and]
          change (if _ then _ else _) = _ ↔ _
          constructor
          · intro followed
            split at followed
            next nothing =>
              cases followed
              exact .stays (Path.step_nothing_iff.mpr nothing)
            next something =>
              split at followed
              next up =>
                cases followed
                exact .rises (Path.step_up_iff.mpr up)
              next notUp =>
                split at followed
                next => simp at followed
                next short =>
                  split at followed
                  next entry there =>
                    cases followed
                    exact .enters (Path.step_name_iff.mpr ⟨something, notUp⟩)
                      (by simpa using short) (by simp [there])
                  next => simp at followed
          · intro follows
            cases follows with
            | stays nothing => rw [if_pos (Path.step_nothing_iff.mp nothing)]
            | rises up => simp [Path.step_up_iff.mp up]
            | enters named short there =>
                obtain ⟨something, notUp⟩ := Path.step_name_iff.mp named
                obtain ⟨entry, isEntry⟩ := Option.isSome_iff_exists.mp there
                simp only [something, notUp, short, isEntry, Bool.false_eq_true, ↓reduceIte]

theorem follow_all_cons {place last : Place} {part : List Char} {rest : List (List Char)} :
    tree.followAll place (part :: rest) = .ok last ↔
      ∃ next, tree.follow place part = .ok next ∧ tree.followAll next rest = .ok last := by
  rw [followAll, List.foldlM_cons]
  cases tree.follow place part with
  | error error => simp [bind, Except.bind]
  | ok next => simp [bind, Except.bind, followAll]

theorem Follows.moves {place next : Place} {part : List Char} {rest : List (List Char)}
    (follows : Follows tree place part next) :
    walk place ((part :: rest).filterMap stepOf?) = walk next (rest.filterMap stepOf?) := by
  cases follows with
  | stays nothing => rw [List.filterMap_cons_none nothing]
  | rises up => rw [List.filterMap_cons_some up]; rfl
  | enters named short there => rw [List.filterMap_cons_some named]; rfl

theorem follow_all_walk {place last : Place} {parts : List (List Char)}
    (followed : tree.followAll place parts = .ok last) :
    last = walk place (parts.filterMap stepOf?) := by
  induction parts generalizing place with
  | nil => exact (Except.ok.inj followed).symm
  | cons part rest ih =>
      obtain ⟨next, first, later⟩ := follow_all_cons.mp followed
      rw [(follow_iff.mp first).2.moves]
      exact ih later

/-- The names, the innermost first, lead from a place through directories. -/
inductive Leads (tree : FileTree) (base : Place) : List (List Char) → Prop where
  | nil : Leads tree base []
  | cons {name : List Char} {above : List (List Char)} (outer : Leads tree base above)
      (directory : tree.entry? (above ++ base) = some .directory)
      (enters : Follows tree (above ++ base) name (name :: above ++ base)) :
      Leads tree base (name :: above)

theorem Leads.tail {base : Place} {names : List (List Char)} (leads : Leads tree base names) :
    Leads tree base names.tail := by
  cases leads with
  | nil => exact .nil
  | cons outer directory enters => exact outer

theorem Leads.follow_all {base : Place} {names : List (List Char)} (leads : Leads tree base names) :
    tree.followAll base names.reverse = .ok (names ++ base) := by
  induction leads with
  | nil => rfl
  | @cons name above outer directory enters ih =>
      have last : tree.follow (above ++ base) name = .ok (name :: above ++ base) :=
        follow_iff.mpr ⟨directory, enters⟩
      rw [followAll] at ih
      rw [List.reverse_cons, followAll, List.foldlM_append, ih]
      simp [bind, Except.bind, last]
      rfl

/-- What is walked without climbing out of a place is led to by the names that are left over. -/
theorem leads_of_follow_all {base : Place} {parts : List (List Char)} {above : List (List Char)}
    {last : Place} (leads : Leads tree base above)
    (grounded : base = [] ∨ ¬ Path.ClimbsFrom above.length (parts.filterMap stepOf?))
    (followed : tree.followAll (above ++ base) parts = .ok last) :
    last = walk above (parts.filterMap stepOf?) ++ base ∧
      Leads tree base (walk above (parts.filterMap stepOf?)) := by
  induction parts generalizing above with
  | nil => exact ⟨(Except.ok.inj followed).symm, leads⟩
  | cons part rest ih =>
      obtain ⟨next, first, later⟩ := follow_all_cons.mp followed
      obtain ⟨directory, follows⟩ := follow_iff.mp first
      cases follows with
      | stays nothing =>
          rw [List.filterMap_cons_none nothing] at grounded ⊢
          exact ih leads grounded later
      | rises up =>
          rw [List.filterMap_cons_some up] at grounded ⊢
          cases above with
          | nil =>
              have top : base = [] := grounded.resolve_right fun stays =>
                stays (Path.climbs_from_up_zero _)
              subst top
              exact ih .nil (.inl rfl) later
          | cons name outer =>
              refine ih leads.tail (grounded.imp_right fun stays climbs => ?_) later
              exact stays ((Path.climbs_from_up_succ _ _).mpr climbs)
      | enters named short there =>
          rw [List.filterMap_cons_some named] at grounded ⊢
          refine ih (.cons leads directory (.enters named short there))
            (grounded.imp_right fun stays climbs => ?_) later
          exact stays ((Path.climbs_from_name _ _ _).mpr climbs)

/-! ## Normalized paths -/

theorem file_of_is_file {path : Path} (isFile : tree.isFile path = true) :
    ∃ place content, tree.locate path = .ok place ∧ tree.entry? place = some (.file content) := by
  unfold FileTree.isFile at isFile
  split at isFile
  next place located =>
    split at isFile
    next content found => exact ⟨place, content, located, found⟩
    next => simp at isFile
  next => simp at isFile

theorem is_file_of_located {path : Path} {place : Place} {content : List UInt8}
    (located : tree.locate path = .ok place) (found : tree.entry? place = some (.file content)) :
    tree.isFile path = true := by
  simp only [FileTree.isFile, located, found]

/-- A path that is walked at all. -/
structure Walkable (path : Path) : Prop where
  nonempty : path.text.toList ≠ []
  noNull : Char.ofNat 0 ∉ path.text.toList
  short : Path.size path.text.toList ≤ pathLimit

theorem parts_of_iff {path : Path} {parts : List (List Char)} :
    partsOf path = .ok parts ↔ Walkable path ∧ parts = Path.split path.text.toList := by
  have size_eq : Path.size path.text.toList = path.text.utf8ByteSize := by
    rw [Path.size, String.ofList_toList]
  unfold partsOf
  split
  next empty =>
    refine iff_of_false (by simp) fun taken => taken.1.nonempty ?_
    simp [empty]
  next nonempty =>
    split
    next null =>
      refine iff_of_false (by simp) fun taken => taken.1.noNull ?_
      simpa using null
    next noNull =>
      split
      next long =>
        refine iff_of_false (by simp) fun taken => ?_
        have short := taken.1.short
        omega
      next short =>
        have walkable : Walkable path :=
          ⟨by simpa using nonempty, by simpa using noNull, by omega⟩
        simp [walkable, eq_comm]

theorem locate_iff {path : Path} {place : Place} :
    tree.locate path = .ok place ↔ Walkable path ∧
      tree.followAll (tree.startOf path) (Path.split path.text.toList) = .ok place := by
  unfold locate
  cases taken : partsOf path with
  | error error =>
      refine iff_of_false (by simp [bind, Except.bind]) fun located => ?_
      rw [parts_of_iff.mpr ⟨located.1, rfl⟩] at taken
      simp at taken
  | ok parts =>
      obtain ⟨walkable, rfl⟩ := parts_of_iff.mp taken
      simp [bind, Except.bind, walkable]

theorem start_is_directory {base place : Place} {chars : List Char}
    (followed : tree.followAll base (Path.split chars) = .ok place) :
    tree.entry? base = some .directory := by
  obtain ⟨part, parts, splits⟩ := List.exists_cons_of_ne_nil (Path.split_ne_nil chars)
  rw [splits] at followed
  obtain ⟨next, first, _⟩ := follow_all_cons.mp followed
  exact (follow_iff.mp first).1

theorem start_normalize (path : Path) : tree.startOf path.normalize = tree.startOf path := by
  simp only [startOf, Path.is_absolute_normalize]

/-- A path that stays below where it starts leads to the same file when it is normalized. -/
theorem locate_normalize {path : Path} (isFile : tree.isFile path = true)
    (grounded : tree.startOf path = [] ∨ ¬ path.Climbs) :
    tree.locate path.normalize = tree.locate path := by
  obtain ⟨place, content, located, found⟩ := file_of_is_file isFile
  obtain ⟨walkable, followed⟩ := locate_iff.mp located
  have directory := start_is_directory followed
  obtain ⟨place_eq, leads⟩ := leads_of_follow_all .nil grounded followed
  change place = path.remaining ++ tree.startOf path at place_eq
  change Leads tree (tree.startOf path) path.remaining at leads
  have named : path.remaining ≠ [] := by
    intro nothing
    rw [place_eq, nothing, List.nil_append, directory] at found
    simp at found
  obtain ⟨chars, written⟩ := Path.written_normalize named
  rw [located, locate_iff, start_normalize, written.text, written.parts]
  constructor
  · refine ⟨?_, ?_, ?_⟩
    · rw [written.text]
      exact written.nonempty
    · rw [written.text]
      intro null
      rcases written.chars _ null with slash | old
      · exact absurd slash (by decide)
      · exact walkable.noNull old
    · rw [written.text]
      exact Nat.le_trans written.size walkable.short
  · have inwards := leads.follow_all
    rw [← place_eq] at inwards
    split
    next =>
      have stays : tree.follow (tree.startOf path) [] = .ok (tree.startOf path) :=
        follow_iff.mpr ⟨directory, .stays (Path.step_nothing_iff.mpr (.inl rfl))⟩
      exact follow_all_cons.mpr ⟨_, stays, inwards⟩
    next => exact inwards

/-- One that climbs out of where it starts does not, if there is anything above. -/
theorem locate_normalize_climbing {path : Path} (isFile : tree.isFile path = true)
    (nonempty : tree.startOf path ≠ []) (climbs : path.Climbs) :
    tree.locate path.normalize ≠ tree.locate path := by
  obtain ⟨place, content, located, _⟩ := file_of_is_file isFile
  intro same
  rw [located] at same
  have here := follow_all_walk (locate_iff.mp located).2
  have there := follow_all_walk (locate_iff.mp same).2
  rw [start_normalize] at there
  change place = walk _ path.moves at here
  change place = walk _ path.normalize.moves at there
  rw [Path.moves_normalize, Path.walk_names] at there
  have shorter := Path.walk_shorter nonempty (Path.split path.text.toList) [] climbs
  change (walk (tree.startOf path) path.moves).length <
    path.remaining.length + (tree.startOf path).length at shorter
  rw [← here, there, List.length_append] at shorter
  exact Nat.lt_irrefl _ shorter

end FileTree

namespace SourceResolver

/-- A resolver with one search directory looks at one place, which is where the directory and the
path lead when they are normalized together. -/
theorem find_under (tree : FileTree) (directory : Path) {path : Path}
    (relative : path.isAbsolute = false) :
    (({} : SourceResolver).add directory).2.find tree path =
      if tree.isFile (directory.join path).normalize then .ok (directory.join path).normalize
      else .error (.notFound path) := by
  have searched : (({} : SourceResolver).add directory).2.candidates path =
      [(directory.join path).normalize] := by
    rw [← Path.normalize_join_normalize relative]
    simp [add, candidates, Path.normalizeTo, Path.isRelative, relative]
  simp only [find, relative, searched, Bool.false_eq_true, ↓reduceIte, List.find?_cons]
  cases tree.isFile (directory.join path).normalize <;> rfl

/-- Suppose a path leads to a file below a directory. A resolver with this search directory finds
that file exactly if the directory is absolute, or it is relative to the root, or the path below it
never climbs out of the current directory. -/
theorem search_directory_reached_iff (tree : FileTree) (directory path : Path)
    (relative : path.isAbsolute = false) (isFile : tree.isFile (directory.join path) = true) :
    let resolver := (({} : SourceResolver).add directory).2
    (∃ found, resolver.find tree path = .ok found ∧
      tree.locate found = tree.locate (directory.join path)) ↔
    directory.isAbsolute = true ∨ tree.current = [] ∨ ¬ (directory.join path).Climbs := by
  intro resolver
  have reached : (∃ found, resolver.find tree path = .ok found ∧
      tree.locate found = tree.locate (directory.join path)) ↔
      tree.locate (directory.join path).normalize = tree.locate (directory.join path) := by
    simp only [resolver, find_under tree directory relative]
    constructor
    · rintro ⟨found, answered, same⟩
      split at answered
      · cases answered
        exact same
      · simp at answered
    · intro same
      obtain ⟨place, content, located, isEntry⟩ := FileTree.file_of_is_file isFile
      have isFound := FileTree.is_file_of_located (same.trans located) isEntry
      exact ⟨_, if_pos isFound, same⟩
  have start : tree.startOf (directory.join path) = [] ↔
      directory.isAbsolute = true ∨ tree.current = [] := by
    rw [FileTree.startOf, Path.is_absolute_join relative]
    cases directory.isAbsolute <;> simp
  rw [reached, ← or_assoc, ← start]
  constructor
  · intro same
    by_contra climbing
    rw [not_or, not_not] at climbing
    exact FileTree.locate_normalize_climbing isFile climbing.1 climbing.2 same
  · exact FileTree.locate_normalize isFile

/-- The directory next to the current one is named in three ways. The first one is taken for a
directory below the current one, which has a file of that name too. -/
theorem search_directory_next_door :
    let tree := ((FileTree.rootedAt ⟨"/work/here"⟩).makeFile ⟨"/work/inc/shader.slang"⟩ []).makeFile
      ⟨"/work/here/inc/shader.slang"⟩ []
    let path : Path := ⟨"shader.slang"⟩
    let Reached := fun directory : Path => ∃ found,
      (({} : SourceResolver).add directory).2.find tree path = .ok found ∧
        tree.locate found = tree.locate (directory.join path)
    tree.isFile ((⟨"../inc"⟩ : Path).join path) = true ∧ ¬ Reached ⟨"../inc"⟩ ∧
      ¬ Reached ⟨"inc/../../inc"⟩ ∧ Reached ⟨"/work/./here/../inc"⟩ ∧ Reached ⟨"inc/../inc/."⟩ := by
  intro tree path Reached
  have reached : ∀ directory : Path, tree.isFile (directory.join path) = true →
      (Reached directory ↔ directory.isAbsolute = true ∨ tree.current = [] ∨
        ¬ (directory.join path).Climbs) :=
    fun directory isFile =>
      search_directory_reached_iff tree directory path (by decide) isFile
  refine ⟨by decide +kernel, ?_, ?_, ?_, ?_⟩
  all_goals
    rw [reached _ (by decide +kernel)]
    decide +kernel

end SourceResolver

end ShaderCache
