import Mathlib.Data.List.Basic
import ShaderCache.Files.Path

/-!
# Steps of paths

A path is taken apart into the moves it makes, up or to a name. The moves of joined paths follow
each other, and a normalized path moves to the names that are left over of the moves.
-/

set_option autoImplicit false

namespace ShaderCache

namespace Path

/-! ## Parts -/

theorem split_ne_nil (chars : List Char) : split chars ≠ [] := by
  cases chars with
  | nil => simp [split]
  | cons c rest =>
      simp only [split]
      split
      · simp
      · split <;> simp

theorem split_cons_of_ne {c : Char} (other : c ≠ '/') {rest part : List Char}
    {parts : List (List Char)} (splits : split rest = part :: parts) :
    split (c :: rest) = (c :: part) :: parts := by
  simp [split, other, splits]

theorem split_append (front back : List Char) :
    split (front ++ '/' :: back) = split front ++ split back := by
  induction front with
  | nil => simp [split]
  | cons c rest ih =>
      by_cases slash : c = '/'
      · simp [split, slash, ih]
      · obtain ⟨part, parts, splits⟩ := List.exists_cons_of_ne_nil (split_ne_nil rest)
        rw [splits, List.cons_append] at ih
        rw [List.cons_append, split_cons_of_ne slash ih, split_cons_of_ne slash splits,
          List.cons_append]

theorem split_slash_cons (rest : List Char) : split ('/' :: rest) = [] :: split rest := by
  simp [split]

theorem mem_of_mem_split {chars part : List Char} (held : part ∈ split chars) {c : Char}
    (isIn : c ∈ part) : c ∈ chars ∧ c ≠ '/' := by
  induction chars generalizing part with
  | nil => simp_all [split]
  | cons first rest ih =>
      by_cases slash : first = '/'
      · rw [slash, split_slash_cons, List.mem_cons] at held
        rcases held with rfl | later
        · simp at isIn
        · exact ⟨List.mem_cons_of_mem _ (ih later isIn).1, (ih later isIn).2⟩
      · obtain ⟨front, parts, splits⟩ := List.exists_cons_of_ne_nil (split_ne_nil rest)
        rw [split_cons_of_ne slash splits, List.mem_cons] at held
        rcases held with rfl | later
        · rcases List.mem_cons.mp isIn with rfl | isLater
          · exact ⟨List.mem_cons_self, slash⟩
          · have inRest := ih (splits ▸ List.mem_cons_self) isLater
            exact ⟨List.mem_cons_of_mem _ inRest.1, inRest.2⟩
        · have inRest := ih (splits ▸ List.mem_cons_of_mem _ later) isIn
          exact ⟨List.mem_cons_of_mem _ inRest.1, inRest.2⟩

theorem split_of_no_slash {name : List Char} (whole : '/' ∉ name) : split name = [name] := by
  induction name with
  | nil => rfl
  | cons c rest ih =>
      rw [List.mem_cons, not_or] at whole
      exact split_cons_of_ne (Ne.symm whole.1) (ih whole.2)

theorem split_join_names {names : List (List Char)} (nonempty : names ≠ [])
    (whole : ∀ name ∈ names, '/' ∉ name) : split (joinNames names) = names := by
  induction names with
  | nil => exact absurd rfl nonempty
  | cons name rest ih =>
      obtain ⟨here, others⟩ := List.forall_mem_cons.mp whole
      cases rest with
      | nil => exact split_of_no_slash here
      | cons second more =>
          rw [joinNames, split_append, split_of_no_slash here, ih (List.cons_ne_nil _ _) others]
          · rfl
          · simp

/-! ## Moves -/

/-- The steps of a path but for the root or the dot that it may start with. -/
def moves (path : Path) : List Step :=
  (split path.text.toList).filterMap stepOf?

theorem step_nothing_iff {part : List Char} :
    stepOf? part = none ↔ part = [] ∨ part = ['.'] := by
  unfold stepOf?
  by_cases nothing : part = [] ∨ part = ['.']
  · simp [nothing]
  · by_cases up : part = ['.', '.'] <;> simp [nothing, up]

theorem step_up_iff {part : List Char} : stepOf? part = some .up ↔ part = ['.', '.'] := by
  unfold stepOf?
  by_cases nothing : part = [] ∨ part = ['.']
  · rcases nothing with rfl | rfl <;> simp
  · by_cases up : part = ['.', '.'] <;> simp [nothing, up]

theorem step_name_iff {part : List Char} :
    stepOf? part = some (.name part) ↔
      ¬ (part = [] ∨ part = ['.']) ∧ part ≠ ['.', '.'] := by
  unfold stepOf?
  by_cases nothing : part = [] ∨ part = ['.']
  · simp [nothing]
  · by_cases up : part = ['.', '.'] <;> simp [nothing, up]

theorem move_of_part {part : List Char} {step : Step} (means : stepOf? part = some step) :
    step = .up ∨ step = .name part ∧ part ≠ [] := by
  unfold stepOf? at means
  split at means
  next => simp at means
  next something =>
    split at means
    next => exact .inl (Option.some.inj means).symm
    next => exact .inr ⟨(Option.some.inj means).symm, fun empty => something (.inl empty)⟩

theorem part_of_name {parts : List (List Char)} {name : List Char}
    (moved : .name name ∈ parts.filterMap stepOf?) :
    name ∈ parts ∧ stepOf? name = some (.name name) := by
  obtain ⟨part, held, means⟩ := List.mem_filterMap.mp moved
  rcases move_of_part means with isUp | ⟨isName, _⟩
  · simp at isUp
  · cases isName
    exact ⟨held, means⟩

theorem move_of_mem {path : Path} {step : Step} (moved : step ∈ path.moves) :
    step ≠ .root ∧ step ≠ .here := by
  obtain ⟨part, _, means⟩ := List.mem_filterMap.mp moved
  rcases move_of_part means with rfl | ⟨rfl, _⟩ <;> simp

theorem root_mem_steps (path : Path) : .root ∈ path.steps ↔ path.isAbsolute = true := by
  have unmoved : .root ∉ path.moves := fun moved => (move_of_mem moved).1 rfl
  rw [steps]
  change .root ∈ _ ++ path.moves ↔ _
  rw [List.mem_append, or_iff_left unmoved]
  split
  next absolute => simp [absolute]
  next relative => split <;> simp [relative]

theorem is_absolute_of_steps {path other : Path} (same : path.steps = other.steps) :
    path.isAbsolute = other.isAbsolute := by
  rw [Bool.eq_iff_iff, ← root_mem_steps, ← root_mem_steps, same]

theorem beq_iff_steps {path other : Path} :
    (path == other) = true ↔ path.steps = other.steps := by
  change (path.steps == other.steps) = true ↔ _
  exact beq_iff_eq

theorem moves_join {directory path : Path} (relative : path.isAbsolute = false) :
    (directory.join path).moves = directory.moves ++ path.moves := by
  unfold join
  simp only [relative, Bool.false_eq_true, ↓reduceIte]
  split
  next closed =>
    simp only [moves, String.toList_append]
    rcases closed with empty | slash
    · simp [empty, split, stepOf?]
    · obtain ⟨front, text⟩ := List.getLast?_eq_some_iff.mp slash
      rw [text, List.append_assoc, List.singleton_append, split_append, split_append]
      simp [split, stepOf?]
  next =>
    have text : (directory.text ++ "/" ++ path.text).toList =
        directory.text.toList ++ '/' :: path.text.toList := by simp
    rw [moves, text, split_append, List.filterMap_append]
    rfl

theorem is_absolute_join {directory path : Path} (relative : path.isAbsolute = false) :
    (directory.join path).isAbsolute = directory.isAbsolute := by
  unfold join
  simp only [relative, Bool.false_eq_true, ↓reduceIte]
  cases front : directory.text.toList with
  | nil => simp_all [isAbsolute]
  | cons first rest => split <;> simp [isAbsolute, front]

/-! ## Names that are left over -/

/-- Where a move leads, from a place given by its names, the innermost first. -/
def move (names : List (List Char)) : Step → List (List Char)
  | .root => []
  | .here => names
  | .up => names.tail
  | .name value => value :: names

def walk (names : List (List Char)) (steps : List Step) : List (List Char) :=
  steps.foldl move names

@[simp]
theorem walk_nil (names : List (List Char)) : walk names [] = names := rfl

@[simp]
theorem walk_cons (names : List (List Char)) (step : Step) (rest : List Step) :
    walk names (step :: rest) = walk (move names step) rest := rfl

theorem walk_append (names : List (List Char)) (steps more : List Step) :
    walk names (steps ++ more) = walk (walk names steps) more :=
  List.foldl_append

theorem walk_names (names below : List (List Char)) :
    walk below (names.reverse.map .name) = names ++ below := by
  induction names with
  | nil => rfl
  | cons name rest ih =>
      rw [List.reverse_cons, List.map_append, walk_append, ih]
      rfl

theorem mem_walk {name : List Char} {names : List (List Char)} {steps : List Step}
    (left : name ∈ walk names steps) : name ∈ names ∨ .name name ∈ steps := by
  induction steps generalizing names with
  | nil => exact .inl left
  | cons step rest ih =>
      rcases ih left with former | later
      · cases step with
        | root => simp [move] at former
        | here => exact .inl former
        | up => exact .inl (List.mem_of_mem_tail former)
        | name value =>
            rcases List.mem_cons.mp former with rfl | former
            · exact .inr List.mem_cons_self
            · exact .inl former
      · exact .inr (List.mem_cons_of_mem _ later)

/-- The names that are left over of a path. -/
def remaining (path : Path) : List (List Char) :=
  walk [] path.moves

theorem collapse_steps (path : Path) : collapse path.steps = path.remaining := by
  have collapse_eq : ∀ steps, collapse steps = walk [] steps := fun _ => rfl
  rw [collapse_eq, steps, walk_append]
  split
  · rfl
  · split <;> rfl

theorem remaining_part {path : Path} {name : List Char} (left : name ∈ path.remaining) :
    name ∈ split path.text.toList ∧ stepOf? name = some (.name name) :=
  part_of_name ((mem_walk left).resolve_left List.not_mem_nil)

theorem remaining_no_slash {path : Path} {name : List Char} (left : name ∈ path.remaining) :
    '/' ∉ name :=
  fun slash => (mem_of_mem_split (remaining_part left).1 slash).2 rfl

theorem remaining_join {directory path : Path} (relative : path.isAbsolute = false) :
    (directory.join path).remaining = walk directory.remaining path.moves := by
  rw [remaining, moves_join relative, walk_append]
  rfl

/-! ## Normalized paths -/

theorem join_names_eq_nil {names : List (List Char)} (nonempty : ∀ name ∈ names, name ≠ []) :
    joinNames names = [] ↔ names = [] := by
  match names with
  | [] => simp [joinNames]
  | [name] => simpa [joinNames] using nonempty
  | name :: second :: rest => simp [joinNames]

theorem remaining_ne_nil {path : Path} {name : List Char} (left : name ∈ path.remaining) :
    name ≠ [] := by
  rintro rfl
  have means := (remaining_part left).2
  simp [stepOf?] at means

/-- What a normalized path is written from. -/
theorem normalize_eq (path : Path) :
    path.normalize =
      let names := joinNames path.remaining.reverse
      if path.isAbsolute then ⟨String.ofList ('/' :: names)⟩
      else if path.remaining = [] then ⟨"."⟩
      else ⟨String.ofList names⟩ := by
  have empty : joinNames path.remaining.reverse = [] ↔ path.remaining = [] := by
    rw [join_names_eq_nil fun name left => remaining_ne_nil (List.mem_reverse.mp left),
      List.reverse_eq_nil_iff]
  simp only [normalize, collapse_steps, empty]

theorem split_remaining {path : Path} (nonempty : path.remaining ≠ []) :
    split (joinNames path.remaining.reverse) = path.remaining.reverse :=
  split_join_names (by simpa using nonempty) fun _ left =>
    remaining_no_slash (List.mem_reverse.mp left)

theorem is_absolute_of_list {chars : List Char} :
    isAbsolute ⟨String.ofList chars⟩ = true ↔ chars.head? = some '/' := by
  simp [isAbsolute]

theorem is_absolute_normalize (path : Path) : path.normalize.isAbsolute = path.isAbsolute := by
  rw [normalize_eq]
  by_cases absolute : path.isAbsolute = true
  · simp only [absolute, ↓reduceIte]
    exact is_absolute_of_list.mpr rfl
  rw [Bool.not_eq_true] at absolute
  by_cases nothing : path.remaining = []
  · simp only [absolute, nothing, Bool.false_eq_true, ↓reduceIte]
    decide
  · simp only [absolute, nothing, Bool.false_eq_true, ↓reduceIte]
    -- A text that starts with a separator has an empty first part, which is no name.
    refine Bool.eq_false_iff.mpr fun rooted => ?_
    obtain ⟨rest, text⟩ := List.head?_eq_some_iff.mp (is_absolute_of_list.mp rooted)
    have parts := split_remaining nothing
    rw [text, split_slash_cons] at parts
    have left : [] ∈ path.remaining := List.mem_reverse.mp (parts ▸ List.mem_cons_self)
    exact remaining_ne_nil left rfl

theorem moves_normalize (path : Path) :
    path.normalize.moves = path.remaining.reverse.map .name := by
  have names : path.remaining.reverse.filterMap stepOf? = path.remaining.reverse.map .name := by
    rw [← List.filterMap_eq_map]
    exact List.filterMap_congr fun name left => (remaining_part (List.mem_reverse.mp left)).2
  have nothing : (split []).filterMap stepOf? = [] := by decide
  rw [normalize_eq, moves]
  by_cases empty : path.remaining = []
  · rw [empty]
    split
    · simp [split_slash_cons, joinNames, nothing, stepOf?]
    · decide
  · simp only [empty, ↓reduceIte]
    split
    · rw [String.toList_ofList, split_slash_cons, split_remaining empty,
        List.filterMap_cons_none (by simp [stepOf?]), names]
    · rw [String.toList_ofList, split_remaining empty, names]

theorem remaining_normalize (path : Path) : path.normalize.remaining = path.remaining := by
  rw [remaining, moves_normalize, walk_names, List.append_nil]

/-- A normalized directory makes no difference to what is normalized below it. -/
theorem normalize_join_normalize {directory path : Path} (relative : path.isAbsolute = false) :
    (directory.normalize.join path).normalize = (directory.join path).normalize := by
  rw [normalize_eq (directory.normalize.join path), normalize_eq (directory.join path),
    remaining_join relative, remaining_join relative, remaining_normalize,
    is_absolute_join relative, is_absolute_join relative, is_absolute_normalize]

/-! ## Texts of normalized paths -/

def size (chars : List Char) : Nat :=
  (String.ofList chars).utf8ByteSize

@[simp]
theorem size_append (front back : List Char) : size (front ++ back) = size front + size back := by
  simp [size, String.ofList_append, String.utf8ByteSize_append]

theorem size_cons_slash (rest : List Char) : size ('/' :: rest) = 1 + size rest := by
  rw [← List.singleton_append, size_append]
  rfl

/-- The bytes of the parts with one separator for each. -/
def weight : List (List Char) → Nat
  | [] => 0
  | part :: rest => size part + 1 + weight rest

theorem weight_split (chars : List Char) : weight (split chars) = size chars + 1 := by
  induction chars with
  | nil => rfl
  | cons c rest ih =>
      by_cases slash : c = '/'
      · rw [slash, split_slash_cons, size_cons_slash, Nat.add_comm 1, ← ih]
        simp [weight, size]
        omega
      · obtain ⟨part, parts, splits⟩ := List.exists_cons_of_ne_nil (split_ne_nil rest)
        rw [split_cons_of_ne slash splits]
        rw [splits] at ih
        have cons_size : ∀ chars : List Char, size (c :: chars) = size [c] + size chars :=
          fun chars => size_append [c] chars
        simp only [weight, cons_size part, cons_size rest] at ih ⊢
        omega

theorem weight_walk (parts above : List (List Char)) :
    weight (walk above (parts.filterMap stepOf?)) ≤ weight above + weight parts := by
  induction parts generalizing above with
  | nil => simp
  | cons part rest ih =>
      have bound : weight (part :: rest) = size part + 1 + weight rest := rfl
      cases means : stepOf? part with
      | none =>
          have below := ih above
          rw [List.filterMap_cons_none means]
          omega
      | some step =>
          rw [List.filterMap_cons_some means]
          rcases move_of_part means with rfl | ⟨rfl, _⟩
          · have below := ih above.tail
            have shorter : weight above.tail ≤ weight above := by
              cases above <;> simp [weight]
            simp only [walk_cons, move]
            omega
          · have below := ih (part :: above)
            have longer : weight (part :: above) = size part + 1 + weight above := rfl
            simp only [walk_cons, move]
            omega

theorem weight_append (parts more : List (List Char)) :
    weight (parts ++ more) = weight parts + weight more := by
  induction parts with
  | nil => simp [weight]
  | cons part rest ih => simp only [List.cons_append, weight, ih, Nat.add_assoc]

theorem weight_reverse (parts : List (List Char)) : weight parts.reverse = weight parts := by
  induction parts with
  | nil => rfl
  | cons part rest ih =>
      rw [List.reverse_cons, weight_append, ih, Nat.add_comm]
      rfl

theorem mem_join_names {names : List (List Char)} {c : Char} (isIn : c ∈ joinNames names) :
    c = '/' ∨ ∃ name ∈ names, c ∈ name := by
  induction names using joinNames.induct with
  | case1 => simp [joinNames] at isIn
  | case2 name => exact .inr ⟨name, by simp, isIn⟩
  | case3 name rest nonempty ih =>
      rw [joinNames, List.mem_append, List.mem_cons] at isIn
      · rcases isIn with here | slash | later
        · exact .inr ⟨name, List.mem_cons_self, here⟩
        · exact .inl slash
        · refine (ih later).imp_right ?_
          rintro ⟨other, held, isOther⟩
          exact ⟨other, List.mem_cons_of_mem _ held, isOther⟩
      · exact nonempty

/-- What a normalized path with a name is written as, and its parts. -/
structure Written (path : Path) (chars : List Char) : Prop where
  text : path.normalize.text.toList = chars
  nonempty : chars ≠ []
  parts : split chars = (if path.isAbsolute then [[]] else []) ++ path.remaining.reverse
  size : size chars ≤ Path.size path.text.toList
  chars : ∀ c ∈ chars, c = '/' ∨ c ∈ path.text.toList

theorem written_normalize {path : Path} (named : path.remaining ≠ []) :
    ∃ chars, Written path chars := by
  have inner : ∀ c ∈ joinNames path.remaining.reverse, c = '/' ∨ c ∈ path.text.toList := by
    intro c isIn
    refine (mem_join_names isIn).imp_right ?_
    rintro ⟨name, left, inName⟩
    exact (mem_of_mem_split (remaining_part (List.mem_reverse.mp left)).1 inName).1
  have names_size : size (joinNames path.remaining.reverse) + 1 = weight path.remaining := by
    rw [← weight_split, split_remaining named, weight_reverse]
  by_cases absolute : path.isAbsolute = true
  · refine ⟨'/' :: joinNames path.remaining.reverse, ?_, List.cons_ne_nil _ _, ?_, ?_, ?_⟩
    · simp [normalize_eq, absolute]
    · simp [absolute, split_slash_cons, split_remaining named]
    · rw [isAbsolute, decide_eq_true_eq, List.head?_eq_some_iff] at absolute
      obtain ⟨rest, text⟩ := absolute
      have bound := weight_walk (split rest) []
      have moves : path.remaining = walk [] ((split rest).filterMap stepOf?) := by
        rw [remaining, Path.moves, text, split_slash_cons,
          List.filterMap_cons_none (by simp [stepOf?])]
      rw [← moves, weight_split, ← names_size] at bound
      rw [size_cons_slash, text, size_cons_slash]
      simp [weight] at bound
      omega
    · exact List.forall_mem_cons.mpr ⟨.inl rfl, inner⟩
  · rw [Bool.not_eq_true] at absolute
    refine ⟨joinNames path.remaining.reverse, ?_, ?_, ?_, ?_, inner⟩
    · simp [normalize_eq, absolute, named]
    · intro empty
      rw [join_names_eq_nil fun name left => remaining_ne_nil (List.mem_reverse.mp left)] at empty
      exact named (by simpa using empty)
    · simp [absolute, split_remaining named]
    · have bound := weight_walk (split path.text.toList) []
      change weight path.remaining ≤ _ at bound
      rw [weight_split, ← names_size] at bound
      simp [weight] at bound
      omega

end Path

end ShaderCache
