import Mathlib.Data.List.Infix
import ShaderCache.Proofs.PathSteps

/-!
# Directories of paths

The directory of a path has the moves of the path but the last one, which is the name in it. Joining
a path to a directory twice moves through the directory twice, unless there is nothing to move.
-/

set_option autoImplicit false

namespace ShaderCache

namespace Path

/-! ## Steps of joined paths -/

/-- The root or the dot that a path starts with. -/
def lead (path : Path) : List Step :=
  if path.isAbsolute then [.root]
  else if (split path.text.toList).head? = some ['.'] then [.here]
  else []

theorem steps_eq (path : Path) : path.steps = path.lead ++ path.moves := rfl

theorem join_empty (path : Path) : (⟨""⟩ : Path).join path = path := by
  simp [join]

theorem head_split_append (front back : List Char) :
    (split (front ++ '/' :: back)).head? = (split front).head? := by
  rw [split_append, List.head?_append_of_ne_nil _ (split_ne_nil front)]

theorem lead_join {directory path : Path} (relative : path.isAbsolute = false)
    (written : directory.text ≠ "") : (directory.join path).lead = directory.lead := by
  have head : (split (directory.join path).text.toList).head? =
      (split directory.text.toList).head? := by
    unfold join
    simp only [relative, Bool.false_eq_true, ↓reduceIte]
    split
    next closed =>
      have nonempty : directory.text.toList ≠ [] := by simpa using written
      obtain ⟨front, text⟩ := List.getLast?_eq_some_iff.mp (closed.resolve_left nonempty)
      simp only [String.toList_append, text, List.append_assoc, List.singleton_append,
        head_split_append]
    next =>
      simpa using head_split_append directory.text.toList path.text.toList
  simp only [lead, is_absolute_join relative, head]

theorem moves_of_steps {path other : Path} (same : path.steps = other.steps) :
    path.moves = other.moves := by
  have moves_eq (path : Path) :
      path.steps.filter (fun step => step ≠ .root ∧ step ≠ .here) = path.moves := by
    have moved : path.moves.filter (fun step => step ≠ .root ∧ step ≠ .here) = path.moves :=
      List.filter_eq_self.mpr fun step held => by simpa using move_of_mem held
    rw [steps_eq, List.filter_append, moved, lead]
    split
    next => rfl
    next => split <;> rfl
  rw [← moves_eq, same, moves_eq]

theorem steps_join_congr (directory : Path) {path other : Path} (relative : path.isAbsolute = false)
    (same : path.steps = other.steps) :
    (directory.join path).steps = (directory.join other).steps := by
  have relativeToo : other.isAbsolute = false := is_absolute_of_steps same ▸ relative
  by_cases written : directory.text = ""
  · have empty : directory = ⟨""⟩ := congrArg Path.mk written
    rw [empty, join_empty, join_empty, same]
  · rw [steps_eq, steps_eq, lead_join relative written, lead_join relativeToo written,
      moves_join relative, moves_join relativeToo, moves_of_steps same]

theorem steps_join_join {directory path : Path} (relative : path.isAbsolute = false)
    (below : directory.isAbsolute = false) :
    (directory.join (directory.join path)).steps = (directory.join path).steps ↔
      directory.moves = [] := by
  have relativeToo : (directory.join path).isAbsolute = false := by
    rw [is_absolute_join relative, below]
  by_cases written : directory.text = ""
  · have empty : directory = ⟨""⟩ := congrArg Path.mk written
    rw [empty, join_empty, join_empty]
    exact iff_of_true rfl (by decide)
  · rw [steps_eq, steps_eq, lead_join relativeToo written, lead_join relative written,
      moves_join relativeToo, List.append_cancel_left_eq]
    exact List.append_left_eq_self

/-! ## Parents -/

/-- Parts without those at the end that mean nothing. -/
def trimmed (parts : List (List Char)) : List (List Char) :=
  (dropTrailing parts.reverse).reverse

theorem trimmed_concat {name : List Char} (named : stepOf? name = some (.name name))
    (front : List (List Char)) : dropTrailing (front ++ [name]).reverse = name :: front.reverse := by
  simp [dropTrailing, named]

theorem trimmed_starts (parts : List (List Char)) : trimmed parts <+: parts := by
  rw [trimmed, ← List.reverse_suffix, List.reverse_reverse]
  exact List.dropWhile_suffix _

theorem trimmed_moves (parts : List (List Char)) :
    (trimmed parts).filterMap stepOf? = parts.filterMap stepOf? := by
  induction parts using List.reverseRecOn with
  | nil => rfl
  | append_singleton parts last ih =>
      cases means : stepOf? last with
      | none =>
          have same : trimmed (parts ++ [last]) = trimmed parts := by
            simp [trimmed, dropTrailing, means]
          rw [same, ih, List.filterMap_append, List.filterMap_cons_none means]
          simp
      | some step => simp [trimmed, dropTrailing, means]

theorem moves_join_names {names : List (List Char)} (whole : ∀ name ∈ names, '/' ∉ name) :
    (split (joinNames names)).filterMap stepOf? = names.filterMap stepOf? := by
  cases names with
  | nil => rfl
  | cons name rest => rw [split_join_names (List.cons_ne_nil _ _) whole]

/-- What is written in front of the parts that remain of a path's directory. -/
def opening (path : Path) : List Char :=
  if path.isAbsolute then ['/']
  else if (split path.text.toList).head? = some ['.'] then ['.']
  else []

theorem parent_of_split {path : Path} {front : List (List Char)} {name : List Char}
    (splits : split (path.text.toList.drop path.opening.length) = front ++ [name])
    (named : stepOf? name = some (.name name)) :
    path.parent? = some ⟨String.ofList (path.opening ++ joinNames (trimmed front))⟩ := by
  have parts := trimmed_concat named front
  rw [← splits, opening] at parts
  unfold parent?
  simp only [parts]
  rfl

/-- Only an empty text and one that starts with a separator have an empty first part. -/
theorem head_split_eq_nil {chars : List Char} :
    (split chars).head? = some [] ↔ chars = [] ∨ chars.head? = some '/' := by
  cases chars with
  | nil => simp [split]
  | cons c rest =>
      by_cases slash : c = '/'
      · simp [slash, split_slash_cons]
      · obtain ⟨part, parts, splits⟩ := List.exists_cons_of_ne_nil (split_ne_nil rest)
        simp [split_cons_of_ne slash splits, slash]

/-- The path names something in the directory. -/
structure IsIn (path directory : Path) (name : List Char) : Prop where
  parent : path.parent? = some directory
  absolute : directory.isAbsolute = path.isAbsolute
  moves : path.moves = directory.moves ++ [.name name]

section

variable {path : Path} {front others : List (List Char)} {name : List Char}

theorem moves_of_split (splits : split path.text.toList = front ++ [name])
    (named : stepOf? name = some (.name name)) :
    path.moves = front.filterMap stepOf? ++ [.name name] := by
  rw [Path.moves, splits, List.filterMap_append, List.filterMap_cons_some named]
  rfl

theorem whole_of_split (splits : split path.text.toList = front ++ [name]) :
    ∀ part ∈ front, '/' ∉ part := by
  intro part held slash
  have inPath : part ∈ split path.text.toList := by simp [splits, held]
  exact (mem_of_mem_split inPath slash).2 rfl

theorem is_in_root (absolute : path.isAbsolute = true)
    (splits : split path.text.toList = [] :: others ++ [name])
    (named : stepOf? name = some (.name name)) :
    path.IsIn ⟨String.ofList ('/' :: joinNames (trimmed others))⟩ name := by
  have opens : path.opening = ['/'] := by simp [opening, absolute]
  obtain ⟨rest, text⟩ : ∃ rest, path.text.toList = '/' :: rest := by
    rw [isAbsolute, decide_eq_true_eq, List.head?_eq_some_iff] at absolute
    exact absolute
  have below : split (path.text.toList.drop path.opening.length) = others ++ [name] := by
    rw [text, split_slash_cons, List.cons_append, List.cons_inj_right] at splits
    simpa [opens, text] using splits
  refine ⟨by simpa [opens] using parent_of_split below named, ?_, ?_⟩
  · rw [absolute]
    exact is_absolute_of_list.mpr rfl
  · have whole : ∀ part ∈ trimmed others, '/' ∉ part := fun part held =>
      whole_of_split splits part (List.mem_cons_of_mem _ ((trimmed_starts others).subset held))
    rw [moves_of_split splits named, Path.moves, String.toList_ofList, split_slash_cons]
    simp [moves_join_names whole, trimmed_moves, stepOf?]

theorem split_dot {chars : List Char} {parts : List (List Char)}
    (splits : split chars = ['.'] :: parts) :
    ∃ rest, chars = '.' :: rest ∧ split rest = [] :: parts := by
  cases chars with
  | nil => simp [split] at splits
  | cons c rest =>
      by_cases slash : c = '/'
      · simp [slash, split_slash_cons] at splits
      · obtain ⟨part, later, below⟩ := List.exists_cons_of_ne_nil (split_ne_nil rest)
        rw [split_cons_of_ne slash below] at splits
        simp only [List.cons.injEq] at splits
        obtain ⟨⟨rfl, rfl⟩, rfl⟩ := splits
        exact ⟨rest, rfl, below⟩

/-- A dot in front of parts of which the first is empty is a part of its own. -/
theorem moves_dot_join_names {names : List (List Char)} (whole : ∀ name ∈ names, '/' ∉ name)
    (opens : names <+: [] :: others) :
    (split ('.' :: joinNames names)).filterMap stepOf? = names.filterMap stepOf? := by
  rcases List.prefix_cons_iff.mp opens with rfl | ⟨rest, rfl, _⟩
  · decide
  · have parts := split_join_names (List.cons_ne_nil _ _) whole
    rw [split_cons_of_ne (by decide) parts]
    simp [stepOf?]

theorem is_in_dot (relative : path.isAbsolute = false)
    (splits : split path.text.toList = ['.'] :: others ++ [name])
    (named : stepOf? name = some (.name name)) :
    path.IsIn ⟨String.ofList ('.' :: joinNames (trimmed ([] :: others)))⟩ name := by
  have opens : path.opening = ['.'] := by simp [opening, relative, splits]
  obtain ⟨rest, text, restSplits⟩ := split_dot splits
  have below : split (path.text.toList.drop path.opening.length) = ([] :: others) ++ [name] := by
    simpa [opens, text] using restSplits
  refine ⟨by simpa [opens] using parent_of_split below named, ?_, ?_⟩
  · rw [relative]
    simp [isAbsolute]
  · have inOthers := trimmed_starts ([] :: others)
    have whole : ∀ part ∈ trimmed ([] :: others), '/' ∉ part := by
      intro part held
      rcases List.mem_cons.mp (inOthers.subset held) with rfl | later
      · exact List.not_mem_nil
      · exact whole_of_split splits part (List.mem_cons_of_mem _ later)
    rw [moves_of_split splits named, Path.moves, String.toList_ofList,
      moves_dot_join_names whole inOthers, trimmed_moves]
    simp [stepOf?]

/-- A text that starts with a separator has an empty first part, and then the whole path starts with
a separator too. -/
theorem is_absolute_trimmed (relative : path.isAbsolute = false)
    (splits : split path.text.toList = front ++ [name]) :
    isAbsolute ⟨String.ofList (joinNames (trimmed front))⟩ = false := by
  refine Bool.eq_false_iff.mpr fun rooted => ?_
  have slash := is_absolute_of_list.mp rooted
  cases kept : trimmed front with
  | nil => simp [kept, joinNames] at slash
  | cons part later =>
      have whole : ∀ part ∈ trimmed front, '/' ∉ part := fun part held =>
        whole_of_split splits part ((trimmed_starts front).subset held)
      have empty := head_split_eq_nil.mpr (.inr slash)
      rw [split_join_names (by simp [kept]) whole, kept, List.head?_cons, Option.some.injEq]
        at empty
      obtain ⟨after, front_eq⟩ := trimmed_starts front
      rw [kept, empty] at front_eq
      rw [← front_eq] at splits
      rcases head_split_eq_nil.mp (congrArg List.head? splits) with nothing | opened
      · simp [nothing, split] at splits
      · simp [isAbsolute, opened] at relative

theorem is_in_plain (relative : path.isAbsolute = false) (undotted : front.head? ≠ some ['.'])
    (splits : split path.text.toList = front ++ [name])
    (named : stepOf? name = some (.name name)) :
    path.IsIn ⟨String.ofList (joinNames (trimmed front))⟩ name := by
  have first : (split path.text.toList).head? ≠ some ['.'] := by
    rw [splits]
    cases front with
    | nil =>
        intro same
        cases Option.some.inj same
        simp [stepOf?] at named
    | cons part others => simpa using undotted
  have opens : path.opening = [] := by simp [opening, relative, first]
  have below : split (path.text.toList.drop path.opening.length) = front ++ [name] := by
    simpa [opens] using splits
  refine ⟨by simpa [opens] using parent_of_split below named, ?_, ?_⟩
  · rw [relative, is_absolute_trimmed relative splits]
  · have whole : ∀ part ∈ trimmed front, '/' ∉ part := fun part held =>
      whole_of_split splits part ((trimmed_starts front).subset held)
    rw [moves_of_split splits named, Path.moves, String.toList_ofList, moves_join_names whole,
      trimmed_moves]

end

/-- A path that ends in a name has a directory, which starts where the path does. -/
theorem is_in_of_name {path : Path} {front : List (List Char)} {name : List Char}
    (splits : split path.text.toList = front ++ [name])
    (named : stepOf? name = some (.name name)) : ∃ directory, path.IsIn directory name := by
  cases absolute : path.isAbsolute with
  | true =>
      have slash : path.text.toList.head? = some '/' := by simpa [isAbsolute] using absolute
      have first := head_split_eq_nil.mpr (.inr slash)
      cases front with
      | nil =>
          rw [splits] at first
          cases Option.some.inj first
          simp [stepOf?] at named
      | cons part others =>
          rw [splits] at first
          cases Option.some.inj first
          exact ⟨_, is_in_root absolute splits named⟩
  | false =>
      by_cases dotted : front.head? = some ['.']
      · obtain ⟨others, rfl⟩ := List.head?_eq_some_iff.mp dotted
        exact ⟨_, is_in_dot absolute splits named⟩
      · exact ⟨_, is_in_plain absolute dotted splits named⟩

end Path

end ShaderCache
