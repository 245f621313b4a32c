import ShaderCache.Proofs.SearchDirectories

/-!
# Writing files

A file is written to the directory that a path leads to, under the name that the path ends in. The
path leads to the file then, and whatever led somewhere before still does. In a tree whose entries
are all in directories, which every tree that is made or written to is, a path to a file always ends
in a name and can be written to.
-/

set_option autoImplicit false

namespace ShaderCache

namespace FileTree

open ShaderCache.Path (stepOf?)

/-- Whatever the tree has is in a directory. -/
def Closed (tree : FileTree) : Prop :=
  ∀ held ∈ tree.entries, tree.entry? held.1.tail = some .directory

variable {tree : FileTree}

theorem entry_inside {place : Place} (inside : place ≠ []) :
    tree.entry? place = tree.entries.lookup place :=
  if_neg inside

theorem Closed.outer (closed : tree.Closed) {place : Place} {entry : FileEntry}
    (found : tree.entry? place = some entry) : tree.entry? place.tail = some .directory := by
  cases place with
  | nil => rfl
  | cons name outer =>
      rw [entry_inside (List.cons_ne_nil name outer)] at found
      obtain ⟨before, after, entries, _⟩ := List.lookup_eq_some_iff.mp found
      exact closed (name :: outer, entry) (by simp [entries])

/-! ## Names of files -/

theorem follow_all_concat {place last : Place} {front : List (List Char)} {part : List Char} :
    tree.followAll place (front ++ [part]) = .ok last ↔
      ∃ directory, tree.followAll place front = .ok directory ∧
        tree.follow directory part = .ok last := by
  simp only [followAll, List.foldlM_append, List.foldlM_cons, List.foldlM_nil, bind_pure]
  cases List.foldlM tree.follow place front with
  | error error => simp [bind, Except.bind]
  | ok directory => simp [bind, Except.bind]

/-- The path leads to the directory and ends in a name that something there can have. -/
structure Names (tree : FileTree) (path : Path) (name : List Char) (directory : Place) : Prop where
  walkable : Walkable path
  parts : ∃ front, Path.split path.text.toList = front ++ [name] ∧
    tree.followAll (tree.startOf path) front = .ok directory
  isDirectory : tree.entry? directory = some .directory
  named : stepOf? name = some (.name name)
  short : isTooLong name = false

/-- Neither nothing nor a move up leads from a directory to a file. -/
theorem Closed.names_of_file (closed : tree.Closed) {path : Path} {place : Place}
    {content : List UInt8} (located : tree.locate path = .ok place)
    (found : tree.entry? place = some (.file content)) :
    ∃ name directory, place = name :: directory ∧ tree.Names path name directory := by
  obtain ⟨walkable, followed⟩ := locate_iff.mp located
  obtain ⟨front, name, parts⟩ :=
    (List.eq_nil_or_concat (Path.split path.text.toList)).resolve_left (Path.split_ne_nil _)
  rw [parts, List.concat_eq_append] at followed
  obtain ⟨directory, outer, last⟩ := follow_all_concat.mp followed
  obtain ⟨isDirectory, follows⟩ := follow_iff.mp last
  cases follows with
  | stays nothing => simp [isDirectory] at found
  | rises up => simp [closed.outer isDirectory] at found
  | enters named short there =>
      rw [List.concat_eq_append] at parts
      exact ⟨name, directory, rfl, walkable, ⟨front, parts, outer⟩, isDirectory, named, short⟩

/-! ## What a write does -/

theorem directory_at_iff {place directory : Place} :
    tree.directoryAt place = .ok directory ↔
      tree.entry? place = some .directory ∧ directory = place := by
  unfold directoryAt
  cases tree.entry? place with
  | none => simp
  | some entry => cases entry <;> simp [eq_comm]

/-- Separators at the end are skipped at first and refused later, so nothing is skipped in the
end. -/
theorem last_of_parts {parts before : List (List Char)} {last : List Char}
    (kept : parts.reverse.dropWhile (· = []) = last :: before)
    (ended : parts.getLast? ≠ some []) : parts = before.reverse ++ [last] := by
  cases reversed : parts.reverse with
  | nil => simp [reversed] at kept
  | cons part others =>
      have something : part ≠ [] := by
        rintro rfl
        rw [List.getLast?_eq_head?_reverse, reversed] at ended
        exact ended rfl
      rw [reversed, List.dropWhile_cons_of_neg (by simpa using something)] at kept
      rw [← List.reverse_reverse parts, reversed, kept, List.reverse_cons]

theorem names_of_write {path : Path} {content : List UInt8} {written : FileTree}
    (writes : tree.write path content = .ok written) :
    ∃ name directory, tree.Names path name directory ∧
      tree.entry? (name :: directory) ≠ some .directory ∧
      written = tree.put (name :: directory) (.file content) := by
  unfold write at writes
  cases taken : partsOf path with
  | error error => simp [taken, bind, Except.bind] at writes
  | ok parts =>
      obtain ⟨walkable, splits⟩ := parts_of_iff.mp taken
      simp only [taken, bind, Except.bind] at writes
      split at writes
      next => simp at writes
      next last before kept =>
        split at writes
        next => simp at writes
        next reached leads =>
          split at writes
          next => simp at writes
          next directory there =>
            obtain ⟨isDirectory, rfl⟩ := directory_at_iff.mp there
            split at writes
            next => simp at writes
            next plain =>
              obtain ⟨notDot, notUp, ended⟩ : last ≠ ['.'] ∧ last ≠ ['.', '.'] ∧
                  parts.getLast? ≠ some [] := by
                simpa only [not_or] using plain
              split at writes
              next => simp at writes
              next short =>
                split at writes
                next => simp at writes
                next free =>
                  cases writes
                  have whole := last_of_parts kept ended
                  have something : last ≠ [] := by
                    rintro rfl
                    simp [whole] at ended
                  have named : stepOf? last = some (.name last) :=
                    Path.step_name_iff.mpr ⟨by simp [something, notDot], notUp⟩
                  exact ⟨last, directory, ⟨walkable, ⟨before.reverse, splits ▸ whole, leads⟩,
                    isDirectory, named, by simpa using short⟩, free, rfl⟩

theorem write_iff {path : Path} {content : List UInt8} {written : FileTree} :
    tree.write path content = .ok written ↔
      ∃ name directory, tree.Names path name directory ∧
        tree.entry? (name :: directory) ≠ some .directory ∧
        written = tree.put (name :: directory) (.file content) := by
  refine ⟨names_of_write, ?_⟩
  rintro ⟨name, directory, names, free, rfl⟩
  obtain ⟨front, parts, leads⟩ := names.parts
  obtain ⟨something, notUp⟩ := Path.step_name_iff.mp names.named
  rw [not_or] at something
  have taken : partsOf path = .ok (front ++ [name]) :=
    parts_of_iff.mpr ⟨names.walkable, parts.symm⟩
  have reached := directory_at_iff.mpr ⟨names.isDirectory, rfl⟩
  -- What else is at the place is replaced, so that it is no directory is all that is asked.
  simp [write, taken, bind, Except.bind, something, notUp, leads, reached, names.short]

/-! ## Places after a write -/

/-- What leads somewhere in one tree leads there in the other. -/
structure Keeps (tree later : FileTree) : Prop where
  current : later.current = tree.current
  directories : ∀ place, tree.entry? place = some .directory →
    later.entry? place = some .directory
  entries : ∀ place, (tree.entry? place).isSome → (later.entry? place).isSome

theorem Keeps.follow {later : FileTree} (keeps : Keeps tree later) {place next : Place}
    {part : List Char} (followed : tree.follow place part = .ok next) :
    later.follow place part = .ok next := by
  obtain ⟨isDirectory, follows⟩ := follow_iff.mp followed
  refine follow_iff.mpr ⟨keeps.directories place isDirectory, ?_⟩
  cases follows with
  | stays nothing => exact .stays nothing
  | rises up => exact .rises up
  | enters named short there => exact .enters named short (keeps.entries _ there)

theorem Keeps.follow_all {later : FileTree} (keeps : Keeps tree later) {place last : Place}
    {parts : List (List Char)} (followed : tree.followAll place parts = .ok last) :
    later.followAll place parts = .ok last := by
  induction parts generalizing place with
  | nil => exact followed
  | cons part rest ih =>
      obtain ⟨next, first, others⟩ := follow_all_cons.mp followed
      exact follow_all_cons.mpr ⟨next, keeps.follow first, ih others⟩

section

variable {name : List Char} {directory : Place} (entry : FileEntry)

theorem entry_put (other : Place) :
    entry? (tree.put (name :: directory) entry) other =
      if other = name :: directory then some entry else tree.entry? other := by
  by_cases here : other = name :: directory
  · subst here
    rw [entry_inside (List.cons_ne_nil name directory), if_pos rfl]
    simp [put]
  · have elsewhere : (other == name :: directory) = false := by simpa using here
    rw [if_neg here]
    unfold entry?
    simp [put, List.lookup_cons, elsewhere]

variable (free : tree.entry? (name :: directory) ≠ some .directory)
include free

theorem directory_put {other : Place} (isDirectory : tree.entry? other = some .directory) :
    entry? (tree.put (name :: directory) entry) other = some .directory := by
  rw [entry_put, if_neg]
  · exact isDirectory
  · rintro rfl
    exact free isDirectory

theorem keeps_put : Keeps tree (tree.put (name :: directory) entry) := by
  refine ⟨rfl, fun other => directory_put entry free, fun other there => ?_⟩
  rw [entry_put]
  split
  · rfl
  · exact there

/-- Also where there was nothing, the path leads to what is put there. -/
theorem Names.locate_put {path : Path} (names : tree.Names path name directory) :
    (tree.put (name :: directory) entry).locate path = .ok (name :: directory) := by
  have keeps := keeps_put entry free
  obtain ⟨front, parts, leads⟩ := names.parts
  refine locate_iff.mpr ⟨names.walkable, ?_⟩
  rw [parts]
  refine follow_all_concat.mpr ⟨directory, keeps.follow_all leads, follow_iff.mpr ?_⟩
  refine ⟨keeps.directories _ names.isDirectory, .enters names.named names.short ?_⟩
  rw [entry_put, if_pos rfl]
  rfl

theorem Closed.put (closed : tree.Closed) (isDirectory : tree.entry? directory = some .directory) :
    (tree.put (name :: directory) entry).Closed := by
  intro held isHeld
  rcases List.mem_cons.mp isHeld with rfl | former
  · exact directory_put entry free isDirectory
  · exact directory_put entry free (closed held former)

end

/-! ## Reading what was written -/

theorem read_iff {path : Path} {content : List UInt8} :
    tree.read path = .ok content ↔
      ∃ place, tree.locate path = .ok place ∧ tree.entry? place = some (.file content) := by
  unfold read
  cases located : tree.locate path with
  | error error => simp [bind, Except.bind]
  | ok place =>
      cases found : tree.entry? place with
      | none => simp [bind, Except.bind, found]
      | some entry => cases entry <;> simp [bind, Except.bind, found]

/-- What has been written is read. -/
theorem read_of_write {path : Path} {content : List UInt8} {written : FileTree}
    (writes : tree.write path content = .ok written) : written.read path = .ok content := by
  obtain ⟨name, directory, names, free, rfl⟩ := write_iff.mp writes
  refine read_iff.mpr ⟨_, names.locate_put _ free, ?_⟩
  rw [entry_put, if_pos rfl]

/-- A write leaves every entry in a directory. -/
theorem Closed.written (closed : tree.Closed) {path : Path} {content : List UInt8}
    {written : FileTree} (writes : tree.write path content = .ok written) : written.Closed := by
  obtain ⟨name, directory, names, free, rfl⟩ := write_iff.mp writes
  exact closed.put _ free names.isDirectory

/-- Where a file is read, one can be written. -/
theorem Closed.write_of_read (closed : tree.Closed) {path : Path} {old : List UInt8}
    (present : tree.read path = .ok old) (content : List UInt8) :
    ∃ written, tree.write path content = .ok written := by
  obtain ⟨place, located, found⟩ := read_iff.mp present
  obtain ⟨name, directory, rfl, names⟩ := closed.names_of_file located found
  exact ⟨_, write_iff.mpr ⟨name, directory, names, by simp [found], rfl⟩⟩

/-! ## Trees that are made -/

theorem Closed.make_step (closed : tree.Closed) (place : Place) (part : List Char) :
    (makeStep (tree, place) part).1.Closed := by
  cases step : stepOf? part with
  | none => simpa [makeStep, step] using closed
  | some move =>
      cases move with
      | root | here | up => simpa [makeStep, step] using closed
      | name name =>
          simp only [makeStep, step]
          split
          next isDirectory nothing => exact closed.put _ (by simp [nothing]) isDirectory
          next => exact closed

theorem Closed.make_steps (closed : tree.Closed) (place : Place) (parts : List (List Char)) :
    (parts.foldl makeStep (tree, place)).1.Closed := by
  induction parts generalizing tree place with
  | nil => exact closed
  | cons part rest ih => exact ih (closed.make_step place part) _

theorem Closed.make_directories (closed : tree.Closed) (path : Path) :
    (tree.makeDirectories path).Closed :=
  closed.make_steps _ _

theorem Closed.make_parent (closed : tree.Closed) (path : Path) :
    (tree.makeParent path).Closed := by
  unfold makeParent
  split
  next directory _ => exact closed.make_directories directory
  next => exact closed

theorem Closed.make_file (closed : tree.Closed) (path : Path) (content : List UInt8) :
    (tree.makeFile path content).Closed := by
  have made := closed.make_parent path
  unfold makeFile
  cases writes : (tree.makeParent path).write path content with
  | ok written => simpa [writes] using made.written writes
  | error error => simpa [writes] using made

theorem closed_rooted_at (path : Path) : (rootedAt path).Closed := by
  have empty : ({} : FileTree).Closed := by simp [Closed]
  exact empty.make_steps [] (Path.split path.text.toList)

end FileTree

end ShaderCache
