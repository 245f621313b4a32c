import Mathlib.Data.List.Nodup
import ShaderCache.Proofs.SearchDirectories

/-!
# Looking files up

The search directories of a resolver are the normalized ones of those that were added, each at the
place of its first addition. A relative path is looked for in that order, so the first directory
that has it decides, whatever is added later. What is found is a file and is written normalized.
-/

set_option autoImplicit false

namespace ShaderCache

namespace Path

/-! ## Normalized paths -/

theorem normalize_normalize (path : Path) : path.normalize.normalize = path.normalize := by
  rw [normalize_eq path.normalize, is_absolute_normalize, remaining_normalize, ← normalize_eq]

/-- Normalized paths that are the same place are written alike. -/
theorem eq_of_steps_eq {path other : Path} (normal : path.normalize = path)
    (normalToo : other.normalize = other) (same : path.steps = other.steps) : path = other := by
  have absolute := is_absolute_of_steps same
  have names : path.remaining = other.remaining := by
    rw [← collapse_steps, ← collapse_steps, same]
  rw [← normal, ← normalToo, normalize_eq path, normalize_eq other, absolute, names]

end Path

namespace SourceResolver

/-! ## Search directories -/

/-- The paths of a list in normalized form, each where it comes first. -/
def firstNormalized (paths : List Path) : List Path :=
  ((paths.map fun path => path.normalize.text).eraseDups).map Path.mk

section

variable {α : Type} [DecidableEq α]

theorem erase_dups_concat (list : List α) (last : α) :
    (list ++ [last]).eraseDups = list.eraseDups ++ if last ∈ list then [] else [last] := by
  rw [List.eraseDups_append]
  by_cases former : last ∈ list
  · simp [List.removeAll, former]
  · simp [List.removeAll, former, List.eraseDups_cons]

theorem nodup_erase_dups (list : List α) : list.eraseDups.Nodup := by
  induction list using List.reverseRecOn with
  | nil => simp
  | append_singleton list last ih =>
      rw [erase_dups_concat]
      by_cases former : last ∈ list
      · simpa [former] using ih
      · rw [if_neg former, ← List.concat_eq_append]
        exact ih.concat fun held => former (List.mem_eraseDups.mp held)

end

theorem mem_first_normalized {paths : List Path} {directory : Path} :
    directory ∈ firstNormalized paths ↔ ∃ path ∈ paths, path.normalize = directory := by
  simp only [firstNormalized, List.mem_map, List.mem_eraseDups]
  constructor
  · rintro ⟨_, ⟨path, added, rfl⟩, rfl⟩
    exact ⟨path, added, rfl⟩
  · rintro ⟨path, added, rfl⟩
    exact ⟨_, ⟨path, added, rfl⟩, rfl⟩

theorem first_normalized_concat_of_mem {paths : List Path} {path : Path}
    (former : path.normalize ∈ firstNormalized paths) :
    firstNormalized (paths ++ [path]) = firstNormalized paths := by
  obtain ⟨earlier, added, same⟩ := mem_first_normalized.mp former
  have named : path.normalize.text ∈ paths.map fun path => path.normalize.text :=
    List.mem_map.mpr ⟨earlier, added, congrArg Path.text same⟩
  rw [firstNormalized, List.map_append, List.map_singleton, erase_dups_concat, if_pos named,
    List.append_nil, firstNormalized]

theorem first_normalized_concat_of_not_mem {paths : List Path} {path : Path}
    (new : path.normalize ∉ firstNormalized paths) :
    firstNormalized (paths ++ [path]) = firstNormalized paths ++ [path.normalize] := by
  have unnamed : path.normalize.text ∉ paths.map fun path => path.normalize.text := by
    intro named
    obtain ⟨earlier, added, same⟩ := List.mem_map.mp named
    exact new (mem_first_normalized.mpr ⟨earlier, added, congrArg Path.mk same⟩)
  rw [firstNormalized, List.map_append, List.map_singleton, erase_dups_concat, if_neg unnamed,
    List.map_append, firstNormalized]
  rfl

theorem first_normalized_normal {paths : List Path} {directory : Path}
    (held : directory ∈ firstNormalized paths) : directory.normalize = directory := by
  obtain ⟨path, _, rfl⟩ := mem_first_normalized.mp held
  exact path.normalize_normalize

/-- What is compared is the steps, but among normalized paths that is the same. -/
theorem contains_normalize {paths : List Path} {path : Path} :
    (firstNormalized paths).contains path.normalize = true ↔
      path.normalize ∈ firstNormalized paths := by
  rw [List.contains_iff_exists_mem_beq]
  constructor
  · rintro ⟨directory, held, same⟩
    have alike : path.normalize = directory :=
      Path.eq_of_steps_eq path.normalize_normalize (first_normalized_normal held)
        (Path.beq_iff_steps.mp same)
    exact alike ▸ held
  · intro held
    exact ⟨_, held, Path.beq_iff_steps.mpr rfl⟩

theorem of_paths_concat (paths : List Path) (path : Path) :
    ofPaths (paths ++ [path]) = ((ofPaths paths).add path).2 :=
  add_all_append _ _ _

theorem search_paths_of_paths (paths : List Path) :
    (ofPaths paths).searchPaths = firstNormalized paths := by
  induction paths using List.reverseRecOn with
  | nil => rfl
  | append_singleton paths path ih =>
      rw [of_paths_concat, add, ih]
      by_cases former : path.normalize ∈ firstNormalized paths
      · rw [if_pos (contains_normalize.mpr former), ih, first_normalized_concat_of_mem former]
      · rw [if_neg (mt contains_normalize.mp former), first_normalized_concat_of_not_mem former]

theorem add_of_paths (paths : List Path) (path : Path) :
    ((ofPaths paths).add path).1 = true ↔
      ∀ earlier ∈ paths, earlier.normalize ≠ path.normalize := by
  have new : ((ofPaths paths).add path).1 = true ↔
      path.normalize ∉ firstNormalized paths := by
    rw [add, search_paths_of_paths, ← contains_normalize]
    split
    next former => simp [former]
    next new => simp [new]
  rw [new, mem_first_normalized]
  simp

theorem nodup_first_normalized (paths : List Path) :
    ((firstNormalized paths).map Path.steps).Nodup := by
  have texts : (firstNormalized paths).Nodup :=
    (nodup_erase_dups _).map fun _ _ same => congrArg Path.text same
  refine texts.map_on fun directory held other heldToo same => ?_
  exact Path.eq_of_steps_eq (first_normalized_normal held) (first_normalized_normal heldToo) same

theorem add_all_starts (resolver : SourceResolver) (more : List Path) :
    resolver.searchPaths <+: (resolver.addAll more).searchPaths := by
  induction more generalizing resolver with
  | nil => exact List.prefix_rfl
  | cons path rest ih =>
      refine .trans ?_ (ih (resolver.add path).2)
      rw [add_paths]
      exact List.prefix_append _ _

/-! ## Files that are found -/

/-- The directory is the first one under which the path leads to a file. -/
structure FirstWith (tree : FileTree) (directories : List Path) (path directory : Path) :
    Prop where
  file : tree.isFile (directory.join path).normalize = true
  first : ∃ before after, directories = before ++ directory :: after ∧
    ∀ other ∈ before, tree.isFile (other.join path).normalize = false

theorem FirstWith.append {tree : FileTree} {directories : List Path} {path directory : Path}
    (first : FirstWith tree directories path directory) (more : List Path) :
    FirstWith tree (directories ++ more) path directory := by
  obtain ⟨before, after, directories_eq, missing⟩ := first.first
  exact ⟨first.file, before, after ++ more, by simp [directories_eq], missing⟩

variable (resolver : SourceResolver) (tree : FileTree) {path : Path}

theorem candidates_relative (relative : path.isAbsolute = false) :
    resolver.candidates path =
      resolver.searchPaths.map fun directory => (directory.join path).normalize := by
  simp [candidates, Path.normalizeTo, Path.isRelative, relative]

theorem find_relative_iff (relative : path.isAbsolute = false) (found : Path) :
    resolver.find tree path = .ok found ↔
      ∃ directory, FirstWith tree resolver.searchPaths path directory ∧
        found = (directory.join path).normalize := by
  have answered : resolver.find tree path = .ok found ↔
      (resolver.candidates path).find? tree.isFile = some found := by
    simp only [find, relative, Bool.false_eq_true, ↓reduceIte]
    split
    next candidate first => simp [first]
    next missing => simp [missing]
  rw [answered, candidates_relative resolver relative, List.find?_map, Option.map_eq_some_iff]
  constructor
  · rintro ⟨directory, first, rfl⟩
    obtain ⟨isFile, before, after, directories, missing⟩ :=
      List.find?_eq_some_iff_append.mp first
    exact ⟨directory, ⟨isFile, before, after, directories, by simpa using missing⟩, rfl⟩
  · rintro ⟨directory, ⟨isFile, before, after, directories, missing⟩, rfl⟩
    refine ⟨directory, List.find?_eq_some_iff_append.mpr ⟨isFile, before, after, ?_⟩, rfl⟩
    exact ⟨directories, by simpa using missing⟩

theorem find_absolute (absolute : path.isAbsolute = true) :
    resolver.find tree path =
      if tree.isFile path = true then .ok path.normalize else .error (.notFound path) := by
  simp only [find, absolute, ↓reduceIte]

theorem find_error_iff (error : SourceError) :
    resolver.find tree path = .error error ↔ error = .notFound path ∧
      (path.isAbsolute = true ∧ tree.isFile path = false ∨
        path.isAbsolute = false ∧
          ∀ candidate ∈ resolver.candidates path, tree.isFile candidate = false) := by
  have only : (.error (.notFound path) : Except SourceError Path) = .error error ↔
      error = .notFound path := by
    rw [Except.error.injEq, eq_comm]
  cases absolute : path.isAbsolute with
  | true =>
      rw [find_absolute resolver tree absolute]
      cases isFile : tree.isFile path with
      | true => simp
      | false => simp [only]
  | false =>
      simp only [find, absolute, Bool.false_eq_true, ↓reduceIte]
      split
      next found first =>
        have isFile := List.find?_some first
        have candidate := List.mem_of_find?_eq_some first
        refine iff_of_false (by simp) fun missing => ?_
        have absent := (missing.2.resolve_left (by simp)).2 found candidate
        simp [isFile] at absent
      next missing =>
        have absent := List.find?_eq_none.mp missing
        rw [only]
        simpa using fun _ => absent

/-- An answer is a normalized path to a file. -/
structure Found (resolver : SourceResolver) (tree : FileTree) (path found : Path) : Prop where
  normal : found.normalize = found
  file : tree.isFile found = true
  absolute : path.isAbsolute = true →
    found = path.normalize ∧ tree.locate found = tree.locate path
  relative : path.isAbsolute = false →
    ∃ directory, FirstWith tree resolver.searchPaths path directory ∧
      found = (directory.join path).normalize

theorem found_of_find {found : Path} (answered : resolver.find tree path = .ok found) :
    resolver.Found tree path found := by
  cases absolute : path.isAbsolute with
  | true =>
      rw [find_absolute resolver tree absolute] at answered
      split at answered
      next isFile =>
        cases answered
        -- Nothing is above the root, so dropping a name that is left loses nothing.
        have same : tree.locate path.normalize = tree.locate path :=
          FileTree.locate_normalize isFile (.inl (by simp [FileTree.startOf, absolute]))
        obtain ⟨place, content, located, isEntry⟩ := FileTree.file_of_is_file isFile
        exact ⟨path.normalize_normalize, FileTree.is_file_of_located (same.trans located) isEntry,
          fun _ => ⟨rfl, same⟩, by simp [absolute]⟩
      next => simp at answered
  | false =>
      obtain ⟨directory, first, rfl⟩ := (find_relative_iff resolver tree absolute found).mp answered
      exact ⟨Path.normalize_normalize _, first.file, by simp [absolute],
        fun _ => ⟨directory, first, rfl⟩⟩

theorem find_add_all {found : Path} (answered : resolver.find tree path = .ok found)
    (more : List Path) : (resolver.addAll more).find tree path = .ok found := by
  cases absolute : path.isAbsolute with
  | true =>
      rw [find_absolute _ tree absolute] at answered ⊢
      exact answered
  | false =>
      obtain ⟨directory, first, found_eq⟩ :=
        (find_relative_iff resolver tree absolute found).mp answered
      obtain ⟨added, paths⟩ := resolver.add_all_starts more
      refine (find_relative_iff _ tree absolute found).mpr ⟨directory, ?_, found_eq⟩
      rw [← paths]
      exact first.append added

/-- Directories are searched in the order in which they were first added, each one once. A file that
is found is the one under the first directory that has it, and it is found also when more are
added. It is not found exactly if there is none. -/
theorem find_of_paths (tree : FileTree) (paths : List Path) (path : Path) :
    let resolver := ofPaths paths
    (resolver.searchPaths.map Path.steps).Nodup ∧
    (∀ directory ∈ resolver.searchPaths, directory.normalize = directory) ∧
    resolver.searchPaths = firstNormalized paths ∧
    (∀ other, (resolver.add other).1 = true ↔
      ∀ earlier ∈ paths, earlier.normalize ≠ other.normalize) ∧
    (∀ found, resolver.find tree path = .ok found → resolver.Found tree path found ∧
      ∀ more, (resolver.addAll more).find tree path = .ok found) ∧
    ∀ error, resolver.find tree path = .error error ↔ error = .notFound path ∧
      (path.isAbsolute = true ∧ tree.isFile path = false ∨
        path.isAbsolute = false ∧
          ∀ candidate ∈ resolver.candidates path, tree.isFile candidate = false) := by
  intro resolver
  have searched : resolver.searchPaths = firstNormalized paths := search_paths_of_paths paths
  refine ⟨?_, ?_, searched, add_of_paths paths, ?_, find_error_iff resolver tree⟩
  · rw [searched]
    exact nodup_first_normalized paths
  · rw [searched]
    exact fun directory => first_normalized_normal
  · intro found answered
    exact ⟨found_of_find resolver tree answered, find_add_all resolver tree answered⟩

/-- The first of the directories has no such file, and the last one is the second one again. -/
theorem find_in_second_of_four :
    let tree := ((FileTree.rootedAt ⟨"/work"⟩).makeFile ⟨"/work/b/x.slang"⟩ []).makeFile
      ⟨"/work/c/x.slang"⟩ []
    let resolver := ofPaths [⟨"a"⟩, ⟨"c/../b"⟩, ⟨"c"⟩, ⟨"./b/"⟩]
    resolver.searchPaths.map Path.text = ["a", "b", "c"] ∧
      (∀ more, (resolver.addAll more).find tree ⟨"x.slang"⟩ = .ok ⟨"b/x.slang"⟩) ∧
      (∀ more, (resolver.addAll more).find tree ⟨"/work/c/../b/x.slang"⟩ =
        .ok ⟨"/work/b/x.slang"⟩) ∧
      resolver.find tree ⟨"y.slang"⟩ = .error (.notFound ⟨"y.slang"⟩) := by
  intro tree resolver
  have facts := find_of_paths tree [⟨"a"⟩, ⟨"c/../b"⟩, ⟨"c"⟩, ⟨"./b/"⟩]
  have always (path found : String)
      (answered : (resolver.find tree ⟨path⟩).toOption.map Path.text = some found) :
      ∀ more, (resolver.addAll more).find tree ⟨path⟩ = .ok ⟨found⟩ := by
    obtain ⟨_, _, _, _, finds, _⟩ := facts ⟨path⟩
    cases answer : resolver.find tree ⟨path⟩ with
    | error error => simp [answer, Except.toOption] at answered
    | ok other =>
        rw [answer] at answered
        have same : other = ⟨found⟩ := congrArg Path.mk (Option.some.inj answered)
        exact same ▸ (finds other answer).2
  refine ⟨by decide +kernel, always _ _ (by decide +kernel), always _ _ (by decide +kernel), ?_⟩
  obtain ⟨_, _, _, _, _, missing⟩ := facts ⟨"y.slang"⟩
  exact (missing _).mpr ⟨rfl, .inr (by decide +kernel)⟩

end SourceResolver

end ShaderCache
