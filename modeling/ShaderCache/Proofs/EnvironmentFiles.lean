import ShaderCache.Environment.Files
import ShaderCache.Proofs.FileWrites
import ShaderCache.Proofs.PathParents

/-!
# Environments that are saved again

Loading an environment anchors its relative search directories at the directory of the file. What
is saved afterwards has them anchored, and if they are relative still, the next one to load them
anchors them again.
-/

set_option autoImplicit false

namespace ShaderCache

namespace Environment

/-! ## Equal environments -/

theorem paths_beq_iff {paths others : List Path} :
    (paths == others) = true ↔ paths.map Path.steps = others.map Path.steps := by
  induction paths generalizing others with
  | nil => cases others <;> simp
  | cons path rest ih =>
      cases others with
      | nil => simp
      | cons other more =>
          rw [List.cons_beq_cons, Bool.and_eq_true, Path.beq_iff_steps, ih, List.map_cons,
            List.map_cons, List.cons.injEq]

theorem beq_iff {left right : Environment} :
    (left == right) = true ↔
      left.shaderPath.map Path.steps = right.shaderPath.map Path.steps ∧
        ({ left with shaderPath := [] } : Environment) = { right with shaderPath := [] } := by
  change (_ && _ && _ && _ && _ && _ && _) = true ↔ _
  simp only [Bool.and_eq_true, paths_beq_iff, beq_iff_eq, Environment.mk.injEq, true_and,
    and_assoc]

theorem beq_congr_left {left right : Environment} (same : (left == right) = true)
    (other : Environment) : (left == other) = true ↔ (right == other) = true := by
  obtain ⟨paths, others⟩ := beq_iff.mp same
  rw [beq_iff, beq_iff, paths, others]

theorem is_restored_iff {environment : Environment} :
    environment.isRestored = true ↔
      ∃ read, ofYaml? environment.toYaml = some read ∧ (read == environment) = true := by
  unfold isRestored
  cases ofYaml? environment.toYaml <;> simp

/-- The environment that characters describe. Evaluating it needs no bytes. -/
def ofCharacters? (chars : List Char) : Option Environment := do
  let glyphs ← if chars.all Yaml.isAllowed then some (Yaml.place 0 0 0 chars) else none
  let tokens ← Yaml.Scanner.run? (glyphs.length + 1) {} glyphs
  let (root, _) ← (Yaml.Reading.document (4 * tokens.length + 4)).run { tokens := tokens }
  ofNode? (.ofRoot root) (Yaml.Document.ofRoot root).root

theorem of_yaml_of_list (chars : List Char) :
    ofYaml? (Text.utf8 (String.ofList chars)) = ofCharacters? chars := by
  have placed : Yaml.glyphs? (String.ofList chars) =
      if chars.all Yaml.isAllowed then some (Yaml.place 0 0 0 chars) else none := by
    rw [Yaml.glyphs?, String.toList_ofList]
  simp only [ofYaml?, Text.ofUtf8?_utf8, Yaml.document?, Yaml.tokens?, placed, ofCharacters?,
    Option.bind_eq_bind, Option.bind_some, Option.bind_assoc]
  split <;> rfl

theorem is_restored_of_characters (environment : Environment) :
    environment.isRestored =
      (ofCharacters? (Yaml.renderEntries 0 environment.fieldValues)).any (· == environment) := by
  have same : ofYaml? environment.toYaml =
      ofCharacters? (Yaml.renderEntries 0 environment.fieldValues) :=
    of_yaml_of_list _
  unfold isRestored
  rw [← same]
  cases ofYaml? environment.toYaml <;> rfl

/-! ## Anchors -/

theorem anchor_path_congr (directory : Path) {path other : Path}
    (same : path.steps = other.steps) :
    (anchorPath directory path).steps = (anchorPath directory other).steps := by
  have alike := Path.is_absolute_of_steps same
  cases absolute : path.isAbsolute with
  | true => simpa [anchorPath, Path.isRelative, ← alike, absolute] using same
  | false =>
      simpa [anchorPath, Path.isRelative, ← alike, absolute] using
        Path.steps_join_congr directory absolute same

theorem anchor_path_absolute {directory : Path} (absolute : directory.isAbsolute = true)
    (path : Path) : (anchorPath directory path).isAbsolute = true := by
  unfold anchorPath Path.isRelative
  cases relative : path.isAbsolute with
  | true => simp [relative]
  | false => simp [Path.is_absolute_join relative, absolute]

theorem anchor_paths_congr (directory : Path) {paths others : List Path}
    (same : paths.map Path.steps = others.map Path.steps) :
    (paths.map (anchorPath directory)).map Path.steps =
      (others.map (anchorPath directory)).map Path.steps := by
  induction paths generalizing others with
  | nil => simp_all
  | cons path rest ih =>
      cases others with
      | nil => simp at same
      | cons other more =>
          obtain ⟨first, later⟩ := List.cons.inj same
          rw [List.map_cons, List.map_cons, anchor_path_congr directory first, ih later]
          rfl

/-- A second anchor changes nothing on an absolute path, and otherwise leads through the directory
once more. -/
theorem anchor_path_twice (directory path : Path) :
    (anchorPath directory (anchorPath directory path)).steps = (anchorPath directory path).steps ↔
      (anchorPath directory path).isAbsolute = true ∨ directory.moves = [] := by
  cases absolute : (anchorPath directory path).isAbsolute with
  | true =>
      rw [anchorPath, Path.isRelative, absolute]
      simp
  | false =>
      have below : directory.isAbsolute = false := by
        refine Bool.eq_false_iff.mpr fun top => ?_
        simp [anchor_path_absolute top] at absolute
      have relative : path.isAbsolute = false := by
        refine Bool.eq_false_iff.mpr fun top => ?_
        simp [anchorPath, Path.isRelative, top] at absolute
      have once : anchorPath directory path = directory.join path := by
        simp [anchorPath, Path.isRelative, relative]
      have twice : anchorPath directory (anchorPath directory path) =
          directory.join (directory.join path) := by
        rw [anchorPath, Path.isRelative, absolute, once]
        simp
      rw [twice, once, Path.steps_join_join relative below]
      simp

section

variable {file directory : Path} {name : List Char} (isIn : file.IsIn directory name)
include isIn

theorem anchored_at_eq (environment : Environment) :
    environment.anchoredAt file =
      { environment with shaderPath := environment.shaderPath.map (anchorPath directory) } := by
  rw [anchoredAt, isIn.parent]

theorem anchored_at_congr {left right : Environment} (same : (left == right) = true) :
    (left.anchoredAt file == right.anchoredAt file) = true := by
  obtain ⟨paths, others⟩ := beq_iff.mp same
  rw [anchored_at_eq isIn, anchored_at_eq isIn]
  exact beq_iff.mpr ⟨anchor_paths_congr directory paths, others⟩

theorem anchored_at_twice (environment : Environment) :
    let anchored := environment.anchoredAt file
    (anchored.anchoredAt file == anchored) = true ↔
      ∀ path ∈ anchored.shaderPath, path.isAbsolute = true ∨ directory.moves = [] := by
  intro anchored
  rw [anchored_at_eq isIn anchored, beq_iff]
  simp only [and_true, List.map_map]
  rw [List.map_eq_map_iff]
  simp only [anchored, anchored_at_eq isIn, List.forall_mem_map]
  exact forall₂_congr fun path _ => anchor_path_twice directory path

/-- A second anchor at the directory of a file makes no difference exactly if the file is absolute,
or is named by its name alone but for dots, or the search directories are absolute. -/
theorem anchored_at_stable_iff (environment : Environment) :
    let anchored := environment.anchoredAt file
    (anchored.anchoredAt file == anchored) = true ↔
      file.isAbsolute = true ∨ file.moves.length = 1 ∨
        ∀ path ∈ anchored.shaderPath, path.isAbsolute = true := by
  intro anchored
  have bare : file.moves.length = 1 ↔ directory.moves = [] := by
    simp [isIn.moves]
  have rooted : file.isAbsolute = true →
      ∀ path ∈ anchored.shaderPath, path.isAbsolute = true := by
    intro absolute
    simp only [anchored, anchored_at_eq isIn, List.forall_mem_map]
    exact fun path _ => anchor_path_absolute (isIn.absolute.trans absolute) path
  refine (anchored_at_twice isIn environment).trans ?_
  rw [bare]
  by_cases unmoved : directory.moves = []
  · simp [unmoved]
  · simp only [unmoved, or_false, false_or]
    exact ⟨.inr, fun either => either.elim rooted id⟩

end

/-! ## Loading again -/

theorem load_iff {tree : FileTree} {file : Path} {environment : Environment} :
    load tree file = .ok environment ↔ ∃ bytes written, tree.read file = .ok bytes ∧
      ofYaml? bytes = some written ∧ written.anchoredAt file = environment := by
  unfold load
  cases tree.read file with
  | error error => simp [bind, Except.bind, Except.mapError]
  | ok bytes =>
      cases described : ofYaml? bytes with
      | none => simp [bind, Except.bind, Except.mapError, described]
      | some written => simp [bind, Except.bind, Except.mapError, described]

theorem is_in_of_read {tree : FileTree} (closed : tree.Closed) {file : Path} {bytes : List UInt8}
    (present : tree.read file = .ok bytes) : ∃ directory name, file.IsIn directory name := by
  obtain ⟨place, located, found⟩ := FileTree.read_iff.mp present
  obtain ⟨name, _, _, names⟩ := closed.names_of_file located found
  obtain ⟨front, splits, _⟩ := names.parts
  obtain ⟨directory, isIn⟩ := Path.is_in_of_name splits names.named
  exact ⟨directory, name, isIn⟩

theorem load_of_save {tree : FileTree} (closed : tree.Closed) {file : Path}
    {environment : Environment} (loaded : load tree file = .ok environment)
    (restored : environment.isRestored = true) :
    ∃ saved again, environment.save tree file = .ok saved ∧ load saved file = .ok again ∧
      (again == environment.anchoredAt file) = true := by
  obtain ⟨bytes, written, present, _, _⟩ := load_iff.mp loaded
  obtain ⟨directory, name, isIn⟩ := is_in_of_read closed present
  obtain ⟨read, again, same⟩ := is_restored_iff.mp restored
  obtain ⟨saved, writes⟩ := closed.write_of_read present environment.toYaml
  have reads := FileTree.read_of_write writes
  refine ⟨saved, read.anchoredAt file, by rw [save, writes]; rfl, ?_, anchored_at_congr isIn same⟩
  exact load_iff.mpr ⟨_, read, reads, again, rfl⟩

/-- Suppose an environment that was loaded from a file is restored from what is written of it. It
can be saved to the file and loaded again, which anchors its search directories once more. That
makes no difference exactly if the file is named by an absolute path, or by its name alone but for
dots, or if no search directory is relative. -/
theorem load_after_save {tree : FileTree} (closed : tree.Closed) {file : Path}
    {environment : Environment} (loaded : load tree file = .ok environment)
    (restored : environment.isRestored = true) :
    ∃ saved again, environment.save tree file = .ok saved ∧ load saved file = .ok again ∧
      (again == environment.anchoredAt file) = true ∧
      ((again == environment) = true ↔ file.isAbsolute = true ∨ file.moves.length = 1 ∨
        ∀ path ∈ environment.shaderPath, path.isAbsolute = true) := by
  obtain ⟨saved, again, saves, loads, anchored⟩ := load_of_save closed loaded restored
  refine ⟨saved, again, saves, loads, anchored, ?_⟩
  obtain ⟨bytes, written, present, _, rfl⟩ := load_iff.mp loaded
  obtain ⟨directory, name, isIn⟩ := is_in_of_read closed present
  rw [beq_congr_left anchored]
  exact anchored_at_stable_iff isIn written

/-- The file is named by its name alone. Saved and loaded again, its environment is the same. -/
theorem load_after_save_by_name :
    let tree := (FileTree.rootedAt ⟨"/work"⟩).makeFile ⟨"/work/env.yaml"⟩
      (Text.utf8 "shaderPath: [lib, /opt/lib]\n")
    let file : Path := ⟨"./env.yaml"⟩
    ∃ environment saved again, load tree file = .ok environment ∧
      environment.shaderPath.map Path.text = ["./lib", "/opt/lib"] ∧
      environment.save tree file = .ok saved ∧ load saved file = .ok again ∧
      (again == environment) = true := by
  intro tree file
  have facts : (load tree file).toOption.map (fun environment =>
      (environment.shaderPath.map Path.text, environment.isRestored)) =
      some (["./lib", "/opt/lib"], true) := by
    simp only [is_restored_of_characters]
    decide +kernel
  cases loaded : load tree file with
  | error error => simp [loaded, Except.toOption] at facts
  | ok environment =>
      simp only [loaded, Except.toOption, Option.map_some, Option.some.injEq, Prod.mk.injEq]
        at facts
      obtain ⟨paths, restored⟩ := facts
      obtain ⟨saved, again, saves, loads, _, stable⟩ :=
        load_after_save ((FileTree.closed_rooted_at _).make_file _ _) loaded restored
      exact ⟨environment, saved, again, rfl, paths, saves, loads,
        stable.mpr (.inr (.inl (by decide)))⟩

/-- A relative search directory of a file in another directory is anchored at each load, so that
what is loaded after saving is not what was saved. -/
theorem load_after_save_anchors_again :
    let tree := (FileTree.rootedAt ⟨"/work"⟩).makeFile ⟨"/work/conf/env.yaml"⟩
      (Text.utf8 "shaderPath: [lib]\n")
    let file : Path := ⟨"conf/env.yaml"⟩
    ∃ environment saved again, load tree file = .ok environment ∧
      environment.isRestored = true ∧ environment.save tree file = .ok saved ∧
      load saved file = .ok again ∧ environment.shaderPath = [⟨"conf/lib"⟩] ∧
      (again.shaderPath == [⟨"conf/conf/lib"⟩]) = true ∧ (again == environment) = false := by
  intro tree file
  have facts : (load tree file).toOption.map (fun environment =>
      (environment.shaderPath.map Path.text, environment.isRestored)) =
      some (["conf/lib"], true) := by
    simp only [is_restored_of_characters]
    decide +kernel
  obtain ⟨⟨_⟩, parent, rfl⟩ : ∃ directory, file.parent? = some directory ∧
      directory.text = "conf" :=
    Option.map_eq_some_iff.mp (by decide +kernel)
  cases loaded : load tree file with
  | error error => simp [loaded, Except.toOption] at facts
  | ok environment =>
      simp only [loaded, Except.toOption, Option.map_some, Option.some.injEq, Prod.mk.injEq]
        at facts
      obtain ⟨texts, restored⟩ := facts
      obtain ⟨saved, again, saves, loads, anchored⟩ :=
        load_of_save ((FileTree.closed_rooted_at _).make_file _ _) loaded restored
      obtain ⟨⟨_⟩, paths, rfl⟩ := List.map_eq_singleton_iff.mp texts
      have anchor : (environment.anchoredAt file).shaderPath =
          [anchorPath ⟨"conf"⟩ ⟨"conf/lib"⟩] := by
        rw [anchoredAt, parent, paths]
        rfl
      have moved : again.shaderPath.map Path.steps =
          [(⟨"conf/conf/lib"⟩ : Path)].map Path.steps := by
        rw [(beq_iff.mp anchored).1, anchor]
        decide +kernel
      refine ⟨environment, saved, again, rfl, restored, saves, loads, paths,
        paths_beq_iff.mpr moved, Bool.eq_false_iff.mpr fun same => ?_⟩
      have unmoved := (beq_iff.mp same).1
      rw [moved, paths] at unmoved
      exact absurd unmoved (by decide +kernel)

end Environment

end ShaderCache
