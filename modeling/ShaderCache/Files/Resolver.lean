import ShaderCache.Files.Tree

/-!
# Locating shader sources

Source files are looked for in an ordered list of search directories. The first
directory that has the file wins.
-/

set_option autoImplicit false

namespace ShaderCache

inductive SourceError where
  | notFound (path : Path)

namespace SourceError

def kind : SourceError → String
  | .notFound _ => "NotFound"

def message : SourceError → String
  | .notFound path => s!"SourceError[not found: {path.text}]"

end SourceError

/-- The search directories, normalized and in the order in which they are tried. -/
structure SourceResolver where
  searchPaths : List Path := []
  deriving Inhabited

namespace SourceResolver

/-- Appends a directory unless it is there already; tells whether it was appended. -/
def add (resolver : SourceResolver) (path : Path) : Bool × SourceResolver :=
  let directory := path.normalize
  if resolver.searchPaths.contains directory then
    (false, resolver)
  else
    (true, ⟨resolver.searchPaths ++ [directory]⟩)

def addAll (resolver : SourceResolver) (paths : List Path) : SourceResolver :=
  paths.foldl (fun built path => (built.add path).2) resolver

def ofPaths (paths : List Path) : SourceResolver :=
  ({} : SourceResolver).addAll paths

theorem add_paths (resolver : SourceResolver) (path : Path) :
    (resolver.add path).2.searchPaths = resolver.searchPaths ++
      (if (resolver.add path).1 = true then [path.normalize] else []) := by
  unfold add
  by_cases there : resolver.searchPaths.contains path.normalize = true
  · rw [if_pos there]
    simp
  · rw [if_neg there]
    simp

theorem add_all_append (resolver : SourceResolver) (paths more : List Path) :
    resolver.addAll (paths ++ more) = (resolver.addAll paths).addAll more :=
  List.foldl_append

def candidates (resolver : SourceResolver) (path : Path) : List Path :=
  resolver.searchPaths.map fun directory => Path.normalizeTo directory path

/-- An absolute path has to be a file itself; a relative one is tried against every search
directory in turn. -/
def find (resolver : SourceResolver) (tree : FileTree) (path : Path) : Except SourceError Path :=
  if path.isAbsolute then
    if tree.isFile path then .ok path.normalize else .error (.notFound path)
  else
    match (resolver.candidates path).find? tree.isFile with
    | some found => .ok found
    | none => .error (.notFound path)

end SourceResolver

def hasShaderExtension (path : Path) : Bool :=
  path.hasExtension "slang" || path.hasExtension "hlsl"

end ShaderCache
