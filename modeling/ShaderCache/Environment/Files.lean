import ShaderCache.Environment.Format
import ShaderCache.Files.Tree

/-!
# Environments in files

Relative search directories in a file mean directories next to it.
-/

set_option autoImplicit false

namespace ShaderCache

inductive EnvironmentError where
  | file (error : FileError)
  | invalid (path : Path)

namespace EnvironmentError

def message : EnvironmentError → String
  | .file error => error.message
  | .invalid path => s!"Invalid runtime environment `{path.text}`"

end EnvironmentError

namespace Environment

def anchorPath (anchor path : Path) : Path :=
  if path.isRelative then anchor.join path else path

/-- Takes relative search directories from the directory of the file. -/
def anchoredAt (environment : Environment) (file : Path) : Environment :=
  match file.parent? with
  | some directory =>
      { environment with shaderPath := environment.shaderPath.map (anchorPath directory) }
  | none => environment

def load (tree : FileTree) (file : Path) : Except EnvironmentError Environment := do
  let bytes ← (tree.read file).mapError .file
  match ofYaml? bytes with
  | some environment => .ok (environment.anchoredAt file)
  | none => .error (.invalid file)

def save (environment : Environment) (tree : FileTree) (file : Path) :
    Except EnvironmentError FileTree :=
  (tree.write file environment.toYaml).mapError .file

end Environment

end ShaderCache
