import ShaderCache.Files.Path

/-!
# Directories and files

A tree without links. A place in it is the list of names that lead to it, the innermost
first, so that stepping up drops the head. Paths are walked part by part: every part but
a name asks only that the place is a directory, which also makes `file/` and `file/..`
lead nowhere.
-/

set_option autoImplicit false

namespace ShaderCache

abbrev Place := List (List Char)

inductive FileEntry where
  | directory
  | file (content : List UInt8)

inductive FileError where
  | notFound
  | notADirectory
  | isADirectory
  | invalidPath
  | nameTooLong
  deriving DecidableEq

namespace FileError

def kind : FileError → String
  | .notFound => "NotFound"
  | .notADirectory => "NotADirectory"
  | .isADirectory => "IsADirectory"
  | .invalidPath => "InvalidInput"
  | .nameTooLong => "InvalidFilename"

def message : FileError → String
  | .notFound => "No such file or directory (os error 2)"
  | .notADirectory => "Not a directory (os error 20)"
  | .isADirectory => "Is a directory (os error 21)"
  | .invalidPath => "file name contained an unexpected NUL byte"
  | .nameTooLong => "File name too long (os error 36)"

end FileError

/-- Later entries are in front and hide earlier ones of the same place. -/
structure FileTree where
  entries : List (Place × FileEntry) := []
  current : Place := []

namespace FileTree

/-- The root is always a directory. -/
def entry? (tree : FileTree) (place : Place) : Option FileEntry :=
  if place = [] then some .directory else tree.entries.lookup place

def put (tree : FileTree) (place : Place) (entry : FileEntry) : FileTree :=
  { tree with entries := (place, entry) :: tree.entries }

/-- The directory itself, or what keeps the place from being one. -/
def directoryAt (tree : FileTree) (place : Place) : Except FileError Place :=
  match tree.entry? place with
  | some .directory => .ok place
  | some (.file _) => .error .notADirectory
  | none => .error .notFound

/-- The longest path, in bytes. -/
def pathLimit : Nat := 4095

/-- The longest name of a file or directory, in bytes. -/
def nameLimit : Nat := 255

def isTooLong (name : List Char) : Bool :=
  nameLimit < (String.ofList name).utf8ByteSize

def follow (tree : FileTree) (place : Place) (part : List Char) : Except FileError Place := do
  let directory ← tree.directoryAt place
  if part = [] ∨ part = ['.'] then
    .ok directory
  else if part = ['.', '.'] then
    .ok directory.tail
  else if isTooLong part then
    .error .nameTooLong
  else
    match tree.entry? (part :: directory) with
    | some _ => .ok (part :: directory)
    | none => .error .notFound

def followAll (tree : FileTree) (place : Place) (parts : List (List Char)) :
    Except FileError Place :=
  parts.foldlM tree.follow place

def startOf (tree : FileTree) (path : Path) : Place :=
  if path.isAbsolute then [] else tree.current

/-- The parts to walk; an empty path names nothing, and no name holds a null character. A longer
path than the limit is not walked at all. -/
def partsOf (path : Path) : Except FileError (List (List Char)) :=
  if path.text = "" then .error .notFound
  else if path.text.toList.contains (Char.ofNat 0) then .error .invalidPath
  else if pathLimit < path.text.utf8ByteSize then .error .nameTooLong
  else .ok (Path.split path.text.toList)

def locate (tree : FileTree) (path : Path) : Except FileError Place := do
  let parts ← partsOf path
  tree.followAll (tree.startOf path) parts

def isFile (tree : FileTree) (path : Path) : Bool :=
  match tree.locate path with
  | .ok place =>
      match tree.entry? place with
      | some (.file _) => true
      | _ => false
  | .error _ => false

def read (tree : FileTree) (path : Path) : Except FileError (List UInt8) := do
  let place ← tree.locate path
  match tree.entry? place with
  | some (.file content) => .ok content
  | some .directory => .error .isADirectory
  | none => .error .notFound

/-- Writes the file that the last part names in the directory that the others lead to. A path
that ends in a separator or a dot names a directory, not a file. -/
def write (tree : FileTree) (path : Path) (content : List UInt8) : Except FileError FileTree := do
  let parts ← partsOf path
  let start := tree.startOf path
  match parts.reverse.dropWhile (· = []) with
  | [] => .error .isADirectory
  | last :: before => do
      let directory ← tree.followAll start before.reverse
      let directory ← tree.directoryAt directory
      if last = ['.'] ∨ last = ['.', '.'] ∨ parts.getLast? = some [] then
        .error .isADirectory
      else if isTooLong last then
        .error .nameTooLong
      else
        match tree.entry? (last :: directory) with
        | some .directory => .error .isADirectory
        | _ => .ok (tree.put (last :: directory) (.file content))

/-- A step towards a directory, which is made if there is nothing yet. Nothing is made below a
file. -/
def makeStep (state : FileTree × Place) (part : List Char) : FileTree × Place :=
  let (tree, place) := state
  match Path.stepOf? part with
  | some (.name name) =>
      match tree.entry? place, tree.entry? (name :: place) with
      | some .directory, none => (tree.put (name :: place) .directory, name :: place)
      | _, _ => (tree, name :: place)
  | some .up => (tree, place.tail)
  | _ => (tree, place)

def makeDirectories (tree : FileTree) (path : Path) : FileTree :=
  ((Path.split path.text.toList).foldl makeStep (tree, tree.startOf path)).1

/-- The directory that the path is in is made. -/
def makeParent (tree : FileTree) (path : Path) : FileTree :=
  match path.parent? with
  | some directory => tree.makeDirectories directory
  | none => tree

def makeFile (tree : FileTree) (path : Path) (content : List UInt8) : FileTree :=
  let made := tree.makeParent path
  match made.write path content with
  | .ok written => written
  | .error _ => made

def rootedAt (path : Path) : FileTree :=
  let (tree, place) := (Path.split path.text.toList).foldl makeStep (({} : FileTree), [])
  { tree with current := place }

end FileTree

end ShaderCache
