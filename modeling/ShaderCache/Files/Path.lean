import ShaderCache.Text.Join
import ShaderCache.Text.Lowercase

/-!
# Paths

A path is kept as it was written. Its steps say what it means: repeated and trailing
separators and dots between them mean nothing, and two paths with the same steps are
the same place. Normalizing walks the steps without asking any file system.
-/

set_option autoImplicit false

namespace ShaderCache

structure Path where
  text : String
  deriving Inhabited

namespace Path

inductive Step where
  | root
  | here
  | up
  | name (value : List Char)
  deriving DecidableEq

/-- The parts between separators, empty ones included: always one more than separators. -/
def split : List Char → List (List Char)
  | [] => [[]]
  | c :: rest =>
      if c = '/' then [] :: split rest
      else
        match split rest with
        | [] => [[c]]
        | part :: parts => (c :: part) :: parts

/-- What a part means when it is not the first: nothing, up, or a name. -/
def stepOf? (part : List Char) : Option Step :=
  if part = [] ∨ part = ['.'] then none
  else if part = ['.', '.'] then some .up
  else some (.name part)

def isAbsolute (path : Path) : Bool :=
  path.text.toList.head? = some '/'

def isRelative (path : Path) : Bool :=
  !path.isAbsolute

/-- A leading dot is a step of its own, all other dots are skipped. -/
def steps (path : Path) : List Step :=
  let parts := split path.text.toList
  let start :=
    if path.isAbsolute then [.root]
    else if parts.head? = some ['.'] then [.here]
    else []
  start ++ parts.filterMap stepOf?

/-- Paths with the same steps are equal, however they are written. -/
instance : BEq Path := ⟨fun left right => left.steps == right.steps⟩

/-- The names left over when every `up` drops the name before it, the last one first. At the top
there is nothing to drop. -/
def collapse (steps : List Step) : List (List Char) :=
  steps.foldl (fun names step =>
    match step with
    | .root => []
    | .here => names
    | .up => names.tail
    | .name value => value :: names) []

def joinNames : List (List Char) → List Char
  | [] => []
  | [name] => name
  | name :: rest => name ++ '/' :: joinNames rest

def normalize (path : Path) : Path :=
  let names := joinNames (collapse path.steps).reverse
  if path.isAbsolute then ⟨String.ofList ('/' :: names)⟩
  else if names = [] then ⟨"."⟩
  else ⟨String.ofList names⟩

/-- An absolute path replaces the directory; a relative one follows it after one separator. -/
def join (directory path : Path) : Path :=
  if path.isAbsolute then path
  else
    let front := directory.text.toList
    if front = [] ∨ front.getLast? = some '/' then ⟨directory.text ++ path.text⟩
    else ⟨directory.text ++ "/" ++ path.text⟩

/-- A relative path is taken from the anchor and normalized; an absolute one stays as it is. -/
def normalizeTo (anchor path : Path) : Path :=
  if path.isRelative then (anchor.join path).normalize else path

/-- Trailing parts that mean nothing, counted from the end, are left off. -/
def dropTrailing (reversedParts : List (List Char)) : List (List Char) :=
  reversedParts.dropWhile fun part => (stepOf? part).isNone

/-- The directory that holds the last step, as it is written in the path. Roots and empty paths
have none. -/
def parent? (path : Path) : Option Path :=
  let chars := path.text.toList
  let leadingDot := (split chars).head? = some ['.']
  let front := if path.isAbsolute then ['/'] else if leadingDot then ['.'] else []
  match dropTrailing (split (chars.drop front.length)).reverse with
  | [] => if leadingDot then some ⟨""⟩ else none
  | _ :: before =>
      some ⟨String.ofList (front ++ joinNames (dropTrailing before).reverse)⟩

def fileName? (path : Path) : Option (List Char) :=
  match path.steps.getLast? with
  | some (.name value) => some value
  | _ => none

/-- What follows the last dot of a name, unless that dot is its first character. -/
def extensionOf? (name : List Char) : Option (List Char) :=
  let stem := (name.reverse.dropWhile (· ≠ '.')).drop 1
  if stem = [] then none else some (name.reverse.takeWhile (· ≠ '.')).reverse

def extension? (path : Path) : Option String :=
  (path.fileName?.bind extensionOf?).map String.ofList

/-- Empty for a path without an extension. -/
def lowercaseExtension (path : Path) : String :=
  match path.extension? with
  | some extension => Text.lowercase extension
  | none => ""

def withoutDot (extension : String) : String :=
  match extension.toList with
  | '.' :: rest => String.ofList rest
  | _ => extension

/-- Whatever the case of the letters; a dot in front of the extension may be given. -/
def hasExtension (path : Path) (extension : String) : Bool :=
  path.lowercaseExtension = Text.lowercase (withoutDot extension)

end Path

end ShaderCache
