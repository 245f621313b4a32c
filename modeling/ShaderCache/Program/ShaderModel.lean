import ShaderCache.Error
import ShaderCache.Text.Blank
import ShaderCache.Text.Numeral

/-!
# Shader models

The shader models a program can be compiled for, and the names of their compiler
profiles. A profile name is `sm_`, the major version, an underscore and the minor
version, with white space around it.
-/

set_option autoImplicit false

namespace ShaderCache

inductive ShaderModel where
  | sm60
  | sm61
  | sm62
  | sm63
  | sm64
  | sm65
  | sm66
  | sm67
  deriving DecidableEq, Inhabited

namespace ShaderModel

def all : List ShaderModel :=
  [.sm60, .sm61, .sm62, .sm63, .sm64, .sm65, .sm66, .sm67]

def major (_model : ShaderModel) : Nat := 6

def minor : ShaderModel → Nat
  | .sm60 => 0
  | .sm61 => 1
  | .sm62 => 2
  | .sm63 => 3
  | .sm64 => 4
  | .sm65 => 5
  | .sm66 => 6
  | .sm67 => 7

def name (model : ShaderModel) : String :=
  s!"SM{model.major}.{model.minor}"

def profile (model : ShaderModel) : String :=
  s!"sm_{model.major}_{model.minor}"

def macroName (model : ShaderModel) : String :=
  s!"__SM_{model.major}_{model.minor}__"

def isBefore (model other : ShaderModel) : Bool :=
  10 * model.major + model.minor < 10 * other.major + other.minor

/-- The texts before and after the first underscore. -/
def splitVersion? (chars : List Char) : Option (List Char × List Char) :=
  match chars.dropWhile (· ≠ '_') with
  | [] => none
  | _ :: rest => some (chars.takeWhile (· ≠ '_'), rest)

def ofProfileChars? (chars : List Char) : Option ShaderModel :=
  match chars with
  | 's' :: 'm' :: '_' :: version => do
      let (majorText, minorText) ← splitVersion? version
      let major ← Text.readNat32? majorText
      let minor ← Text.readNat32? minorText
      all.find? fun model => model.major = major && model.minor = minor
  | _ => none

/-- Any text but a profile name with white space around it is malformed, and reported as it
was given. -/
def ofProfile (profile : String) : Except ConfigurationError ShaderModel :=
  match ofProfileChars? (Text.trimBlanks profile.toList) with
  | some model => .ok model
  | none => .error (.malformedProfile profile)

end ShaderModel

end ShaderCache
