import ShaderCache.Error
import ShaderCache.Text.Blank
import ShaderCache.Text.Join
import ShaderCache.Text.Numeral

/-!
# Compiler flags

A set of flags is a word of 32 bits, of which six have names. The other bits are kept
wherever flags are passed on, but the complement of a set has named bits only.
-/

set_option autoImplicit false

namespace ShaderCache

structure CompilerFlags where
  bits : UInt32
  deriving DecidableEq, Inhabited

namespace CompilerFlags

def empty : CompilerFlags := ⟨0⟩

def treatWarningsAsErrors : CompilerFlags := ⟨0x1⟩
def dumpIntermediates : CompilerFlags := ⟨0x2⟩
def floatingPointModeFast : CompilerFlags := ⟨0x4⟩
def floatingPointModePrecise : CompilerFlags := ⟨0x8⟩
def generateDebugInfo : CompilerFlags := ⟨0x10⟩
def matrixLayoutColumnMajor : CompilerFlags := ⟨0x20⟩

/-- The flags with a name, in the order of their bits. -/
def named : List (String × CompilerFlags) :=
  [("TREAT_WARNINGS_AS_ERRORS", treatWarningsAsErrors),
    ("DUMP_INTERMEDIATES", dumpIntermediates),
    ("FLOATING_POINT_MODE_FAST", floatingPointModeFast),
    ("FLOATING_POINT_MODE_PRECISE", floatingPointModePrecise),
    ("GENERATE_DEBUG_INFO", generateDebugInfo),
    ("MATRIX_LAYOUT_COLUMN_MAJOR", matrixLayoutColumnMajor)]

def known : CompilerFlags := ⟨0x3F⟩

def union (left right : CompilerFlags) : CompilerFlags := ⟨left.bits ||| right.bits⟩

def inter (left right : CompilerFlags) : CompilerFlags := ⟨left.bits &&& right.bits⟩

def complement (flags : CompilerFlags) : CompilerFlags := ⟨~~~flags.bits &&& known.bits⟩

def contains (flags other : CompilerFlags) : Bool :=
  flags.bits &&& other.bits = other.bits

def ofName? (name : String) : Option CompilerFlags :=
  named.lookup (Text.trim name)

/-! ## Flags as text -/

/-- The names of the flags in the set, and the bits without a name as one hexadecimal number. -/
def render (flags : CompilerFlags) : String :=
  let names := (named.filter fun (_, flag) => flags.contains flag).map Prod.fst
  let rest := flags.bits &&& ~~~known.bits
  let unnamed := if rest = 0 then [] else ["0x" ++ Text.hex rest.toNat]
  Text.joinWith " | " (names ++ unnamed)

/-- The parts between bars: always one more than bars. -/
def splitBars : List Char → List (List Char)
  | [] => [[]]
  | c :: rest =>
      if c = '|' then [] :: splitBars rest
      else
        match splitBars rest with
        | [] => [[c]]
        | part :: parts => (c :: part) :: parts

/-- The value of a hexadecimal number below `2 ^ 32`, which may have a plus sign. -/
def readHexBits? (chars : List Char) : Option CompilerFlags := do
  let value ← Text.readDigits? 16 (Text.withoutPlus chars)
  if value < UInt32.size then some ⟨UInt32.ofNat value⟩ else none

/-- A name, or a hexadecimal number for bits of any kind. -/
def readPart? (part : List Char) : Option CompilerFlags :=
  match Text.trimBlanks part with
  | [] => none
  | '0' :: 'x' :: digits => readHexBits? digits
  | name => named.lookup (String.ofList name)

/-- Names and numbers separated by bars; a blank text stands for no flags. -/
def read? (text : String) : Option CompilerFlags :=
  if Text.allBlank text then
    some empty
  else
    (splitBars text.toList).foldlM (fun flags part => do
      let more ← readPart? part
      some (flags.union more)) empty

end CompilerFlags

/-- Flags that the manager turns on or off for every program. A flag that is turned on and off
ends up on. -/
structure ForcedFlags where
  enabled : CompilerFlags
  disabled : CompilerFlags
  deriving DecidableEq, Inhabited

namespace ForcedFlags

def neutral : ForcedFlags := ⟨CompilerFlags.empty, CompilerFlags.empty⟩

def apply (forced : ForcedFlags) (flags : CompilerFlags) : CompilerFlags :=
  (flags.inter forced.disabled.complement).union forced.enabled

/-- The union of the named flags; the first unknown name is reported as it was given. -/
def flagsOfNames (names : List String) : Except ConfigurationError CompilerFlags :=
  names.foldlM (fun flags name =>
    match CompilerFlags.ofName? name with
    | some flag => .ok (flags.union flag)
    | none => .error (.unknownCompilerFlag name)) CompilerFlags.empty

def ofNames (enabled disabled : List String) : Except ConfigurationError ForcedFlags := do
  let enabledFlags ← flagsOfNames enabled
  let disabledFlags ← flagsOfNames disabled
  .ok ⟨enabledFlags, disabledFlags⟩

end ForcedFlags

end ShaderCache
