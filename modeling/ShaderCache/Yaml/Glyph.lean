/-!
# Characters with their places

YAML is read from characters that know their line and column. A carriage return, a line
feed, both together and a next-line character all become one line feed here; the Unicode
line and paragraph separators break lines too, but stay themselves.
-/

set_option autoImplicit false

namespace ShaderCache.Yaml

structure Glyph where
  char : Char
  line : Nat
  column : Nat
  index : Nat

/-- Control characters, surrogates and non-characters are not allowed. -/
def isAllowed (c : Char) : Bool :=
  let code := c.toNat
  code = 0x9 || code = 0xA || code = 0xD || (0x20 ≤ code && code ≤ 0x7E) || code = 0x85 ||
    (0xA0 ≤ code && code ≤ 0xD7FF) || (0xE000 ≤ code && code ≤ 0xFFFD) || 0x10000 ≤ code

def isSeparator (c : Char) : Bool :=
  c.toNat = 0x2028 || c.toNat = 0x2029

def isBreak (c : Char) : Bool :=
  c = '\n' || isSeparator c

def isSpaceOrTab (c : Char) : Bool :=
  c = ' ' || c = '\t'

def isWordEnd (c : Char) : Bool :=
  isSpaceOrTab c || isBreak c

/-- Letters, digits, underscores and hyphens, as names of anchors and handles have them. -/
def isNameChar (c : Char) : Bool :=
  ('0' ≤ c && c ≤ '9') || ('a' ≤ c && c ≤ 'z') || ('A' ≤ c && c ≤ 'Z') || c = '_' || c = '-'

def place (line column index : Nat) : List Char → List Glyph
  | [] => []
  | '\r' :: '\n' :: rest => ⟨'\n', line, column, index⟩ :: place (line + 1) 0 (index + 2) rest
  | c :: rest =>
      let next := index + c.utf8Size
      if c = '\r' ∨ c = '\n' ∨ c.toNat = 0x85 then
        ⟨'\n', line, column, index⟩ :: place (line + 1) 0 next rest
      else if isSeparator c then
        ⟨c, line, column, index⟩ :: place (line + 1) 0 next rest
      else
        ⟨c, line, column, index⟩ :: place line (column + 1) next rest

/-- The characters of a text, if all of them are allowed. -/
def glyphs? (text : String) : Option (List Glyph) :=
  if text.toList.all isAllowed then some (place 0 0 0 text.toList) else none

def wordEnds : List Glyph → Bool
  | [] => true
  | g :: _ => isWordEnd g.char

def lineEnds : List Glyph → Bool
  | [] => true
  | g :: _ => isBreak g.char

def startsWith (c : Char) : List Glyph → Bool
  | [] => false
  | g :: _ => g.char = c

def startsWithAny (cs : List Char) : List Glyph → Bool
  | [] => false
  | g :: _ => cs.contains g.char

/-- Three times the character at the start of a line, and nothing attached to them. -/
def isMarkOf (c : Char) : List Glyph → Bool
  | a :: b :: d :: rest => a.column = 0 && a.char = c && b.char = c && d.char = c && wordEnds rest
  | _ => false

def isDocumentMark (glyphs : List Glyph) : Bool :=
  isMarkOf '-' glyphs || isMarkOf '.' glyphs

def chars (glyphs : List Glyph) : List Char :=
  glyphs.map Glyph.char

def skipBlanks (glyphs : List Glyph) : List Glyph :=
  glyphs.dropWhile fun g => isSpaceOrTab g.char

def skipLine (glyphs : List Glyph) : List Glyph :=
  glyphs.dropWhile fun g => !isBreak g.char

/-- White space and a comment up to the end of the line, and the line break; nothing else may
stand there. -/
def finishLine? (glyphs : List Glyph) : Option (List Glyph) :=
  let after := skipBlanks glyphs
  let rest := if startsWith '#' after then skipLine after else after
  if lineEnds rest then some (rest.drop 1) else none

end ShaderCache.Yaml
