import ShaderCache.Text.Numeral
import ShaderCache.Yaml.Glyph
import ShaderCache.Yaml.Token

/-!
# Names, tags and directives

The parts of YAML that are written with a restricted set of characters.
-/

set_option autoImplicit false

namespace ShaderCache.Yaml

/-! ## Anchors and aliases -/

def nameFollowers : List Char := ['?', ':', ',', ']', '\x7d', '%', '@', (Char.ofNat 96)]

def anchorName? (glyphs : List Glyph) : Option (List Char × List Glyph) :=
  let name := glyphs.takeWhile fun g => isNameChar g.char
  let rest := glyphs.dropWhile fun g => isNameChar g.char
  if name.isEmpty then none
  else if wordEnds rest || startsWithAny nameFollowers rest then some (chars name, rest)
  else none

/-! ## Tags -/

def uriMarks : List Char :=
  [';', '/', '?', ':', '@', '&', '=', '+', '$', '.', '!', '~', '*', '\'', '(', ')']

def isUriChar (verbatim : Bool) (c : Char) : Bool :=
  isNameChar c || uriMarks.contains c || (verbatim && [',', '[', ']'].contains c)

def octet? (glyphs : List Glyph) : Option (Nat × List Glyph) :=
  match glyphs with
  | p :: a :: b :: rest =>
      if p.char = '%' then do
        let value ← Text.readDigits? 16 [a.char, b.char]
        some (value, rest)
      else none
  | _ => none

/-- The number of octets that follow this one in a character that starts with it. -/
def furtherOctets? (octet : Nat) : Option Nat :=
  if octet < 0x80 then some 0
  else if 0xC0 ≤ octet ∧ octet < 0xE0 then some 1
  else if 0xE0 ≤ octet ∧ octet < 0xF0 then some 2
  else if 0xF0 ≤ octet ∧ octet < 0xF8 then some 3
  else none

def octets? : Nat → List Glyph → Option (List UInt8 × List Glyph)
  | 0, glyphs => some ([], glyphs)
  | count + 1, glyphs => do
      let (octet, rest) ← octet? glyphs
      if 0x80 ≤ octet ∧ octet < 0xC0 then do
        let (more, after) ← octets? count rest
        some (UInt8.ofNat octet :: more, after)
      else none

/-- The escaped octets of one character. Which character they make up does not matter. -/
def uriEscape? (glyphs : List Glyph) : Option (List UInt8 × List Glyph) := do
  let (octet, rest) ← octet? glyphs
  let count ← furtherOctets? octet
  let (more, after) ← octets? count rest
  some (UInt8.ofNat octet :: more, after)

def asciiOctet (c : Char) : UInt8 :=
  UInt8.ofNat c.toNat

def uriOctets? (verbatim : Bool) : Nat → List Glyph → Option (List UInt8 × List Glyph)
  | 0, _ => none
  | _ + 1, [] => some ([], [])
  | fuel + 1, g :: rest =>
      if g.char = '%' then do
        let (octets, after) ← uriEscape? (g :: rest)
        let (more, final) ← uriOctets? verbatim fuel after
        some (octets ++ more, final)
      else if isUriChar verbatim g.char then do
        let (more, final) ← uriOctets? verbatim fuel rest
        some (asciiOctet g.char :: more, final)
      else some ([], g :: rest)

/-- The octets of a tag after `head`, which has to be there if nothing follows. What comes after
a zero octet is lost. -/
def uri? (verbatim : Bool) (head : List Char) (glyphs : List Glyph) :
    Option (List UInt8 × List Glyph) := do
  let (more, rest) ← uriOctets? verbatim (glyphs.length + 1) glyphs
  if head.isEmpty && more.isEmpty then none
  else some (((head.drop 1).map asciiOctet ++ more).takeWhile (· ≠ 0), rest)

/-- An exclamation mark, a name, and the exclamation mark that closes a handle, if there is one. -/
def handle? (glyphs : List Glyph) : Option (List Char × List Glyph) :=
  match glyphs with
  | [] => none
  | g :: rest =>
      if g.char = '!' then
        let name := chars (rest.takeWhile fun h => isNameChar h.char)
        let after := rest.dropWhile fun h => isNameChar h.char
        if startsWith '!' after then some ('!' :: name ++ ['!'], after.drop 1)
        else some ('!' :: name, after)
      else none

def verbatimTag? (glyphs : List Glyph) : Option (Token × List Glyph) := do
  let (suffix, rest) ← uri? true [] (glyphs.drop 2)
  if startsWith '>' rest then some (.tag [] suffix, rest.drop 1) else none

/-- A tag with a handle, or with the primary one if its first part is none. A lone exclamation
mark is a tag of its own. -/
def shorthandTag? (glyphs : List Glyph) : Option (Token × List Glyph) := do
  let (handle, rest) ← handle? glyphs
  if 1 < handle.length ∧ handle.getLast? = some '!' then do
    let (suffix, after) ← uri? false [] rest
    some (.tag handle suffix, after)
  else do
    let (suffix, after) ← uri? false handle rest
    if suffix.isEmpty then some (.tag [] [asciiOctet '!'], after)
    else some (.tag ['!'] suffix, after)

def tag? (flow : Bool) (glyphs : List Glyph) : Option (Token × List Glyph) := do
  let (token, rest) ←
    if startsWith '<' (glyphs.drop 1) then verbatimTag? glyphs else shorthandTag? glyphs
  if wordEnds rest || (flow && startsWith ',' rest) then some (token, rest) else none

/-! ## Directives -/

def versionNumber? (glyphs : List Glyph) : Option (Nat × List Glyph) :=
  let digits := chars (glyphs.takeWhile fun g => Text.isDigit g.char)
  if digits.isEmpty ∨ 9 < digits.length then none
  else some (Text.decimalValue digits, glyphs.dropWhile fun g => Text.isDigit g.char)

def versionDirective? (glyphs : List Glyph) : Option (Token × List Glyph) := do
  let (major, rest) ← versionNumber? (skipBlanks glyphs)
  if startsWith '.' rest then do
    let (minor, after) ← versionNumber? (rest.drop 1)
    some (.versionDirective major minor, after)
  else none

def tagDirective? (glyphs : List Glyph) : Option (Token × List Glyph) := do
  let (handle, rest) ← handle? (skipBlanks glyphs)
  if handle ≠ ['!'] ∧ handle.getLast? ≠ some '!' then none
  else if rest.isEmpty || !startsWithAny [' ', '\t'] rest then none
  else do
    let (start, after) ← uri? true [] (skipBlanks rest)
    if wordEnds after then some (.tagDirective handle start, after) else none

/-- A whole line that starts with a percent sign. -/
def directive? (glyphs : List Glyph) : Option (Token × List Glyph) := do
  let body := glyphs.drop 1
  let name := chars (body.takeWhile fun g => isNameChar g.char)
  let rest := body.dropWhile fun g => isNameChar g.char
  if !wordEnds rest then none
  else do
    let (token, after) ←
      if name = ['Y', 'A', 'M', 'L'] then versionDirective? rest
      else if name = ['T', 'A', 'G'] then tagDirective? rest
      else none
    let next ← finishLine? after
    some (token, next)

end ShaderCache.Yaml
