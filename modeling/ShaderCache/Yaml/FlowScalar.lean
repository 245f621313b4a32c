import ShaderCache.Text.Numeral
import ShaderCache.Yaml.Glyph

/-!
# Plain and quoted scalars

Scalars that may run over several lines. The gap between two words is kept as it is within a
line; over line breaks, one break folds into a space and further ones stay.
-/

set_option autoImplicit false

namespace ShaderCache.Yaml

/-! ## Gaps -/

structure Gap where
  blanks : List Char := []
  /-- A line break has been met. -/
  broken : Bool := false
  firstBreak : List Char := []
  laterBreaks : List Char := []

namespace Gap

def text (gap : Gap) : List Char :=
  if gap.broken then
    if gap.firstBreak = ['\n'] then
      if gap.laterBreaks = [] then [' '] else gap.laterBreaks
    else
      gap.firstBreak ++ gap.laterBreaks
  else
    gap.blanks

/-- Adds one character. Blanks at the start of a line are dropped. -/
def push (gap : Gap) (c : Char) : Gap :=
  if isBreak c then
    if gap.broken then { gap with laterBreaks := gap.laterBreaks ++ [c] }
    else { gap with blanks := [], broken := true, firstBreak := [c] }
  else if gap.broken then gap
  else { gap with blanks := gap.blanks ++ [c] }

/-- Reads a gap to its end. After a line break there may be no tab left of column `tabLimit`. -/
def read? (tabLimit : Nat) (gap : Gap) : List Glyph → Option (Gap × List Glyph)
  | [] => some (gap, [])
  | g :: rest =>
      if isWordEnd g.char then
        if gap.broken && g.char = '\t' && g.column < tabLimit then none
        else read? tabLimit (gap.push g.char) rest
      else
        some (gap, g :: rest)

end Gap

/-- The text of a scalar, whether it ended after a line break, and what follows. -/
structure FlowScalar where
  text : List Char
  broken : Bool
  rest : List Glyph

/-! ## Plain scalars -/

/-- Characters that end a plain scalar within brackets. -/
def flowIndicators : List Char := [',', '[', ']', '\x7b', '\x7d']

/-- Characters that must not follow a colon within brackets. -/
def flowColonFollowers : List Char := [',', '?', '[', ']', '\x7b', '\x7d']

/-- One word of a plain scalar. It ends before white space, before a colon at its end and, within
brackets, before an indicator. -/
def plainWord? (flow : Bool) : List Glyph → Option (List Char × List Glyph)
  | [] => some ([], [])
  | g :: rest =>
      if isWordEnd g.char then some ([], g :: rest)
      else if flow && g.char = ':' && startsWithAny flowColonFollowers rest then none
      else if g.char = ':' && wordEnds rest then some ([], g :: rest)
      else if flow && flowIndicators.contains g.char then some ([], g :: rest)
      else do
        let (more, after) ← plainWord? flow rest
        some (g.char :: more, after)

def columnOf : List Glyph → Nat
  | [] => 0
  | g :: _ => g.column

/-- The words of a plain scalar from here on. Outside of brackets its lines must not start left
of column `level`. -/
def plainFrom? (flow : Bool) (level : Nat) :
    Nat → List Char → Gap → List Glyph → Option FlowScalar
  | 0, _, _, _ => none
  | fuel + 1, text, gap, glyphs =>
      if isDocumentMark glyphs || startsWith '#' glyphs then
        some ⟨text, gap.broken, glyphs⟩
      else do
        let (word, after) ← plainWord? flow glyphs
        let joined := if word = [] then text else text ++ gap.text ++ word
        let left := if word = [] then gap else {}
        if after.isEmpty || !wordEnds after then
          some ⟨joined, left.broken, after⟩
        else do
          let (next, rest) ← left.read? level after
          if !flow && columnOf rest < level then some ⟨joined, next.broken, rest⟩
          else plainFrom? flow level fuel joined next rest

def plainScalar? (flow : Bool) (level : Nat) (glyphs : List Glyph) : Option FlowScalar :=
  plainFrom? flow level (glyphs.length + 1) [] {} glyphs

/-! ## Quoted scalars -/

def simpleEscape? (c : Char) : Option Char :=
  match c with
  | '0' => some (Char.ofNat 0)
  | 'a' => some (Char.ofNat 0x7)
  | 'b' => some (Char.ofNat 0x8)
  | 't' => some '\t'
  | '\t' => some '\t'
  | 'n' => some '\n'
  | 'v' => some (Char.ofNat 0xB)
  | 'f' => some (Char.ofNat 0xC)
  | 'r' => some '\r'
  | 'e' => some (Char.ofNat 0x1B)
  | ' ' => some ' '
  | '"' => some '"'
  | '/' => some '/'
  | '\\' => some '\\'
  | 'N' => some (Char.ofNat 0x85)
  | '_' => some (Char.ofNat 0xA0)
  | 'L' => some (Char.ofNat 0x2028)
  | 'P' => some (Char.ofNat 0x2029)
  | _ => none

def codeLength? (c : Char) : Option Nat :=
  match c with
  | 'x' => some 2
  | 'u' => some 4
  | 'U' => some 8
  | _ => none

def codePoint? (digits : List Char) : Option Char := do
  let value ← Text.readDigits? 16 digits
  if (0xD800 ≤ value ∧ value ≤ 0xDFFF) ∨ 0x10FFFF < value then none
  else some (Char.ofNat value)

/-- What follows a backslash: the character it stands for and the rest. -/
def escape? : List Glyph → Option (Char × List Glyph)
  | [] => none
  | g :: rest =>
      match simpleEscape? g.char with
      | some c => some (c, rest)
      | none => do
          let count ← codeLength? g.char
          let digits := chars (rest.take count)
          if digits.length < count then none
          else do
            let c ← codePoint? digits
            some (c, rest.drop count)

/-- One word of a quoted scalar, whether an escaped line break ended it, and what follows. -/
def quotedWord? (single : Bool) : Nat → List Glyph → Option (List Char × Bool × List Glyph)
  | 0, _ => none
  | _ + 1, [] => some ([], false, [])
  | fuel + 1, g :: rest =>
      if isWordEnd g.char then some ([], false, g :: rest)
      else if single && g.char = '\'' && startsWith '\'' rest then do
        let (more, broken, after) ← quotedWord? single fuel (rest.drop 1)
        some ('\'' :: more, broken, after)
      else if g.char = (if single then '\'' else '"') then some ([], false, g :: rest)
      else if !single && g.char = '\\' then
        if !rest.isEmpty && lineEnds rest then
          some ([], true, rest.drop 1)
        else do
          let (c, tail) ← escape? rest
          let (more, broken, after) ← quotedWord? single fuel tail
          some (c :: more, broken, after)
      else do
        let (more, broken, after) ← quotedWord? single fuel rest
        some (g.char :: more, broken, after)

/-- The words of a quoted scalar from here to its closing quote. -/
def quotedFrom? (single : Bool) : Nat → List Char → List Glyph → Option FlowScalar
  | 0, _, _ => none
  | fuel + 1, text, glyphs =>
      if isDocumentMark glyphs || glyphs.isEmpty then none
      else do
        let (word, broken, after) ← quotedWord? single (glyphs.length + 1) glyphs
        if startsWith (if single then '\'' else '"') after then
          some ⟨text ++ word, false, after.drop 1⟩
        else do
          let (gap, rest) ← Gap.read? 0 { broken := broken } after
          quotedFrom? single fuel (text ++ word ++ gap.text) rest

/-- Reads past the opening quote. -/
def quotedScalar? (single : Bool) (glyphs : List Glyph) : Option FlowScalar :=
  quotedFrom? single (glyphs.length + 1) [] (glyphs.drop 1)

end ShaderCache.Yaml
