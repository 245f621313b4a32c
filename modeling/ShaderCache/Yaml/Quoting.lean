import ShaderCache.Text.Utf8
import ShaderCache.Yaml.Glyph
import ShaderCache.Yaml.PlainValue
import ShaderCache.Yaml.Token

/-!
# Scalars as text

Text is written plainly where that can be read back, and else in single quotes. Text of
several lines is written as a literal block. What neither of them can hold is escaped in
double quotes.
-/

set_option autoImplicit false

namespace ShaderCache.Yaml

/-! ## What a style can hold -/

/-- Characters that are written as they are. Tabs, control characters and byte order marks are
not. -/
def isPrintable (c : Char) : Bool :=
  let code := c.toNat
  code = 0xA || (0x20 ≤ code && code ≤ 0x7E) ||
    (0xA0 ≤ code && code ≤ 0xFFFD && code ≠ 0xFEFF) || 0x10000 ≤ code

def isLineEnd (c : Char) : Bool :=
  isBreak c || c = '\r' || c.toNat = 0x85

def blankFollows (rest : List Char) : Bool :=
  match rest with
  | [] => true
  | c :: _ => isSpaceOrTab c || isLineEnd c || c.toNat = 0

def indicators : List Char :=
  ['#', ',', '[', ']', '\x7b', '\x7d', '&', '*', '!', '|', '>', '\'', '"', '%', '@', Char.ofNat 96]

def beginsWithIndicator : List Char → Bool
  | [] => false
  | c :: rest =>
      indicators.contains c || ((c = '?' || c = ':' || c = '-') && blankFollows rest)

def beginsWithDocumentMark (chars : List Char) : Bool :=
  chars.take 3 = ['-', '-', '-'] || chars.take 3 = ['.', '.', '.']

/-- A colon before white space, or a hash sign behind it. -/
def hasInnerIndicator : Bool → List Char → Bool
  | _, [] => false
  | blankBefore, c :: rest =>
      (c = ':' && blankFollows rest) || (c = '#' && blankBefore) ||
        hasInnerIndicator (blankFollows [c]) rest

/-- Two characters of these kinds side by side. -/
def hasPair (first second : Char → Bool) (chars : List Char) : Bool :=
  (chars.zip (chars.drop 1)).any fun (a, b) => first a && second b

def isSpace (c : Char) : Bool := c = ' '

def fitsPlain (chars : List Char) : Bool :=
  chars.all isPrintable && !chars.any isLineEnd && !beginsWithDocumentMark chars &&
    !beginsWithIndicator chars &&
    !hasInnerIndicator (blankFollows (chars.take 1)) (chars.drop 1) &&
    chars.head? ≠ some ' ' && chars.getLast? ≠ some ' '

def fitsSingleQuotes (chars : List Char) : Bool :=
  chars.all isPrintable && !hasPair isSpace isLineEnd chars && !hasPair isLineEnd isSpace chars

def fitsLiteral (chars : List Char) : Bool :=
  chars.all isPrintable && !hasPair isSpace isLineEnd chars && chars.getLast? ≠ some ' '

def styleOf (text : String) : ScalarStyle :=
  let chars := text.toList
  if chars.contains '\n' then
    if fitsLiteral chars then .literal else .doubleQuoted
  else if !needsQuotes text && fitsPlain chars then .plain
  else if fitsSingleQuotes chars then .singleQuoted
  else .doubleQuoted

/-! ## Writing -/

def upperHex (width value : Nat) : List Char :=
  (Text.hexPadded width value).map Char.toUpper

def escapeLetters : List (Nat × Char) :=
  [(0x00, '0'), (0x07, 'a'), (0x08, 'b'), (0x09, 't'), (0x0A, 'n'), (0x0B, 'v'), (0x0C, 'f'),
    (0x0D, 'r'), (0x1B, 'e'), (0x22, '"'), (0x5C, '\\'), (0x85, 'N'), (0xA0, '_'), (0x2028, 'L'),
    (0x2029, 'P')]

def escape (c : Char) : List Char :=
  let code := c.toNat
  match escapeLetters.lookup code with
  | some letter => ['\\', letter]
  | none =>
      if code ≤ 0xFF then '\\' :: 'x' :: upperHex 2 code
      else if code ≤ 0xFFFF then '\\' :: 'u' :: upperHex 4 code
      else '\\' :: 'U' :: upperHex 8 code

def needsEscape (c : Char) : Bool :=
  !isPrintable c || isLineEnd c || c = '"' || c = '\\'

def doubleQuote (chars : List Char) : List Char :=
  '"' :: chars.flatMap (fun c => if needsEscape c then escape c else [c]) ++ ['"']

/-- Lines after the first are indented. -/
def singleQuotedBody (padding : List Char) : Bool → List Char → List Char
  | lineStarts, [] => if lineStarts then padding else []
  | lineStarts, c :: rest =>
      if isBreak c then c :: singleQuotedBody padding true rest
      else
        (if lineStarts then padding else []) ++ (if c = '\'' then [c, c] else [c]) ++
          singleQuotedBody padding false rest

def singleQuote (padding chars : List Char) : List Char :=
  '\'' :: singleQuotedBody padding false chars ++ ['\'']

/-- Every line that is not empty is indented. -/
def literalBody (padding : List Char) : Bool → List Char → List Char
  | _, [] => []
  | lineStarts, c :: rest =>
      if isBreak c then c :: literalBody padding true rest
      else (if lineStarts then padding else []) ++ c :: literalBody padding false rest

/-- How deep the block is indented has to be said if it begins with a space or an empty line. -/
def indentationHint (chars : List Char) : List Char :=
  match chars with
  | [] => []
  | c :: _ => if c = ' ' || isBreak c then ['2'] else []

/-- Whether line breaks at the end are none, one or more. -/
def chompingHint (chars : List Char) : List Char :=
  match chars.reverse.takeWhile isBreak with
  | [] => ['-']
  | [_] => if chars.length = 1 then ['+'] else []
  | _ => ['+']

def literal (padding chars : List Char) : List Char :=
  '|' :: indentationHint chars ++ chompingHint chars ++ '\n' :: literalBody padding true chars

/-- The text in its style. A style with several lines indents them by the padding. -/
def renderScalar (padding : List Char) (text : String) : List Char :=
  match styleOf text with
  | .plain => text.toList
  | .singleQuoted => singleQuote padding text.toList
  | .literal => literal padding text.toList
  | _ => doubleQuote text.toList

/-- A key that can stand in front of its colon on one line. -/
def isSimpleKey (text : String) : Bool :=
  !text.toList.any isLineEnd && text.utf8ByteSize ≤ 128

end ShaderCache.Yaml
