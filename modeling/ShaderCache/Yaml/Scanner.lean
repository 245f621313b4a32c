import ShaderCache.Yaml.BlockScalar
import ShaderCache.Yaml.FlowScalar
import ShaderCache.Yaml.Tag

/-!
# The tokens of a text

Tokens are found from left to right. A colon can turn what stands before it into a key: the
place of each possible key is remembered, one for each level of brackets, until its line ends
or a thousand bytes have passed, and the key token is put there when the colon comes.
-/

set_option autoImplicit false

namespace ShaderCache.Yaml

/-- A place where a key may have begun. -/
structure KeyCandidate where
  position : Nat
  /-- The block around it allows nothing but a key there. -/
  required : Bool
  line : Nat
  column : Nat
  index : Nat

structure Scanner where
  tokens : List Token := []
  /-- One more than the indentation of the block around, zero outside of all blocks. -/
  level : Nat := 0
  outerLevels : List Nat := []
  keyAllowed : Bool := true
  candidate : Option KeyCandidate := none
  /-- The candidates outside of the brackets around, innermost first. -/
  outerCandidates : List (Option KeyCandidate) := []

namespace Scanner

def flow (scanner : Scanner) : Bool :=
  !scanner.outerCandidates.isEmpty

def push (scanner : Scanner) (token : Token) : Scanner :=
  { scanner with tokens := scanner.tokens ++ [token] }

def insertAt (scanner : Scanner) (position : Nat) (token : Token) : Scanner :=
  { scanner with tokens := scanner.tokens.insertIdx position token }

def allowKey (scanner : Scanner) (allowed : Bool) : Scanner :=
  { scanner with keyAllowed := allowed }

/-! ## Indentation -/

/-- Closes the blocks that are indented deeper than the given level. -/
def closeTo (level : Nat) : List Nat → Scanner → Scanner
  | [], scanner => scanner
  | outer :: others, scanner =>
      if level < scanner.level then
        closeTo level others { (scanner.push .blockEnd) with level := outer, outerLevels := others }
      else
        scanner

/-- Closes the blocks that a line at this column does not belong to. Brackets suspend
indentation. -/
def unindent (scanner : Scanner) (column : Nat) : Scanner :=
  if scanner.flow then scanner else closeTo (column + 1) scanner.outerLevels scanner

def closeAll (scanner : Scanner) : Scanner :=
  if scanner.flow then scanner else closeTo 0 scanner.outerLevels scanner

/-- Opens a block at the column unless there is one already; its token goes to the position. -/
def indent (scanner : Scanner) (column position : Nat) (token : Token) : Scanner :=
  if !scanner.flow && scanner.level < column + 1 then
    { (scanner.insertAt position token) with
      level := column + 1
      outerLevels := scanner.level :: scanner.outerLevels }
  else
    scanner

/-! ## Possible keys -/

def isRequired (candidate : Option KeyCandidate) : Bool :=
  match candidate with
  | some found => found.required
  | none => false

/-- Gives up the candidate, which is an error if a key is required there. -/
def dropCandidate? (scanner : Scanner) : Option Scanner :=
  if isRequired scanner.candidate then none else some { scanner with candidate := none }

def saveCandidate? (scanner : Scanner) (g : Glyph) : Option Scanner :=
  if scanner.keyAllowed then do
    let dropped ← scanner.dropCandidate?
    let required := !scanner.flow && scanner.level = g.column + 1
    some { dropped with
      candidate := some ⟨scanner.tokens.length, required, g.line, g.column, g.index⟩ }
  else
    some scanner

/-- A key ends on its own line, within 1024 bytes. -/
def isStale (g : Glyph) (candidate : KeyCandidate) : Bool :=
  candidate.line < g.line || candidate.index + 1024 < g.index

def refresh? (g : Glyph) (candidate : Option KeyCandidate) : Option (Option KeyCandidate) :=
  match candidate with
  | some found =>
      if isStale g found then
        if found.required then none else some none
      else
        some (some found)
  | none => some none

def dropStale? (scanner : Scanner) (g : Glyph) : Option Scanner := do
  let outer ← scanner.outerCandidates.mapM (refresh? g)
  let candidate ← refresh? g scanner.candidate
  some { scanner with candidate := candidate, outerCandidates := outer }

/-! ## Tokens -/

/-- Skips white space, comments and line breaks. Tabs only separate where no key may begin, and
a byte order mark does at the start of a line, where it is one column wide. -/
def skipToToken : Scanner → List Glyph → Bool → Scanner × List Glyph
  | scanner, [], _ => (scanner, [])
  | scanner, g :: rest, comment =>
      if isBreak g.char then
        skipToToken (if scanner.flow then scanner else scanner.allowKey true) rest false
      else if comment then skipToToken scanner rest true
      else if g.char = ' ' then skipToToken scanner rest false
      else if g.char = '\t' && (scanner.flow || !scanner.keyAllowed) then
        skipToToken scanner rest false
      else if g.char = '#' then skipToToken scanner rest true
      else if g.column = 0 && g.char.toNat = 0xFEFF then skipToToken scanner rest false
      else (scanner, g :: rest)

def openFlow? (scanner : Scanner) (g : Glyph) (token : Token) : Option Scanner := do
  let saved ← scanner.saveCandidate? g
  some (({ saved with
    candidate := none
    outerCandidates := saved.candidate :: saved.outerCandidates }.allowKey true).push token)

def closeFlow? (scanner : Scanner) (token : Token) : Option Scanner := do
  let dropped ← scanner.dropCandidate?
  let outer :=
    match dropped.outerCandidates with
    | [] => dropped
    | candidate :: others => { dropped with candidate := candidate, outerCandidates := others }
  some ((outer.allowKey false).push token)

def flowEntry? (scanner : Scanner) : Option Scanner := do
  let dropped ← scanner.dropCandidate?
  some ((dropped.allowKey true).push .flowEntry)

def blockEntry? (scanner : Scanner) (g : Glyph) : Option Scanner := do
  if !scanner.flow && !scanner.keyAllowed then none
  else do
    let opened := scanner.indent g.column scanner.tokens.length .blockSequenceStart
    let dropped ← opened.dropCandidate?
    some ((dropped.allowKey true).push .blockEntry)

def explicitKey? (scanner : Scanner) (g : Glyph) : Option Scanner := do
  if !scanner.flow && !scanner.keyAllowed then none
  else do
    let opened := scanner.indent g.column scanner.tokens.length .blockMappingStart
    let dropped ← opened.dropCandidate?
    some ((dropped.allowKey (!scanner.flow)).push .key)

def valueMark? (scanner : Scanner) (g : Glyph) : Option Scanner :=
  match scanner.candidate with
  | some found =>
      let marked := scanner.insertAt found.position .key
      let opened := marked.indent found.column found.position .blockMappingStart
      some (({ opened with candidate := none }.allowKey false).push .value)
  | none =>
      if !scanner.flow && !scanner.keyAllowed then none
      else
        let opened := scanner.indent g.column scanner.tokens.length .blockMappingStart
        some ((opened.allowKey (!scanner.flow)).push .value)

/-- What may begin as well as be a key. -/
def keyable? (scanner : Scanner) (g : Glyph) : Option Scanner := do
  let saved ← scanner.saveCandidate? g
  some (saved.allowKey false)

/-- A line of its own that ends all blocks. -/
def topLevel? (scanner : Scanner) : Option Scanner := do
  let dropped ← scanner.closeAll.dropCandidate?
  some (dropped.allowKey false)

def plainStartExcluded : List Char :=
  ['-', '?', ':', ',', '[', ']', '\x7b', '\x7d', '#', '&', '*', '!', '|', '>', '\'', '"', '%',
    '@', Char.ofNat 96]

/-- A plain scalar begins with these characters: no indicator, or one that is attached to more. -/
def beginsPlain (flow : Bool) (g : Glyph) (rest : List Glyph) : Bool :=
  !(isWordEnd g.char || plainStartExcluded.contains g.char) ||
    (g.char = '-' && !startsWithAny [' ', '\t'] rest) ||
    (!flow && (g.char = '?' || g.char = ':') && !wordEnds rest)

def token? (scanner : Scanner) (g : Glyph) (rest : List Glyph) : Option (Scanner × List Glyph) :=
  let glyphs := g :: rest
  let flow := scanner.flow
  if g.column = 0 && g.char = '%' then do
    let ready ← scanner.topLevel?
    let (token, after) ← directive? glyphs
    some (ready.push token, after)
  else if isMarkOf '-' glyphs then do
    let ready ← scanner.topLevel?
    some (ready.push .documentStart, glyphs.drop 3)
  else if isMarkOf '.' glyphs then do
    let ready ← scanner.topLevel?
    some (ready.push .documentEnd, glyphs.drop 3)
  else if g.char = '[' then do
    let opened ← scanner.openFlow? g .flowSequenceStart
    some (opened, rest)
  else if g.char = '\x7b' then do
    let opened ← scanner.openFlow? g .flowMappingStart
    some (opened, rest)
  else if g.char = ']' then do
    let closed ← scanner.closeFlow? .flowSequenceEnd
    some (closed, rest)
  else if g.char = '\x7d' then do
    let closed ← scanner.closeFlow? .flowMappingEnd
    some (closed, rest)
  else if g.char = ',' then do
    let marked ← scanner.flowEntry?
    some (marked, rest)
  else if g.char = '-' && wordEnds rest then do
    let marked ← scanner.blockEntry? g
    some (marked, rest)
  else if g.char = '?' && (flow || wordEnds rest) then do
    let marked ← scanner.explicitKey? g
    some (marked, rest)
  else if g.char = ':' && (flow || wordEnds rest) then do
    let marked ← scanner.valueMark? g
    some (marked, rest)
  else if g.char = '*' then do
    let ready ← scanner.keyable? g
    let (name, after) ← anchorName? rest
    some (ready.push (.alias name), after)
  else if g.char = '&' then do
    let ready ← scanner.keyable? g
    let (name, after) ← anchorName? rest
    some (ready.push (.anchor name), after)
  else if g.char = '!' then do
    let ready ← scanner.keyable? g
    let (token, after) ← tag? flow glyphs
    some (ready.push token, after)
  else if (g.char = '|' || g.char = '>') && !flow then do
    let dropped ← scanner.dropCandidate?
    let folded := g.char = '>'
    let (text, after) ← blockScalar? folded scanner.level glyphs
    let style := if folded then ScalarStyle.folded else ScalarStyle.literal
    some ((dropped.allowKey true).push (.scalar text style), after)
  else if g.char = '\'' || g.char = '"' then do
    let ready ← scanner.keyable? g
    let single := g.char = '\''
    let quoted ← quotedScalar? single glyphs
    let style := if single then ScalarStyle.singleQuoted else ScalarStyle.doubleQuoted
    some (ready.push (.scalar quoted.text style), quoted.rest)
  else if beginsPlain flow g rest then do
    let ready ← scanner.keyable? g
    let found ← plainScalar? flow scanner.level glyphs
    some ((ready.allowKey found.broken).push (.scalar found.text .plain), found.rest)
  else
    none

/-- The end of the text closes all blocks. -/
def finish? (scanner : Scanner) : Option (List Token) := do
  let done ← scanner.topLevel?
  some (done.push .streamEnd).tokens

def run? : Nat → Scanner → List Glyph → Option (List Token)
  | 0, _, _ => none
  | fuel + 1, scanner, glyphs =>
      match scanner.skipToToken glyphs false with
      | (skipped, []) => skipped.finish?
      | (skipped, g :: rest) => do
          let fresh ← skipped.dropStale? g
          let (next, after) ← (fresh.unindent g.column).token? g rest
          run? fuel next after

end Scanner

def tokens? (text : String) : Option (List Token) := do
  let glyphs ← glyphs? text
  Scanner.run? (glyphs.length + 1) {} glyphs

end ShaderCache.Yaml
