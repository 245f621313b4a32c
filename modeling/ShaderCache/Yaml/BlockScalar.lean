import ShaderCache.Text.Numeral
import ShaderCache.Yaml.Glyph

/-!
# Block scalars

Literal and folded scalars: a header line, and lines that are indented more than the node
around them. Folding joins lines that do not start with white space.
-/

set_option autoImplicit false

namespace ShaderCache.Yaml

/-- What becomes of the line breaks at the end. -/
inductive Chomping where
  | strip
  | clip
  | keep
  deriving DecidableEq

structure BlockHeader where
  chomping : Chomping := .clip
  /-- How much deeper than the node around it the text is, if it is said. -/
  increment : Option Nat := none

def chomping? : List Glyph → Option (Chomping × List Glyph)
  | [] => none
  | g :: rest =>
      if g.char = '+' then some (.keep, rest)
      else if g.char = '-' then some (.strip, rest)
      else none

/-- A digit for the indentation. Zero is refused. -/
def increment? : List Glyph → Option (Option Nat × List Glyph)
  | [] => some (none, [])
  | g :: rest =>
      if g.char = '0' then none
      else if Text.isDigit g.char then some (some (Text.digitValue g.char), rest)
      else some (none, g :: rest)

/-- The chomping mark and the digit, in either order. -/
def blockHeader? (glyphs : List Glyph) : Option (BlockHeader × List Glyph) :=
  match chomping? glyphs with
  | some (chomping, rest) => do
      let (increment, after) ← increment? rest
      some (⟨chomping, increment⟩, after)
  | none => do
      let (increment, rest) ← increment? glyphs
      match increment, chomping? rest with
      | some _, some (chomping, after) => some (⟨chomping, increment⟩, after)
      | _, _ => some (⟨.clip, increment⟩, rest)

/-- Eats indentation and empty lines. Answers the line breaks, the deepest column met and what
follows. An indentation of zero is one that is not known yet. -/
def blockBreaks? (indent deepest : Nat) : List Glyph → Option (List Char × Nat × List Glyph)
  | [] => some ([], deepest, [])
  | g :: rest =>
      let inside := decide (indent = 0) || decide (g.column < indent)
      let deepest := max deepest g.column
      if inside && g.char = ' ' then blockBreaks? indent deepest rest
      else if inside && g.char = '\t' then none
      else if isBreak g.char then do
        let (breaks, found, after) ← blockBreaks? indent deepest rest
        some (g.char :: breaks, found, after)
      else some ([], deepest, g :: rest)

/-- Text read so far, and the line breaks after it that may still be folded or dropped. -/
structure BlockText where
  text : List Char := []
  firstBreak : List Char := []
  laterBreaks : List Char := []
  /-- The last line started with white space. -/
  spaced : Bool := false

/-- What the pending line breaks become before a line. -/
def BlockText.joint (folded : Bool) (block : BlockText) (spaced : Bool) : List Char :=
  if folded && block.firstBreak = ['\n'] && !block.spaced && !spaced then
    if block.laterBreaks = [] then [' '] else block.laterBreaks
  else
    block.firstBreak ++ block.laterBreaks

def blockLines? (folded : Bool) (indent : Nat) :
    Nat → BlockText → List Glyph → Option (BlockText × List Glyph)
  | 0, _, _ => none
  | _ + 1, block, [] => some (block, [])
  | fuel + 1, block, g :: rest =>
      if g.column ≠ indent then some (block, g :: rest)
      else do
        let spaced := isSpaceOrTab g.char
        let line := (g :: rest).takeWhile fun h => !isBreak h.char
        let after := skipLine (g :: rest)
        let (breaks, _, next) ← blockBreaks? indent 0 (after.drop 1)
        blockLines? folded indent fuel
          ⟨block.text ++ block.joint folded spaced ++ chars line, chars (after.take 1), breaks,
            spaced⟩ next

def BlockText.chomp (block : BlockText) : Chomping → List Char
  | .strip => block.text
  | .clip => block.text ++ block.firstBreak
  | .keep => block.text ++ block.firstBreak ++ block.laterBreaks

/-- Reads past the indicator. The node around the scalar is indented by `level - 1`, or not at all
if that is zero. -/
def blockScalar? (folded : Bool) (level : Nat) (glyphs : List Glyph) :
    Option (List Char × List Glyph) := do
  let (header, afterHeader) ← blockHeader? (glyphs.drop 1)
  let body ← finishLine? afterHeader
  let said :=
    match header.increment with
    | some increment => level - 1 + increment
    | none => 0
  let (breaks, deepest, first) ← blockBreaks? said 0 body
  let indent := if said = 0 then max (max deepest level) 1 else said
  let (block, rest) ←
    blockLines? folded indent (glyphs.length + 1) { laterBreaks := breaks } first
  some (block.chomp header.chomping, rest)

end ShaderCache.Yaml
