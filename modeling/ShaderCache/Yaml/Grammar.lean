import ShaderCache.Text.Utf8
import ShaderCache.Yaml.Node
import ShaderCache.Yaml.Scanner

/-!
# Nodes from tokens

Tokens are read one at a time, with a look at the next one. What may be left out — a value,
a key, an entry — is absent when the token that ends it follows.
-/

set_option autoImplicit false

namespace ShaderCache.Yaml

/-- What is left to read, and what has been declared so far. -/
structure Remaining where
  tokens : List Token
  handles : List (List Char × List UInt8) := []
  /-- The anchors by name, each with its number. -/
  anchors : List (List Char × Nat) := []

abbrev Reading := StateT Remaining Option

namespace Reading

def peek : Reading Token := do
  let remaining ← get
  pure (remaining.tokens.headD .streamEnd)

def skip : Reading Unit :=
  modify fun remaining => { remaining with tokens := remaining.tokens.tail }

def expect (token : Token) : Reading Unit := do
  if (← peek) = token then skip else failure

/-- Passes over the token if it comes next; tells whether it did. -/
def skipIf (token : Token) : Reading Bool := do
  if (← peek) = token then
    skip
    pure true
  else
    pure false

/-! ## Directives -/

def standardHandles : List (List Char × List UInt8) :=
  [(['!'], Text.utf8 "!"), (['!', '!'], Text.utf8 "tag:yaml.org,2002:")]

def declareHandle (handle : List Char) (start : List UInt8) : Reading Unit := do
  let remaining ← get
  if (remaining.handles.lookup handle).isSome then failure
  else set { remaining with handles := remaining.handles ++ [(handle, start)] }

/-- The directives in front of a document: versions 1.1 and 1.2, once, and handles, each once. -/
def directives : Nat → Bool → Reading Unit
  | 0, _ => failure
  | fuel + 1, versioned => do
      match ← peek with
      | .versionDirective major minor =>
          if versioned || major ≠ 1 || !(minor = 1 || minor = 2) then failure
          else
            skip
            directives fuel true
      | .tagDirective handle start =>
          declareHandle handle start
          skip
          directives fuel versioned
      | _ => pure ()

def addStandardHandles : Reading Unit :=
  modify fun remaining => { remaining with handles := remaining.handles ++ standardHandles }

/-! ## Properties of nodes -/

/-- Gives an anchor its number, the count of names before; a name that is used again moves to
its new number. -/
def declareAnchor (name : List Char) : Reading Nat := do
  let remaining ← get
  let number := remaining.anchors.length
  let others := remaining.anchors.filter fun anchor => anchor.1 ≠ name
  set { remaining with anchors := others ++ [(name, number)] }
  pure number

def anchorNumber (name : List Char) : Reading Nat := do
  let remaining ← get
  match remaining.anchors.lookup name with
  | some number => pure number
  | none => failure

/-- A tag without a handle is complete, all others start with what their handle stands for. -/
def wholeTag (handle : List Char) (suffix : List UInt8) : Reading (List UInt8) := do
  if handle = [] then pure suffix
  else
    let remaining ← get
    match remaining.handles.lookup handle with
    | some start => pure (start ++ suffix)
    | none => failure

def anchor? : Reading (Option Nat) := do
  match ← peek with
  | .anchor name =>
      skip
      let number ← declareAnchor name
      pure (some number)
  | _ => pure none

def tag? : Reading (Option (List UInt8)) := do
  match ← peek with
  | .tag handle suffix =>
      skip
      let tag ← wholeTag handle suffix
      pure (some tag)
  | _ => pure none

/-- An anchor and a tag, each of which may be missing, in either order. -/
def properties : Reading (Option Nat × Option (List UInt8)) := do
  match ← anchor? with
  | some number =>
      let tag ← tag?
      pure (some number, tag)
  | none =>
      match ← tag? with
      | some tag =>
          let number ← anchor?
          pure (number, some tag)
      | none => pure (none, none)

/-! ## Nodes -/

inductive Position where
  | flow
  | block
  /-- The key or value of a block mapping, where a sequence need not be indented. -/
  | blockMapping
  deriving DecidableEq

mutual

def node (position : Position) : Nat → Reading Node
  | 0 => failure
  | fuel + 1 => do
      match ← peek with
      | .alias name =>
          let number ← anchorNumber name
          skip
          pure (.alias number)
      | _ =>
          let (anchor, tag) ← properties
          match ← peek with
          | .blockEntry =>
              if position = .blockMapping then
                let items ← compactItems fuel
                pure (.sequence anchor items)
              else absentWith anchor tag
          | .scalar text style =>
              skip
              pure (.scalar anchor ⟨tag, String.ofList text, style⟩)
          | .flowSequenceStart =>
              skip
              let items ← flowItems true fuel
              pure (.sequence anchor items)
          | .flowMappingStart =>
              skip
              let entries ← flowEntries true fuel
              pure (.mapping anchor entries)
          | .blockSequenceStart =>
              if position = .flow then absentWith anchor tag
              else
                skip
                let items ← blockItems fuel
                pure (.sequence anchor items)
          | .blockMappingStart =>
              if position = .flow then absentWith anchor tag
              else
                skip
                let entries ← blockEntries fuel
                pure (.mapping anchor entries)
          | _ => absentWith anchor tag

/-- Nothing but an anchor or a tag: an empty scalar. -/
def absentWith (anchor : Option Nat) (tag : Option (List UInt8)) : Reading Node :=
  if anchor.isSome || tag.isSome then pure (.scalar anchor { tag := tag, text := "" }) else failure

/-- A node, unless one of the tokens comes that can follow it. -/
def nodeUnless (position : Position) (enders : List Token) : Nat → Reading Node
  | 0 => failure
  | fuel + 1 => do
      if enders.contains (← peek) then pure .absent else node position fuel

def blockItems : Nat → Reading (List Node)
  | 0 => failure
  | fuel + 1 => do
      if ← skipIf .blockEntry then
        let item ← nodeUnless .block [.blockEntry, .blockEnd] fuel
        let rest ← blockItems fuel
        pure (item :: rest)
      else
        expect .blockEnd
        pure []

/-- The entries of a sequence at the indentation of the mapping around it. -/
def compactItems : Nat → Reading (List Node)
  | 0 => failure
  | fuel + 1 => do
      if ← skipIf .blockEntry then
        let item ← nodeUnless .block [.blockEntry, .key, .value, .blockEnd] fuel
        let rest ← compactItems fuel
        pure (item :: rest)
      else
        pure []

def blockEntries : Nat → Reading (List (Node × Node))
  | 0 => failure
  | fuel + 1 => do
      if ← skipIf .key then
        let key ← nodeUnless .blockMapping [.key, .value, .blockEnd] fuel
        let value ← blockValue fuel
        let rest ← blockEntries fuel
        pure ((key, value) :: rest)
      else
        expect .blockEnd
        pure []

def blockValue : Nat → Reading Node
  | 0 => failure
  | fuel + 1 => do
      if ← skipIf .value then nodeUnless .blockMapping [.key, .value, .blockEnd] fuel
      else pure .absent

def flowItems (first : Bool) : Nat → Reading (List Node)
  | 0 => failure
  | fuel + 1 => do
      if ← skipIf .flowSequenceEnd then pure []
      else
        if !first then expect .flowEntry
        if ← skipIf .key then
          let entry ← flowPair fuel
          let rest ← flowItems false fuel
          pure (.mapping none [entry] :: rest)
        else if ← skipIf .flowSequenceEnd then pure []
        else
          let item ← node .flow fuel
          let rest ← flowItems false fuel
          pure (item :: rest)

/-- A single pair inside of a sequence. A token in the place of its key is lost. -/
def flowPair : Nat → Reading (Node × Node)
  | 0 => failure
  | fuel + 1 => do
      let enders : List Token := [.value, .flowEntry, .flowSequenceEnd]
      if enders.contains (← peek) then
        skip
        let value ← flowValue .flowSequenceEnd fuel
        pure (.absent, value)
      else
        let key ← node .flow fuel
        let value ← flowValue .flowSequenceEnd fuel
        pure (key, value)

def flowEntries (first : Bool) : Nat → Reading (List (Node × Node))
  | 0 => failure
  | fuel + 1 => do
      if ← skipIf .flowMappingEnd then pure []
      else
        if !first then expect .flowEntry
        if ← skipIf .key then
          let key ← nodeUnless .flow [.value, .flowEntry, .flowMappingEnd] fuel
          let value ← flowValue .flowMappingEnd fuel
          let rest ← flowEntries false fuel
          pure ((key, value) :: rest)
        else if ← skipIf .flowMappingEnd then pure []
        else
          let key ← node .flow fuel
          let rest ← flowEntries false fuel
          pure ((key, .absent) :: rest)

def flowValue (closing : Token) : Nat → Reading Node
  | 0 => failure
  | fuel + 1 => do
      if ← skipIf .value then nodeUnless .flow [.flowEntry, closing] fuel else pure .absent

end

/-! ## Documents -/

def isDirective : Token → Bool
  | .versionDirective _ _ => true
  | .tagDirective _ _ => true
  | _ => false

/-- What a marked document says: nothing, if the next document or the end follows. -/
def content (fuel : Nat) : Reading Node := do
  let next ← peek
  if isDirective next || [Token.documentStart, .documentEnd, .streamEnd].contains next then
    pure .absent
  else node .block fuel

def skipDocumentEnds : Nat → Reading Unit
  | 0 => failure
  | fuel + 1 => do
      if ← skipIf .documentEnd then skipDocumentEnds fuel else pure ()

/-- The one document of a stream. Only a document with a mark can have directives, and nothing
may follow it. -/
def document (fuel : Nat) : Reading Node := do
  let first ← peek
  if first = .streamEnd then pure .absent
  else
    let marked := isDirective first || first = .documentStart
    directives fuel false
    addStandardHandles
    let root ←
      if marked then do
        expect .documentStart
        content fuel
      else node .block fuel
    skipDocumentEnds fuel
    expect .streamEnd
    pure root

end Reading

/-- The document of a text. A text without one has an absent root. -/
def document? (text : String) : Option Document := do
  let tokens ← tokens? text
  let (root, _) ← (Reading.document (4 * tokens.length + 4)).run { tokens := tokens }
  some (.ofRoot root)

end ShaderCache.Yaml
