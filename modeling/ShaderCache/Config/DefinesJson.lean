import ShaderCache.Config.Defines

/-!
# Defines as a JSON object

A set of defines is written as an object of strings without any white space, in the
order of the names. Only such objects are read, with white space between their tokens.
-/

set_option autoImplicit false

namespace ShaderCache.DefinesJson

open Text

/-! ## Writing -/

def shortEscape? (c : Char) : Option Char :=
  if c = '"' then some '"'
  else if c = '\\' then some '\\'
  else if c.toNat = 8 then some 'b'
  else if c.toNat = 12 then some 'f'
  else if c = '\n' then some 'n'
  else if c = '\r' then some 'r'
  else if c = '\t' then some 't'
  else none

def escape (c : Char) : List Char :=
  match shortEscape? c with
  | some letter => ['\\', letter]
  | none => if c.toNat < 0x20 then '\\' :: 'u' :: hexPadded 4 c.toNat else [c]

def quote (text : String) : String :=
  String.ofList ('"' :: text.toList.flatMap escape ++ ['"'])

def write (defines : DefineList) : String :=
  let members := defines.entries.map fun (name, value) => quote name ++ ":" ++ quote value
  "\x7b" ++ joinWith "," members ++ "\x7d"

/-! ## Reading -/

def unescape? (letter : Char) : Option Char :=
  match letter with
  | '"' => some '"'
  | '\\' => some '\\'
  | '/' => some '/'
  | 'b' => some (Char.ofNat 8)
  | 'f' => some (Char.ofNat 12)
  | 'n' => some '\n'
  | 'r' => some '\r'
  | 't' => some '\t'
  | _ => none

def isBefore (chars : List Char) (rest : List Char) : Prop := rest.length < chars.length

/-- What a reader finds at the start of some characters: a value and the characters after it,
which are fewer. -/
abbrev Found (α : Type) (chars : List Char) : Type :=
  Option (α × { rest : List Char // isBefore chars rest })

theorem isBefore_cons (c : Char) (rest : List Char) : isBefore (c :: rest) rest := by
  unfold isBefore
  simp only [List.length_cons]
  omega

theorem isBefore_trans {chars rest after : List Char} (first : isBefore chars rest)
    (second : isBefore rest after) : isBefore chars after :=
  Nat.lt_trans second first

def readCodeUnit? : (chars : List Char) → Found Nat chars
  | a :: b :: c :: d :: rest => do
      let value ← readDigits? 16 [a, b, c, d]
      some (value, ⟨rest, by unfold isBefore; simp only [List.length_cons]; omega⟩)
  | _ => none

/-- What follows `\u`: one code unit, or two that are a surrogate pair. A surrogate on its own
stands for nothing. -/
def readUnicode? (chars : List Char) : Found Char chars := do
  let (high, ⟨rest, shorter⟩) ← readCodeUnit? chars
  if high < 0xD800 ∨ 0xDFFF < high then
    some (Char.ofNat high, ⟨rest, shorter⟩)
  else if 0xDBFF < high then
    none
  else
    match rest, shorter with
    | '\\' :: 'u' :: tail, shorter => do
        let (low, ⟨after, shorterStill⟩) ← readCodeUnit? tail
        if 0xDC00 ≤ low ∧ low ≤ 0xDFFF then
          some (Char.ofNat ((high - 0xD800) * 0x400 + (low - 0xDC00) + 0x10000),
            ⟨after, by unfold isBefore at *; simp only [List.length_cons] at *; omega⟩)
        else
          none
    | _, _ => none

def readChar? : (chars : List Char) → Found Char chars
  | [] => none
  | '\\' :: letter :: rest =>
      if letter = 'u' then do
        let (c, ⟨after, shorter⟩) ← readUnicode? rest
        some (c, ⟨after, by unfold isBefore at *; simp only [List.length_cons] at *; omega⟩)
      else do
        let c ← unescape? letter
        some (c, ⟨rest, isBefore_trans (isBefore_cons _ _) (isBefore_cons _ _)⟩)
  | c :: rest =>
      if c = '\\' ∨ c.toNat < 0x20 then none else some (c, ⟨rest, isBefore_cons c rest⟩)

/-- The characters up to the closing quote, and what follows it. -/
def readString? (chars : List Char) : Found (List Char) chars :=
  match chars with
  | '"' :: rest => some ([], ⟨rest, isBefore_cons _ rest⟩)
  | chars => do
      let (c, ⟨rest, shorter⟩) ← readChar? chars
      let (others, ⟨after, shorterStill⟩) ← readString? rest
      some (c :: others, ⟨after, isBefore_trans shorter shorterStill⟩)
termination_by chars.length

inductive Token where
  | openBrace
  | closeBrace
  | colon
  | comma
  | text (value : String)
  deriving DecidableEq

def isSpace (c : Char) : Bool :=
  c = ' ' || c = '\t' || c = '\n' || c = '\r'

def tokens? (chars : List Char) : Option (List Token) :=
  match chars with
  | [] => some []
  | '\x7b' :: rest => do
      let others ← tokens? rest
      some (.openBrace :: others)
  | '\x7d' :: rest => do
      let others ← tokens? rest
      some (.closeBrace :: others)
  | ':' :: rest => do
      let others ← tokens? rest
      some (.colon :: others)
  | ',' :: rest => do
      let others ← tokens? rest
      some (.comma :: others)
  | '"' :: rest => do
      let (value, ⟨after, _shorter⟩) ← readString? rest
      let others ← tokens? after
      some (.text (String.ofList value) :: others)
  | c :: rest => if isSpace c then tokens? rest else none
termination_by chars.length
decreasing_by
  all_goals simp only [List.length_cons, isBefore] at *
  all_goals omega

/-- The members up to the closing brace, which is the last token. -/
def members? : List Token → Option (List (String × String))
  | [.text name, .colon, .text value, .closeBrace] => some [(name, value)]
  | .text name :: .colon :: .text value :: .comma :: rest => do
      let others ← members? rest
      some ((name, value) :: others)
  | _ => none

def entries? : List Token → Option (List (String × String))
  | [.openBrace, .closeBrace] => some []
  | .openBrace :: rest => members? rest
  | _ => none

/-- The last value of a repeated name wins. -/
def read? (text : String) : Option DefineList := do
  let tokens ← tokens? text.toList
  let entries ← entries? tokens
  some (SortedMap.ofList entries)

end ShaderCache.DefinesJson
