import ShaderCache.Yaml.Quoting

/-!
# Block layout

Mappings are written one entry to a line, indented by two columns for each mapping around
them. The entries of a sequence stand at the indentation of the mapping that holds it. Empty
collections are written in brackets.
-/

set_option autoImplicit false

namespace ShaderCache.Yaml

/-- What can be written: sequences hold nothing but text. -/
inductive Value where
  | null
  | bool (value : Bool)
  | text (value : String)
  | texts (items : List String)
  | table (entries : List (String × Value))

/-- Line breaks of a scalar itself can end the line already. -/
def endLine (line : List Char) : List Char :=
  match line.getLast? with
  | some c => if isBreak c then line else line ++ ['\n']
  | none => ['\n']

def padding (indent : Nat) : List Char :=
  List.replicate indent ' '

def renderLine (indent : Nat) (text : String) : List Char :=
  endLine (renderScalar (padding (indent + 2)) text)

def renderItem (indent : Nat) (text : String) : List Char :=
  padding indent ++ '-' :: ' ' :: renderLine indent text

/-- A key and its colon. A key that does not fit on the line of its value has one of its own. -/
def renderKey (indent : Nat) (key : String) : List Char :=
  if isSimpleKey key then
    padding indent ++ renderScalar (padding (indent + 2)) key ++ [':']
  else
    padding indent ++ '?' :: ' ' :: renderLine indent key ++ padding indent ++ [':']

mutual

def renderValue (indent : Nat) : Value → List Char
  | .null => " null\n".toList
  | .bool value => if value then " true\n".toList else " false\n".toList
  | .text value => ' ' :: renderLine indent value
  | .texts [] => " []\n".toList
  | .texts items => '\n' :: items.flatMap (renderItem indent)
  | .table [] => [' ', '\x7b', '\x7d', '\n']
  | .table (first :: rest) => '\n' :: renderEntries (indent + 2) (first :: rest)

def renderEntries (indent : Nat) : List (String × Value) → List Char
  | [] => []
  | (key, value) :: rest =>
      renderKey indent key ++ renderValue indent value ++ renderEntries indent rest

end

def renderDocument (entries : List (String × Value)) : String :=
  String.ofList (renderEntries 0 entries)

end ShaderCache.Yaml
