import ShaderCache.Text.Utf8
import ShaderCache.Yaml.Node
import ShaderCache.Yaml.PlainValue

/-!
# Values in a document

What a node is worth where a value of some kind is expected, none where it is of another kind.
An empty place stands for an empty collection.
-/

set_option autoImplicit false

namespace ShaderCache.Yaml.Document

/-- Nothing was written there, at most a tag. -/
def isBlank (content : Scalar) : Bool :=
  content.text = "" && content.style = .plain

/-- Any scalar is text, exactly as it is written. -/
def text? (document : Document) (node : Node) : Option String :=
  match document.resolve node with
  | some (.scalar _ content) => some content.text
  | _ => none

def items? (document : Document) (node : Node) : Option (List Node) :=
  match document.resolve node with
  | some (.sequence _ items) => some items
  | some (.scalar _ content) => if isBlank content then some [] else none
  | _ => none

def entries? (document : Document) (node : Node) : Option (List (Node × Node)) :=
  match document.resolve node with
  | some (.mapping _ entries) => some entries
  | some (.scalar _ content) => if isBlank content then some [] else none
  | _ => none

def coreTag (name : String) : Option (List UInt8) :=
  some (Text.utf8 ("tag:yaml.org,2002:" ++ name))

/-- Truth values are plain; a literal block is one too if its tag says so. -/
def truth? (document : Document) (node : Node) : Option Bool :=
  match document.resolve node with
  | some (.scalar _ content) =>
      if content.style = .plain ∨ (content.style = .literal ∧ content.tag = coreTag "bool") then
        bool? content.text
      else none
  | _ => none

/-- A plain scalar can say that there is no text. With the tag of null it has to, with any other
tag it cannot. -/
def optionalText? (document : Document) (node : Node) : Option (Option String) :=
  match document.resolve node with
  | some (.scalar _ content) =>
      if content.style ≠ .plain then some (some content.text)
      else if content.tag = coreTag "null" then
        if isNull content.text then some none else none
      else if content.tag = none ∧ (content.text = "" ∨ isNull content.text) then some none
      else some (some content.text)
  | _ => none

def texts? (document : Document) (node : Node) : Option (List String) := do
  let items ← document.items? node
  items.mapM document.text?

def textEntries? (document : Document) (node : Node) : Option (List (String × String)) := do
  let entries ← document.entries? node
  entries.mapM fun (key, value) => do
    let name ← document.text? key
    let text ← document.text? value
    some (name, text)

/-- The entries with one of the names, each of which may occur once. All other entries are
passed over, but their keys have to be text as well. -/
def fields? (document : Document) (names : List String) (node : Node) :
    Option (List (String × Node)) := do
  let entries ← document.entries? node
  let named ← entries.mapM fun (key, value) => do
    let name ← document.text? key
    some (name, value)
  let known := named.filter fun (name, _) => names.contains name
  if (known.map Prod.fst).Nodup then some known else none

def field? {α : Type} (fields : List (String × Node)) (name : String) (default : α)
    (read : Node → Option α) : Option α :=
  match fields.lookup name with
  | some node => read node
  | none => some default

end ShaderCache.Yaml.Document
