import ShaderCache.Yaml.Token

/-!
# Nodes

What a YAML document says: scalars, sequences and mappings. An alias stands for the node
that carries the same number; numbers are those that anchors were given, and where two nodes
carry one number, the later one has it.
-/

set_option autoImplicit false

namespace ShaderCache.Yaml

structure Scalar where
  /-- The tag as it is spelled in octets. A lone exclamation mark is one as well. -/
  tag : Option (List UInt8) := none
  text : String
  style : ScalarStyle := .plain

inductive Node where
  | alias (number : Nat)
  | scalar (anchor : Option Nat) (content : Scalar)
  | sequence (anchor : Option Nat) (items : List Node)
  | mapping (anchor : Option Nat) (entries : List (Node × Node))

namespace Node

/-- A place where something could stand, but does not. -/
def absent : Node := .scalar none { text := "" }

def anchor? : Node → Option Nat
  | .alias _ => none
  | .scalar anchor _ => anchor
  | .sequence anchor _ => anchor
  | .mapping anchor _ => anchor

mutual

/-- The node and all nodes in it, in the order in which they begin. -/
def nodes (node : Node) : List Node :=
  node ::
    match node with
    | .alias _ => []
    | .scalar _ _ => []
    | .sequence _ items => nodesOfItems items
    | .mapping _ entries => nodesOfEntries entries

def nodesOfItems : List Node → List Node
  | [] => []
  | item :: rest => nodes item ++ nodesOfItems rest

def nodesOfEntries : List (Node × Node) → List Node
  | [] => []
  | (key, value) :: rest => nodes key ++ nodes value ++ nodesOfEntries rest

end

end Node

/-- The root of a document, and the nodes that its aliases can stand for. -/
structure Document where
  root : Node
  anchored : List (Nat × Node)

namespace Document

def ofRoot (root : Node) : Document where
  root := root
  anchored := root.nodes.filterMap fun node => node.anchor?.map fun number => (number, node)

def resolve (document : Document) : Node → Option Node
  | .alias number => document.anchored.reverse.lookup number
  | node => some node

end Document

end ShaderCache.Yaml
