/-!
# Tokens

What a YAML text is made of below the level of nodes. Blocks are opened and closed by tokens of
their own, which stand for changes of the indentation.
-/

set_option autoImplicit false

namespace ShaderCache.Yaml

inductive ScalarStyle where
  | plain
  | singleQuoted
  | doubleQuoted
  | literal
  | folded
  deriving DecidableEq

inductive Token where
  | versionDirective (major minor : Nat)
  | tagDirective (handle : List Char) (start : List UInt8)
  | documentStart
  | documentEnd
  | blockSequenceStart
  | blockMappingStart
  | blockEnd
  | flowSequenceStart
  | flowSequenceEnd
  | flowMappingStart
  | flowMappingEnd
  | blockEntry
  | flowEntry
  | key
  | value
  | alias (name : List Char)
  | anchor (name : List Char)
  | tag (handle : List Char) (suffix : List UInt8)
  | scalar (text : List Char) (style : ScalarStyle)
  | streamEnd
  deriving DecidableEq

end ShaderCache.Yaml
