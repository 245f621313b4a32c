/-!
# Identifiers

A sequence hands out 64-bit identifiers, counting up from its first one and wrapping
around after the last.
-/

set_option autoImplicit false

namespace ShaderCache

structure IdSequence where
  upcoming : UInt64
  deriving DecidableEq

namespace IdSequence

def startingAt (first : UInt64) : IdSequence := ⟨first⟩

def peek (ids : IdSequence) : UInt64 := ids.upcoming

def draw (ids : IdSequence) : UInt64 × IdSequence :=
  (ids.upcoming, ⟨ids.upcoming + 1⟩)

def drawMany : Nat → IdSequence → List UInt64 × IdSequence
  | 0, ids => ([], ids)
  | count + 1, ids =>
      let (first, rest) := ids.draw
      let (others, after) := drawMany count rest
      (first :: others, after)

/-- Where identifiers start unless zero has to be told apart from all of them. -/
def initial : IdSequence := startingAt 1

end IdSequence

end ShaderCache
