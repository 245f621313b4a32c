import ShaderCache.Crc64
import ShaderCache.SortedMap
import ShaderCache.Text.Utf8

/-!
# Type conformances

Which concrete types a program offers for which interfaces. Each conformance carries
the number by which the compiled program dispatches to the type; the number is part of
the configuration but not of what a conformance is looked up by.
-/

set_option autoImplicit false

namespace ShaderCache

open Std

structure Conformance where
  typeName : String
  interfaceName : String
  deriving DecidableEq

namespace Conformance

def render (conformance : Conformance) : String :=
  s!"{conformance.typeName}:{conformance.interfaceName}"

/-- By type, then by interface. -/
instance : Ord Conformance :=
  ⟨compareLex (compareOn typeName) (compareOn interfaceName)⟩

instance : TransOrd Conformance :=
  inferInstanceAs (TransCmp (compareLex (compareOn typeName) (compareOn interfaceName)))

instance : LawfulEqOrd Conformance where
  eq_of_compare {left right} same := by
    have ⟨types, interfaces⟩ := compareLex_eq_eq.mp same
    cases left
    cases right
    simp_all [compareOn]

end Conformance

abbrev ConformanceList := SortedMap Conformance UInt32

namespace ConformanceList

/-- Adds a conformance, or gives an existing one its new number. -/
def add (list : ConformanceList) (typeName interfaceName : String) (id : UInt32) :
    ConformanceList :=
  list.insert ⟨typeName, interfaceName⟩ id

def remove (list : ConformanceList) (typeName interfaceName : String) :
    Bool × ConformanceList :=
  (list.contains ⟨typeName, interfaceName⟩, list.erase ⟨typeName, interfaceName⟩)

/-- The union, in which the numbers of the other list win. -/
def addAll (list other : ConformanceList) : ConformanceList :=
  list.insertAll other.entries

def ofTriples (triples : List (String × String × UInt32)) : ConformanceList :=
  triples.foldl (fun list (typeName, interfaceName, id) => list.add typeName interfaceName id)
    SortedMap.empty

def idBytes (id : UInt32) : List UInt8 :=
  [id.toUInt8, (id >>> 8).toUInt8, (id >>> 16).toUInt8, (id >>> 24).toUInt8]

def canonicalBytes (list : ConformanceList) : List UInt8 :=
  list.entries.flatMap fun (conformance, id) =>
    Text.utf8 conformance.typeName ++ [58] ++ Text.utf8 conformance.interfaceName ++ [35] ++
      idBytes id ++ [10]

def digest (list : ConformanceList) : String :=
  Crc64.digest list.canonicalBytes

/-- The order of the lists of entries: conformances first, then numbers. -/
def order (left right : ConformanceList) : Ordering :=
  List.compareLex (compareLex (compareOn Prod.fst) (compareOn Prod.snd))
    left.entries right.entries

end ConformanceList

end ShaderCache
