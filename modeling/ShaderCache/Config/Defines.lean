import ShaderCache.Crc64
import ShaderCache.SortedMap
import ShaderCache.Text.Join
import ShaderCache.Text.Utf8

/-!
# Defines

A set of named compile-time constants for the shader compiler, in the order of their
names. Operations that edit a set also tell whether it changed, since an unchanged
configuration is not compiled again.
-/

set_option autoImplicit false

namespace ShaderCache

abbrev DefineList := SortedMap String String

namespace DefineList

def add (defines : DefineList) (name value : String) : Bool × DefineList :=
  if defines.get? name = some value then
    (false, defines)
  else
    (true, defines.insert name value)

def remove (defines : DefineList) (name : String) : Bool × DefineList :=
  (defines.contains name, defines.erase name)

/-- Sets all defines of the other set, whose values win. -/
def addAll (defines other : DefineList) : Bool × DefineList :=
  other.entries.foldl (fun (changed, list) (name, value) =>
    let (added, list) := list.add name value
    (added || changed, list)) (false, defines)

/-- Takes out every define that the other set names, whatever its value. -/
def removeAll (defines other : DefineList) : Bool × DefineList :=
  other.keys.foldl (fun (changed, list) name =>
    let (removed, list) := list.remove name
    (removed || changed, list)) (false, defines)

/-- The sum of two 64-bit numbers, or the largest one where it does not fit. -/
def saturatingAdd (left right : UInt64) : UInt64 :=
  if left.toNat + right.toNat < UInt64.size then left + right else 0xFFFFFFFFFFFFFFFF

/-- The bytes of a name from `position` on, at most `length` of them, are those of `text`. A
name that ends at `position` or before never matches. -/
def nameMatches (position length : UInt64) (text name : String) : Bool :=
  let bytes := Text.utf8 name
  let stop := min bytes.length (saturatingAdd position length).toNat
  decide (position.toNat < bytes.length) &&
    (bytes.take stop).drop position.toNat == Text.utf8 text

/-- Takes out every define with a matching name; tells whether there was one. -/
def removeMatching (defines : DefineList) (position length : UInt64) (text : String) :
    Bool × DefineList :=
  let kept := defines.filter fun (name, _) => !nameMatches position length text name
  (defines.size ≠ kept.size, kept)

def render (defines : DefineList) : String :=
  let items := defines.entries.map fun (name, value) => s!"{name}={value}"
  "\x7b" ++ Text.joinWith ", " items ++ "\x7d"

def canonicalBytes (defines : DefineList) : List UInt8 :=
  defines.entries.flatMap fun (name, value) => Text.utf8 name ++ [61] ++ Text.utf8 value ++ [10]

def digest (defines : DefineList) : String :=
  Crc64.digest defines.canonicalBytes

/-- The order of the lists of entries: names first, then values. -/
def order (left right : DefineList) : Ordering :=
  List.compareLex (compareLex (compareOn Prod.fst) (compareOn Prod.snd))
    left.entries right.entries

end DefineList

end ShaderCache
