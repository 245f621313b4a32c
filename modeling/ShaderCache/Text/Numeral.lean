/-!
# Numerals

Hexadecimal digits as fingerprints and flags print them, and the decimal numerals of
profile names.
-/

set_option autoImplicit false

namespace ShaderCache.Text

def hexDigit (value : Nat) : Char :=
  if value % 16 < 10 then Char.ofNat ('0'.toNat + value % 16)
  else Char.ofNat ('a'.toNat + (value % 16 - 10))

/-- The lowest `count` hexadecimal digits, most significant first. -/
def hexPadded : Nat → Nat → List Char
  | 0, _ => []
  | count + 1, value => hexPadded count (value / 16) ++ [hexDigit value]

def hexWidth (value : Nat) : Nat :=
  if value < 16 then 1 else hexWidth (value / 16) + 1

def hex (value : Nat) : String :=
  String.ofList (hexPadded (hexWidth value) value)

def hex64 (value : UInt64) : String :=
  String.ofList (hexPadded 16 value.toNat)

def isDigit (c : Char) : Bool :=
  '0' ≤ c && c ≤ '9'

def digitValue (c : Char) : Nat :=
  c.toNat - '0'.toNat

def hexValue? (c : Char) : Option Nat :=
  if isDigit c then some (digitValue c)
  else if 'a' ≤ c && c ≤ 'f' then some (c.toNat - 'a'.toNat + 10)
  else if 'A' ≤ c && c ≤ 'F' then some (c.toNat - 'A'.toNat + 10)
  else none

def decimalValue (digits : List Char) : Nat :=
  digits.foldl (fun value c => 10 * value + digitValue c) 0

def withoutPlus : List Char → List Char
  | '+' :: rest => rest
  | chars => chars

/-- One optional plus sign and one or more digits, of a value below `2 ^ 32`. -/
def readNat32? (chars : List Char) : Option Nat :=
  let digits := withoutPlus chars
  if digits ≠ [] ∧ digits.all isDigit ∧ decimalValue digits < UInt32.size then
    some (decimalValue digits)
  else
    none

/-- The value of a run of digits in the given base, none if it is empty or has another
character. -/
def readDigits? (base : Nat) (chars : List Char) : Option Nat :=
  if chars.isEmpty then none
  else
    chars.foldlM (fun value c => do
      let digit ← hexValue? c
      if digit < base then some (base * value + digit) else none) 0

end ShaderCache.Text
