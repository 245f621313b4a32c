import ShaderCache.Text.Numeral

/-!
# What plain scalars mean

A scalar that is not quoted can be null, a truth value or a number. Any other one is text,
and text that would be read as one of these has to be quoted.
-/

set_option autoImplicit false

namespace ShaderCache.Yaml

open Text

def isNull (text : String) : Bool :=
  ["null", "Null", "NULL", "~"].contains text

def bool? (text : String) : Option Bool :=
  if ["true", "True", "TRUE"].contains text then some true
  else if ["false", "False", "FALSE"].contains text then some false
  else none

/-! ## Integers -/

def withoutSign : List Char → List Char
  | '+' :: rest => rest
  | '-' :: rest => rest
  | chars => chars

def readBased? : List Char → Option Nat
  | '0' :: 'x' :: digits => readDigits? 16 digits
  | '0' :: 'o' :: digits => readDigits? 8 digits
  | '0' :: 'b' :: digits => readDigits? 2 digits
  | _ => none

/-- Digits that begin with a needless zero, which are no number. -/
def hasLeadingZero (chars : List Char) : Bool :=
  match withoutSign chars with
  | '0' :: rest => !rest.isEmpty && rest.all isDigit
  | _ => false

def isBelow (limit : Nat) (value : Option Nat) : Bool :=
  match value with
  | some found => found < limit
  | none => false

/-- An integer of at most 128 bits. -/
def isInteger (chars : List Char) : Bool :=
  match chars with
  | '-' :: digits =>
      isBelow (Nat.pow 2 127 + 1) (readBased? digits) ||
        (!hasLeadingZero chars && isBelow (Nat.pow 2 127 + 1) (readDigits? 10 digits))
  | _ =>
      let digits := withoutPlus chars
      isBelow (Nat.pow 2 128) (readBased? digits) ||
        (!hasLeadingZero chars && isBelow (Nat.pow 2 128) (readDigits? 10 digits))

/-! ## Floating point numbers -/

structure Decimal where
  digits : List Char
  exponent : Int

/-- One half unit above the greatest double, where rounding leads to infinity. -/
def doubleLimit : Nat := (Nat.pow 2 54 - 1) * Nat.pow 2 970

/-- Whether the number stays finite as a double. Its magnitude decides, except where the limit
lies. -/
def Decimal.isFinite (number : Decimal) : Bool :=
  let digits := number.digits.dropWhile (· = '0')
  let magnitude := (digits.length : Int) + number.exponent
  if digits.isEmpty || magnitude < 309 then true
  else if 309 < magnitude then false
  else
    decimalValue digits * Nat.pow 10 number.exponent.toNat <
      doubleLimit * Nat.pow 10 (-number.exponent).toNat

def exponent? : List Char → Option Int
  | [] => some 0
  | mark :: rest =>
      if mark = 'e' ∨ mark = 'E' then do
        let value ← readDigits? 10 (withoutSign rest)
        some (if rest.head? = some '-' then -(value : Int) else value)
      else none

/-- Digits with a point somewhere, and an exponent; no sign. -/
def decimal? (chars : List Char) : Option Decimal :=
  let whole := chars.takeWhile isDigit
  let (fraction, rest) :=
    match chars.dropWhile isDigit with
    | '.' :: rest => (rest.takeWhile isDigit, rest.dropWhile isDigit)
    | rest => ([], rest)
  if whole.isEmpty && fraction.isEmpty then none
  else do
    let exponent ← exponent? rest
    some ⟨whole ++ fraction, exponent - fraction.length⟩

def isFiniteDecimal (chars : List Char) : Bool :=
  match decimal? chars with
  | some number => number.isFinite
  | none => false

def infinities : List String :=
  [".inf", ".Inf", ".INF", "+.inf", "+.Inf", "+.INF", "-.inf", "-.Inf", "-.INF"]

def notNumbers : List String := [".nan", ".NaN", ".NAN"]

def isFloat (text : String) : Bool :=
  infinities.contains text || notNumbers.contains text || isFiniteDecimal (withoutSign text.toList)

/-- The text would not be read as text without quotes around it. -/
def needsQuotes (text : String) : Bool :=
  text.isEmpty || isNull text || (bool? text).isSome || isInteger text.toList ||
    hasLeadingZero text.toList || isFloat text

end ShaderCache.Yaml
