import ShaderCache.Text.CaseTable

/-!
# Lower case

The full lower-case mapping of Unicode: a letter goes to its lower-case letter, the
dotted capital I to two characters, and a capital sigma to the final form where a word ends.
-/

set_option autoImplicit false

namespace ShaderCache.Text

def inRanges (ranges : List (Nat × Nat)) (c : Char) : Bool :=
  ranges.any fun (low, high) => low ≤ c.toNat && c.toNat ≤ high

def isCased (c : Char) : Bool :=
  inRanges CaseTable.casedRanges c

def isCaseIgnorable (c : Char) : Bool :=
  inRanges CaseTable.ignorableRanges c

def capitalSigma : Char := 'Σ'

def smallSigma : Char := 'σ'

def finalSigma : Char := 'ς'

def lowerChar (c : Char) : Char :=
  let run := CaseTable.lowercaseRuns.find? fun (first, last, step, _) =>
    first ≤ c.toNat && c.toNat ≤ last && (c.toNat - first) % step = 0
  match run with
  | some (first, _, _, image) => Char.ofNat (image + (c.toNat - first))
  | none => c

/-- Past the characters that do not count, a letter with a case comes first. -/
def meetsCased (chars : List Char) : Bool :=
  match chars.dropWhile isCaseIgnorable with
  | [] => false
  | c :: _ => isCased c

/-- `before` holds the characters in front, nearest first. -/
def lowerChars (before : List Char) : List Char → List Char
  | [] => []
  | c :: rest =>
      let lowered :=
        if c = capitalSigma then
          if meetsCased before && !meetsCased rest then [finalSigma] else [smallSigma]
        else if c = 'İ' then ['i', '\u0307']
        else [lowerChar c]
      lowered ++ lowerChars (c :: before) rest

def lowercase (text : String) : String :=
  String.ofList (lowerChars [] text.toList)

end ShaderCache.Text
