import Mathlib.Data.List.Induction
import Mathlib.Data.Nat.Digits.Defs
import ShaderCache.Program.ShaderModel

/-!
# Profile names

A profile name is `sm_`, the major number, an underscore and the minor number. The numbers are
decimal numerals of any length, each with one plus sign or none in front, and white space may
surround the whole name. Just these texts are read as shader models, and any other text is reported
as malformed as it was given.
-/

set_option autoImplicit false

namespace ShaderCache

namespace Text

/-! ## White space around a text -/

theorem digit_not_blank {c : Char} (from0 : '0' ≤ c) (to9 : c ≤ '9') : isBlank c = false := by
  have lower : 48 ≤ c.toNat := from0
  have upper : c.toNat ≤ 57 := to9
  simp only [isBlank, Bool.or_eq_false_iff, Bool.and_eq_false_iff, decide_eq_false_iff_not]
  omega

/-- Trimming takes white space off both ends and nothing else. -/
theorem trim_blanks_split (chars : List Char) :
    ∃ before after, (∀ c ∈ before, isBlank c) ∧ (∀ c ∈ after, isBlank c) ∧
      chars = before ++ trimBlanks chars ++ after := by
  have blank {c : Char} {text : List Char} (taken : c ∈ text.takeWhile isBlank) : isBlank c :=
    List.all_eq_true.mp List.all_takeWhile c taken
  let rest := chars.dropWhile isBlank
  let ending := (rest.reverse.takeWhile isBlank).reverse
  have front : chars = chars.takeWhile isBlank ++ rest := List.takeWhile_append_dropWhile.symm
  have back : rest = trimBlanks chars ++ ending := by
    apply List.reverse_inj.mp
    rw [List.reverse_append, trimBlanks, List.reverse_reverse, List.reverse_reverse,
      List.takeWhile_append_dropWhile]
  refine ⟨chars.takeWhile isBlank, ending, fun c => blank, ?_, ?_⟩
  · intro c held
    exact blank (List.mem_reverse.mp held)
  · rw [List.append_assoc, ← back]
    exact front

/-- What starts and ends with other characters is left over between white space. -/
theorem trim_blanks_between {before after middle : List Char} {first last : Char}
    (blankBefore : ∀ c ∈ before, isBlank c) (blankAfter : ∀ c ∈ after, isBlank c)
    (starts : middle.head? = some first) (firstKept : isBlank first = false)
    (ends : middle.getLast? = some last) (lastKept : isBlank last = false) :
    trimBlanks (before ++ middle ++ after) = middle := by
  obtain ⟨others, fromFirst⟩ := List.head?_eq_some_iff.mp starts
  obtain ⟨inits, toLast⟩ := List.getLast?_eq_some_iff.mp ends
  have front : (before ++ middle ++ after).dropWhile isBlank = middle ++ after := by
    rw [List.append_assoc, List.dropWhile_append_of_pos blankBefore, fromFirst, List.cons_append]
    apply List.dropWhile_cons_of_neg
    rw [firstKept]
    exact Bool.false_ne_true
  have back : (middle ++ after).reverse.dropWhile isBlank = middle.reverse := by
    have blankReversed : ∀ c ∈ after.reverse, isBlank c :=
      fun c held => blankAfter c (List.mem_reverse.mp held)
    rw [List.reverse_append, List.dropWhile_append_of_pos blankReversed, toLast,
      List.reverse_append, List.reverse_singleton, List.singleton_append]
    apply List.dropWhile_cons_of_neg
    rw [lastKept]
    exact Bool.false_ne_true
  rw [trimBlanks, front, back, List.reverse_reverse]

/-! ## Numerals -/

/-- One or more decimal digits and the number they stand for. -/
structure Digits (value : Nat) (digits : List Char) : Prop where
  written : digits ≠ []
  decimal : ∀ c ∈ digits, '0' ≤ c ∧ c ≤ '9'
  worth : Nat.ofDigits 10 (digits.reverse.map digitValue) = value

/-- Digits with one plus sign in front or none. -/
inductive Numeral (value : Nat) : List Char → Prop where
  | bare {digits : List Char} : Digits value digits → Numeral value digits
  | signed {digits : List Char} : Digits value digits → Numeral value ('+' :: digits)

/-- Reading from the left gives every digit the weight of its place. -/
theorem decimal_value_eq (digits : List Char) :
    decimalValue digits = Nat.ofDigits 10 (digits.reverse.map digitValue) := by
  induction digits using List.reverseRecOn with
  | nil => rfl
  | append_singleton digits c ih =>
      have last : decimalValue (digits ++ [c]) = 10 * decimalValue digits + digitValue c := by
        simp only [decimalValue, List.foldl_append, List.foldl_cons, List.foldl_nil]
      rw [last, ih, List.reverse_append, List.reverse_singleton, List.singleton_append,
        List.map_cons, Nat.ofDigits_cons, Nat.add_comm]

theorem without_plus_eq {digits : List Char} (unsigned : '+' ∉ digits) :
    withoutPlus digits = digits := by
  unfold withoutPlus
  split
  · exact absurd List.mem_cons_self unsigned
  · rfl

theorem Digits.not_mem {value : Nat} {digits : List Char} {c : Char} (number : Digits value digits)
    (other : ¬ ('0' ≤ c ∧ c ≤ '9')) : c ∉ digits :=
  fun held => other (number.decimal c held)

theorem numeral_iff {value : Nat} {text : List Char} :
    Numeral value text ↔ Digits value (withoutPlus text) := by
  constructor
  · intro numeral
    cases numeral with
    | bare number =>
        rw [without_plus_eq (number.not_mem (by decide))]
        exact number
    | signed number => exact number
  · intro number
    unfold withoutPlus at number
    split at number
    · exact .signed number
    · exact .bare number

theorem read_nat32_iff {text : List Char} {value : Nat} :
    readNat32? text = some value ↔ Numeral value text ∧ value < UInt32.size := by
  have digits : (withoutPlus text).all isDigit ↔ ∀ c ∈ withoutPlus text, '0' ≤ c ∧ c ≤ '9' := by
    simp only [List.all_eq_true, isDigit, Bool.and_eq_true, decide_eq_true_eq]
  simp only [readNat32?, Option.ite_none_right_eq_some, Option.some.injEq, numeral_iff, digits]
  constructor
  · rintro ⟨⟨written, decimal, fits⟩, worth⟩
    rw [worth] at fits
    rw [decimal_value_eq] at worth
    exact ⟨⟨written, decimal, worth⟩, fits⟩
  · rintro ⟨⟨written, decimal, worth⟩, fits⟩
    rw [← decimal_value_eq] at worth
    rw [worth]
    exact ⟨⟨written, decimal, fits⟩, rfl⟩

theorem Numeral.no_underscore {value : Nat} {text : List Char} (numeral : Numeral value text) :
    '_' ∉ text := by
  cases numeral with
  | bare number => exact number.not_mem (by decide)
  | signed number =>
      intro held
      cases held with
      | tail _ within => exact number.not_mem (by decide) within

/-- Every numeral ends with a digit. -/
theorem Numeral.last_digit {value : Nat} {text : List Char} (numeral : Numeral value text) :
    ∃ last, text.getLast? = some last ∧ '0' ≤ last ∧ last ≤ '9' := by
  cases numeral with
  | bare number =>
      have held := List.getLast_mem number.written
      exact ⟨_, List.getLast?_eq_some_getLast number.written, number.decimal _ held⟩
  | @signed digits number =>
      have held := List.getLast_mem number.written
      refine ⟨digits.getLast number.written, ?_, number.decimal _ held⟩
      rw [List.getLast?_cons, List.getLast?_eq_some_getLast number.written, Option.getD_some]

theorem numeral_of_digit {value : Nat} (small : value < 10) :
    Numeral value [Char.ofNat ('0'.toNat + value)] := by
  have digit : ∀ one : Fin 10, '0' ≤ Char.ofNat ('0'.toNat + one) ∧
      Char.ofNat ('0'.toNat + one) ≤ '9' ∧ digitValue (Char.ofNat ('0'.toNat + one)) = one := by
    decide
  obtain ⟨from0, to9, worth⟩ := digit ⟨value, small⟩
  apply Numeral.bare
  constructor
  · exact List.cons_ne_nil _ _
  · intro c held
    rw [List.mem_singleton.mp held]
    exact ⟨from0, to9⟩
  · rw [List.reverse_singleton, List.map_singleton, Nat.ofDigits_singleton]
    exact worth

end Text

/-! ## Profile names -/

namespace ShaderModel

open Text (Numeral)

/-- The text is `sm_`, a numeral, an underscore and a numeral. -/
def Names (major minor : Nat) (text : List Char) : Prop :=
  ∃ first second, Numeral major first ∧ Numeral minor second ∧
    text = 's' :: 'm' :: '_' :: (first ++ '_' :: second)

/-- The text is the name of a profile of major version six, in white space or without it. -/
def Spells (minor : Nat) (profile : String) : Prop :=
  ∃ before name after : String, Text.allBlank before ∧ Text.allBlank after ∧
    Names 6 minor name.toList ∧ profile = before ++ name ++ after

theorem split_version_iff {chars first second : List Char} :
    splitVersion? chars = some (first, second) ↔ chars = first ++ '_' :: second ∧ '_' ∉ first := by
  unfold splitVersion?
  constructor
  · intro read
    have whole : chars.takeWhile (· ≠ '_') ++ chars.dropWhile (· ≠ '_') = chars :=
      List.takeWhile_append_dropWhile
    cases dropped : chars.dropWhile (· ≠ '_') with
    | nil => simp only [dropped, reduceCtorEq] at read
    | cons stop rest =>
        simp only [dropped, Option.some.injEq, Prod.mk.injEq] at read
        have isStop : stop = '_' := by
          have kept := List.head?_dropWhile_not (· ≠ '_') chars
          rw [dropped] at kept
          simpa using kept
        rw [dropped, read.1, read.2, isStop] at whole
        refine ⟨whole.symm, fun held => ?_⟩
        rw [← read.1] at held
        have clear := List.all_eq_true.mp List.all_takeWhile '_' held
        simp at clear
  · rintro ⟨rfl, clear⟩
    have taken : ∀ c ∈ first, decide (c ≠ '_') = true := by
      intro c held
      apply decide_eq_true
      intro same
      rw [same] at held
      exact clear held
    rw [List.dropWhile_append_of_pos taken, List.takeWhile_append_of_pos taken]
    simp

theorem minor_lt (model : ShaderModel) : model.minor < 8 := by
  cases model <;> decide

theorem exists_minor {minor : Nat} (known : minor < 8) :
    ∃ model : ShaderModel, model.minor = minor := by
  have every : ∀ one : Fin 8, ∃ model ∈ all, model.minor = one := by decide
  obtain ⟨model, _, same⟩ := every ⟨minor, known⟩
  exact ⟨model, same⟩

theorem find_eq_some_iff {major minor : Nat} {model : ShaderModel} :
    (all.find? fun other => other.major = major && other.minor = minor) = some model ↔
      major = 6 ∧ minor = model.minor := by
  constructor
  · intro found
    have meets := List.find?_some found
    simp only [Bool.and_eq_true, decide_eq_true_eq] at meets
    exact ⟨meets.1.symm, meets.2.symm⟩
  · rintro ⟨rfl, rfl⟩
    cases model <;> rfl

/-- Without white space around them, just the profile names are read. -/
theorem of_profile_chars_iff {chars : List Char} {model : ShaderModel} :
    ofProfileChars? chars = some model ↔ Names 6 model.minor chars := by
  constructor
  · intro read
    unfold ofProfileChars? at read
    split at read
    next version =>
      simp only [Option.bind_eq_bind, Option.bind_eq_some_iff, Prod.exists, find_eq_some_iff,
        split_version_iff, Text.read_nat32_iff] at read
      obtain ⟨first, second, ⟨whole, _⟩, major, ⟨firstReads, _⟩, minor, ⟨secondReads, _⟩, six,
        same⟩ := read
      rw [six] at firstReads
      rw [same] at secondReads
      exact ⟨first, second, firstReads, secondReads, by rw [whole]⟩
    next => cases read
  · rintro ⟨first, second, firstReads, secondReads, rfl⟩
    have minorFits : model.minor < UInt32.size := Nat.lt_trans model.minor_lt (by decide)
    have split : splitVersion? (first ++ '_' :: second) = some (first, second) :=
      split_version_iff.mpr ⟨rfl, firstReads.no_underscore⟩
    have major : Text.readNat32? first = some 6 :=
      Text.read_nat32_iff.mpr ⟨firstReads, by decide⟩
    have minor : Text.readNat32? second = some model.minor :=
      Text.read_nat32_iff.mpr ⟨secondReads, minorFits⟩
    simp only [ofProfileChars?, Option.bind_eq_bind, split, major, minor, Option.bind_some]
    exact find_eq_some_iff.mpr ⟨rfl, rfl⟩

/-- A name has no white space at its ends, so trimming gives it back. -/
theorem Names.trimmed {major minor : Nat} {before text after : List Char}
    (named : Names major minor text) (blankBefore : ∀ c ∈ before, Text.isBlank c)
    (blankAfter : ∀ c ∈ after, Text.isBlank c) :
    Text.trimBlanks (before ++ text ++ after) = text := by
  obtain ⟨first, second, _, secondReads, whole⟩ := named
  obtain ⟨last, isLast, from0, to9⟩ := secondReads.last_digit
  have starts : text.head? = some 's' := by rw [whole, List.head?_cons]
  have ends : text.getLast? = some last := by
    have regrouped : text = ('s' :: 'm' :: '_' :: first ++ ['_']) ++ second := by
      rw [whole, List.append_assoc]
      rfl
    rw [regrouped, List.getLast?_append, isLast, Option.some_or]
  exact Text.trim_blanks_between blankBefore blankAfter starts (by decide) ends
    (Text.digit_not_blank from0 to9)

theorem spells_iff {profile : String} {minor : Nat} :
    Spells minor profile ↔ Names 6 minor (Text.trimBlanks profile.toList) := by
  constructor
  · rintro ⟨before, name, after, blankBefore, blankAfter, named, rfl⟩
    rw [String.toList_append, String.toList_append,
      named.trimmed (List.all_eq_true.mp blankBefore) (List.all_eq_true.mp blankAfter)]
    exact named
  · intro named
    obtain ⟨before, after, blankBefore, blankAfter, whole⟩ := Text.trim_blanks_split profile.toList
    refine ⟨String.ofList before, String.ofList (Text.trimBlanks profile.toList),
      String.ofList after, ?_, ?_, ?_, ?_⟩
    · rw [Text.allBlank, String.toList_ofList]
      exact List.all_eq_true.mpr blankBefore
    · rw [Text.allBlank, String.toList_ofList]
      exact List.all_eq_true.mpr blankAfter
    · rw [String.toList_ofList]
      exact named
    · rw [← String.ofList_append, ← String.ofList_append, ← whole, String.ofList_toList]

theorem profile_names (model : ShaderModel) : Names 6 model.minor model.profile.toList := by
  refine ⟨['6'], [Char.ofNat ('0'.toNat + model.minor)], Text.numeral_of_digit (by decide),
    Text.numeral_of_digit (Nat.lt_trans model.minor_lt (by decide)), ?_⟩
  cases model <;> decide

theorem of_profile_ok_iff {profile : String} {model : ShaderModel} :
    ofProfile profile = .ok model ↔ Spells model.minor profile := by
  rw [spells_iff, ← of_profile_chars_iff, ofProfile]
  cases ofProfileChars? (Text.trimBlanks profile.toList) with
  | none => simp only [reduceCtorEq]
  | some read => simp only [Except.ok.injEq, Option.some.injEq]

theorem of_profile_error_iff {profile : String} :
    ofProfile profile = .error (.malformedProfile profile) ↔
      ∀ model, ofProfile profile ≠ .ok model := by
  rw [ofProfile]
  cases ofProfileChars? (Text.trimBlanks profile.toList) with
  | none => simp only [ne_eq, reduceCtorEq, not_false_eq_true, implies_true]
  | some read =>
      simp only [reduceCtorEq, false_iff, not_forall, not_not]
      exact ⟨read, rfl⟩

/-- The names of the profiles, in white space or without it, are read as their models, and no
other text is. -/
theorem profiles_read_exactly :
    (∀ profile model, ofProfile profile = .ok model ↔ Spells model.minor profile) ∧
    (∀ profile, ofProfile profile = .error (.malformedProfile profile) ↔
      ∀ minor ≤ 7, ¬ Spells minor profile) ∧
    (∀ minor, minor ≤ 7 ↔ ∃ model : ShaderModel, model.minor = minor) ∧
    ∀ (model : ShaderModel) (before after : String), Text.allBlank before → Text.allBlank after →
      ofProfile (before ++ model.profile ++ after) = .ok model := by
  refine ⟨fun profile model => of_profile_ok_iff, fun profile => ?_, fun minor => ?_, ?_⟩
  · rw [of_profile_error_iff]
    constructor
    · intro unread minor known spelled
      obtain ⟨model, same⟩ := exists_minor (Nat.lt_succ_of_le known)
      rw [← same] at spelled
      exact unread model (of_profile_ok_iff.mpr spelled)
    · intro unspelled model read
      exact unspelled model.minor (Nat.le_of_lt_succ model.minor_lt) (of_profile_ok_iff.mp read)
  · constructor
    · intro known
      exact exists_minor (Nat.lt_succ_of_le known)
    · rintro ⟨model, rfl⟩
      exact Nat.le_of_lt_succ model.minor_lt
  · intro model before after blankBefore blankAfter
    apply of_profile_ok_iff.mpr
    exact ⟨before, model.profile, after, blankBefore, blankAfter, model.profile_names, rfl⟩

/-- Zeros and plus signs in front of the numbers do not matter, a number that only agrees in its
lowest 32 bits does. -/
theorem padded_profile_read :
    Spells 7 "\u3000 sm_+06_+0007\n" ∧ ofProfile "\u3000 sm_+06_+0007\n" = .ok .sm67 ∧
      ofProfile ("\t" ++ ShaderModel.profile .sm65 ++ "\u2028") = .ok .sm65 ∧
      ∀ minor ≤ 7, ¬ Spells minor "sm_6_4294967303" := by
  obtain ⟨reads, malformed, _, surrounded⟩ := profiles_read_exactly
  have six : Numeral 6 ['+', '0', '6'] := .signed ⟨by decide, by simp, rfl⟩
  have seven : Numeral 7 ['+', '0', '0', '0', '7'] := .signed ⟨by decide, by simp, rfl⟩
  have spelled : Spells 7 "\u3000 sm_+06_+0007\n" :=
    ⟨"\u3000 ", "sm_+06_+0007", "\n", by decide, by decide, ⟨_, _, six, seven, by decide⟩,
      by decide⟩
  have beyond : ofProfile "sm_6_4294967303" = .error (.malformedProfile "sm_6_4294967303") := rfl
  exact ⟨spelled, (reads _ .sm67).mpr spelled,
    surrounded .sm65 "\t" "\u2028" (by decide) (by decide), (malformed _).mp beyond⟩

example :
    ["sm_6_5_", "sm_6_5_1", "sm_-6_5", "sm_6_++5", "sm_6 _5", "sm__5", "sm_6_"].map
      (fun profile => (ofProfile profile).toOption) = List.replicate 7 none := by
  decide

end ShaderModel

end ShaderCache
