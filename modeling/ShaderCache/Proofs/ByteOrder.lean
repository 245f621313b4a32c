import Mathlib.Tactic.SplitIfs
import ShaderCache.Text.Utf8

/-!
# Texts in the order of their bytes

UTF-8 keeps the order of characters: of two different ones the smaller has the smaller bytes,
whatever follows. Texts are therefore ordered like their bytes, and no character's bytes are a
part of another's, so that texts begin alike when their bytes do.
-/

set_option autoImplicit false

namespace ShaderCache.Text

/-! ## Characters -/

theorem cons_lt_iff {first other : UInt8} {rest others : List UInt8} :
    first :: rest < other :: others ↔
      first.toNat < other.toNat ∨ first.toNat = other.toNat ∧ rest < others := by
  rw [List.cons_lt_cons_iff, UInt8.lt_iff_toNat_lt, UInt8.toNat_inj]

theorem char_bytes_lt {left right : Char} (less : left < right) (rest others : List UInt8) :
    String.utf8EncodeChar left ++ rest < String.utf8EncodeChar right ++ others := by
  have order : left.val.toNat < right.val.toNat := UInt32.lt_iff_toNat_lt.mp less
  have bounded : right.val.toNat < 0x110000 := by
    have valid := right.valid
    simp only [UInt32.isValidChar, Nat.isValidChar] at valid
    omega
  -- A code has up to four digits of six bits each, and the first byte has the number of digits.
  have digits (code : Nat) :
      code / 4096 = code / 64 / 64 ∧ code / 262144 = code / 64 / 64 / 64 := by
    omega
  unfold String.utf8EncodeChar
  generalize left.val.toNat = lower at *
  generalize right.val.toNat = upper at *
  dsimp only
  split_ifs
  all_goals
    simp only [List.cons_append, List.nil_append, cons_lt_iff, UInt8.toNat_ofNat', digits]
    omega

theorem char_bytes_inj {left right : Char} {rest others : List UInt8}
    (same : String.utf8EncodeChar left ++ rest = String.utf8EncodeChar right ++ others) :
    left = right ∧ rest = others := by
  have char_eq : left = right := by
    rcases Std.lt_trichotomy left right with less | equal | greater
    · have bytesLess := char_bytes_lt less rest others
      rw [same] at bytesLess
      exact absurd bytesLess (List.lt_irrefl _)
    · exact equal
    · have bytesLess := char_bytes_lt greater others rest
      rw [same] at bytesLess
      exact absurd bytesLess (List.lt_irrefl _)
  subst char_eq
  exact ⟨rfl, List.append_cancel_left same⟩

/-! ## Texts -/

theorem bytes_lt_of_lt {left right : List Char} (less : left < right) :
    left.flatMap String.utf8EncodeChar < right.flatMap String.utf8EncodeChar := by
  induction less with
  | @nil first rest =>
      rw [List.flatMap_nil, List.flatMap_cons]
      obtain ⟨byte, bytes, encoded⟩ :=
        List.exists_cons_of_ne_nil (String.utf8EncodeChar_ne_nil (c := first))
      rw [encoded]
      exact List.nil_lt_cons _ _
  | rel first => exact char_bytes_lt first _ _
  | cons _ ih => exact List.append_left_lt ih

theorem lt_iff_bytes_lt {left right : String} : left < right ↔ utf8 left < utf8 right := by
  constructor
  · exact fun less => bytes_lt_of_lt (String.lt_iff.mp less)
  · intro bytesLess
    rcases Std.lt_trichotomy left right with less | rfl | greater
    · exact less
    · exact absurd bytesLess (List.lt_irrefl _)
    · exact absurd (bytes_lt_of_lt (String.lt_iff.mp greater)) (List.lt_asymm bytesLess)

/-- Texts are compared like their bytes. -/
theorem compare_lt_iff {left right : String} :
    compare left right = .lt ↔ utf8 left < utf8 right :=
  compareOfLessAndEq_eq_lt.trans lt_iff_bytes_lt

theorem chars_prefix_of_bytes {start text : List Char}
    (starts : start.flatMap String.utf8EncodeChar <+: text.flatMap String.utf8EncodeChar) :
    start <+: text := by
  induction start generalizing text with
  | nil => exact List.nil_prefix
  | cons first rest ih =>
      obtain ⟨others, same⟩ := starts
      cases text with
      | nil =>
          rw [List.flatMap_nil, List.flatMap_cons] at same
          simp [String.utf8EncodeChar_ne_nil] at same
      | cons other more =>
          rw [List.flatMap_cons, List.flatMap_cons, List.append_assoc] at same
          obtain ⟨rfl, tails⟩ := char_bytes_inj same
          exact (List.prefix_cons_inj first).mpr (ih ⟨others, tails⟩)

/-- A text begins with another exactly when its bytes do. -/
theorem bytes_prefix_iff {start text : String} :
    utf8 start <+: utf8 text ↔ ∃ rest, text = start ++ rest := by
  constructor
  · intro starts
    obtain ⟨rest, same⟩ := chars_prefix_of_bytes starts
    refine ⟨String.ofList rest, String.toList_inj.mp ?_⟩
    rw [String.toList_append, String.toList_ofList, same]
  · rintro ⟨rest, rfl⟩
    rw [utf8_append]
    exact List.prefix_append _ _

end ShaderCache.Text
