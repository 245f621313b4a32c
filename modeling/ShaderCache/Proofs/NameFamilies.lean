import ShaderCache.Proofs.ByteOrder
import ShaderCache.Proofs.ConfigurationEdit

/-!
# Families of names

Defines are removed by what their names have at some place. The place and the number of bytes may be
any 64-bit numbers, also ones whose sum is not, and the place may be inside of a character.
-/

set_option autoImplicit false

namespace ShaderCache.DefineList

open Text (utf8)

/-- The bytes from `start` up to `stop`, unless the bounds are out of range. -/
def slice? (bytes : List UInt8) (start stop : Nat) : Option (List UInt8) :=
  if start ≤ stop ∧ stop ≤ bytes.length then some (bytes.extract start stop) else none

/-- The name goes on after `position`, and its next `length` bytes, or as many as there are, are
those of the text. -/
def InFamily (position length : Nat) (text name : String) : Prop :=
  let bytes := utf8 name
  position < bytes.length ∧
    bytes.extract position (min bytes.length (position + length)) = utf8 text

instance {position length : Nat} {text name : String} :
    Decidable (InFamily position length text name) :=
  inferInstanceAs (Decidable (_ ∧ _))

/-! ## Bounds -/

theorem saturating_add_to_nat (left right : UInt64) :
    (saturatingAdd left right).toNat = min (left.toNat + right.toNat) (UInt64.size - 1) := by
  have leftBound := left.toNat_lt
  have size : UInt64.size = 2 ^ 64 := rfl
  unfold saturatingAdd
  split
  next fits =>
    rw [UInt64.toNat_add, Nat.mod_eq_of_lt (size ▸ fits)]
    omega
  next =>
    change 2 ^ 64 - 1 = _
    omega

theorem drop_take_eq (bytes : List UInt8) (start stop : Nat) :
    (bytes.take stop).drop start = bytes.extract start stop := by
  rw [List.extract_eq_take_drop, List.drop_take]

/-- A name is looked into within its bounds. -/
theorem name_matches_slice (position length : UInt64) (text : String) {name : String}
    (inside : position.toNat < (utf8 name).length) :
    let stop := min (utf8 name).length (saturatingAdd position length).toNat
    ∃ slice, slice? (utf8 name) position.toNat stop = some slice ∧
      (nameMatches position length text name = true ↔ slice = utf8 text) := by
  intro stop
  have inRange : position.toNat ≤ stop ∧ stop ≤ (utf8 name).length := by
    have bound := position.toNat_lt
    have sum := saturating_add_to_nat position length
    have size : UInt64.size = 2 ^ 64 := rfl
    omega
  refine ⟨_, if_pos inRange, ?_⟩
  simp only [nameMatches, inside, decide_true, Bool.true_and, beq_iff_eq, drop_take_eq]
  rfl

/-- The largest number is not less than the length of any name, so it does as well as the sum. -/
theorem name_matches_iff {position length : UInt64} {text name : String}
    (fits : (utf8 name).length < UInt64.size) :
    nameMatches position length text name = true ↔
      InFamily position.toNat length.toNat text name := by
  have stop_eq : min (utf8 name).length (saturatingAdd position length).toNat =
      min (utf8 name).length (position.toNat + length.toNat) := by
    have sum := saturating_add_to_nat position length
    omega
  simp only [nameMatches, InFamily, Bool.and_eq_true, decide_eq_true_eq, beq_iff_eq, drop_take_eq,
    stop_eq]

/-! ## Families -/

section Families

variable {position length : Nat} {text name : String}

theorem bytes_positive (nonempty : text ≠ "") : 0 < (utf8 text).length := by
  apply List.length_pos_iff.mpr
  intro none
  exact nonempty (Text.utf8_injective none)

theorem in_family_prefix_iff (nonempty : text ≠ "") :
    InFamily 0 (utf8 text).length text name ↔ ∃ rest, name = text ++ rest := by
  have positive := bytes_positive nonempty
  rw [← Text.bytes_prefix_iff, InFamily, List.extract_eq_take_drop, List.drop_zero, Nat.sub_zero,
    Nat.zero_add]
  constructor
  · rintro ⟨_, same⟩
    exact same ▸ List.take_prefix _ _
  · intro starts
    have shorter := starts.length_le
    rw [Nat.min_eq_right shorter]
    exact ⟨by omega, (List.prefix_iff_eq_take.mp starts).symm⟩

theorem not_in_family_of_short (short : length < (utf8 text).length) :
    ¬ InFamily position length text name := by
  rintro ⟨_, same⟩
  have sizes := congrArg List.length same
  rw [List.extract_eq_take_drop, List.length_take] at sizes
  omega

/-- With room for more bytes than the text has, a name has to end with it. -/
theorem in_family_tail_iff (nonempty : text ≠ "") (long : (utf8 text).length < length) :
    InFamily position length text name ↔ (utf8 name).drop position = utf8 text := by
  have positive := bytes_positive nonempty
  have whole : (utf8 name).length ≤ position + length →
      (utf8 name).extract position (min (utf8 name).length (position + length)) =
        (utf8 name).drop position := by
    intro inside
    rw [Nat.min_eq_left inside, List.extract_eq_take_drop, ← List.length_drop, List.take_length]
  constructor
  · rintro ⟨_, same⟩
    have sizes := congrArg List.length same
    rw [List.extract_eq_take_drop, List.length_take, List.length_drop] at sizes
    rw [← same, whole (by omega)]
  · intro same
    have sizes := congrArg List.length same
    rw [List.length_drop] at sizes
    exact ⟨by omega, (whole (by omega)).trans same⟩

end Families

/-! ## Removing a family -/

variable {defines : DefineList} {position length : UInt64} {text : String}

theorem remove_matching_changed_iff :
    (defines.removeMatching position length text).1 = true ↔
      ∃ name ∈ defines.keys, nameMatches position length text name = true := by
  constructor
  · intro changed
    apply Classical.byContradiction
    intro none
    have same : (defines.removeMatching position length text).2 = defines := by
      apply SortedMap.eq_of_get_eq
      intro name
      rw [get_remove_matching]
      split
      next found =>
        have absent : name ∉ defines.keys := fun present => none ⟨name, present, found⟩
        exact (SortedMap.get_none_iff.mpr absent).symm
      next => rfl
    have sizes : defines.size ≠ (defines.removeMatching position length text).2.size :=
      of_decide_eq_true changed
    exact sizes (by rw [same])
  · rintro ⟨name, present, found⟩
    cases changed : (defines.removeMatching position length text).1 with
    | true => rfl
    | false =>
        have gone := get_remove_matching defines position length text name
        rw [remove_matching_unchanged changed, if_pos found] at gone
        exact absurd present (SortedMap.get_none_iff.mp gone)

theorem contains_remove_matching (name : String) (present : name ∈ defines.keys) :
    (defines.removeMatching position length text).2.contains name = false ↔
      nameMatches position length text name = true := by
  rw [SortedMap.mem_keys_iff, SortedMap.contains] at present
  rw [SortedMap.contains, get_remove_matching]
  split
  next found => simp [found]
  next found => simp [found, present]

theorem remove_matching_of_none
    (none : ∀ name ∈ defines.keys, nameMatches position length text name = false) :
    defines.removeMatching position length text = (false, defines) := by
  have flag : (defines.removeMatching position length text).1 = false := by
    rw [Bool.eq_false_iff, ne_eq, remove_matching_changed_iff]
    rintro ⟨name, present, found⟩
    simp [none name present] at found
  exact Prod.ext flag (remove_matching_unchanged flag)

theorem remove_matching_again (defines : DefineList) (position length : UInt64) (text : String) :
    let kept := (defines.removeMatching position length text).2
    kept.removeMatching position length text = (false, kept) := by
  apply remove_matching_of_none
  intro name present
  rw [SortedMap.mem_keys_iff, SortedMap.contains, get_remove_matching] at present
  split at present
  next => simp at present
  next differs => exact Bool.eq_false_iff.mpr differs

/-- Names in memory have fewer than 2^64 bytes. Then exactly the names of the family are removed,
with the sum of position and length as it is, and the answer tells whether there were any. No bound
is out of range, the sum in use never wraps, and doing it again removes nothing. With fewer bytes
than the text has nothing is removed; with as many from the start on, the names that begin with it;
with more, the names that end with it from the position on. -/
theorem remove_matching_removes_family (defines : DefineList) (position length : UInt64)
    (text : String) (fits : ∀ name ∈ defines.keys, (utf8 name).length < UInt64.size) :
    let result := defines.removeMatching position length text
    (∀ name, result.2.get? name =
      if InFamily position.toNat length.toNat text name then none else defines.get? name) ∧
    (result.1 = true ↔ ∃ name ∈ defines.keys, result.2.contains name = false) ∧
    result.2.removeMatching position length text = (false, result.2) ∧
    (saturatingAdd position length).toNat =
      min (position.toNat + length.toNat) (UInt64.size - 1) ∧
    (∀ name ∈ defines.keys, position.toNat < (utf8 name).length →
      let stop := min (utf8 name).length (saturatingAdd position length).toNat
      ∃ slice, slice? (utf8 name) position.toNat stop = some slice ∧
        (nameMatches position length text name = true ↔ slice = utf8 text)) ∧
    (length.toNat < (utf8 text).length → result = (false, defines)) ∧
    (text ≠ "" →
      (position = 0 → length.toNat = (utf8 text).length → ∀ name ∈ defines.keys,
        (result.2.contains name = false ↔ ∃ rest, name = text ++ rest)) ∧
      ((utf8 text).length < length.toNat → ∀ name ∈ defines.keys,
        (result.2.contains name = false ↔ (utf8 name).drop position.toNat = utf8 text))) := by
  intro result
  have removed : ∀ name ∈ defines.keys, (result.2.contains name = false ↔
      InFamily position.toNat length.toNat text name) := by
    intro name present
    rw [contains_remove_matching name present, name_matches_iff (fits name present)]
  refine ⟨?_, ?_, defines.remove_matching_again position length text,
    saturating_add_to_nat position length, ?_, ?_, ?_⟩
  · intro name
    by_cases present : name ∈ defines.keys
    · rw [get_remove_matching]
      simp only [name_matches_iff (fits name present)]
    · rw [get_remove_matching, SortedMap.get_none_iff.mpr present]
      split <;> split <;> rfl
  · rw [remove_matching_changed_iff]
    constructor
    · rintro ⟨name, present, found⟩
      exact ⟨name, present, (contains_remove_matching name present).mpr found⟩
    · rintro ⟨name, present, gone⟩
      exact ⟨name, present, (contains_remove_matching name present).mp gone⟩
  · exact fun name _ inside => name_matches_slice position length text inside
  · intro short
    apply remove_matching_of_none
    intro name present
    rw [Bool.eq_false_iff, ne_eq, name_matches_iff (fits name present)]
    exact not_in_family_of_short short
  · intro nonempty
    constructor
    · rintro rfl whole name present
      rw [removed name present, whole]
      exact in_family_prefix_iff nonempty
    · intro long name present
      rw [removed name present, in_family_tail_iff nonempty long]

/-- Position and length add up to more than a number can be, and one name ends at the position. -/
theorem remove_matching_beyond_sum :
    let defines : DefineList :=
      .ofList [("SHADOW_MAP", "1"), ("SHADOW_MAPS", "2"), ("ÄSHADOWMAP", "3"), ("MAP", "4")]
    let result := defines.removeMatching 7 0xFFFFFFFFFFFFFFFF "MAP"
    (∀ name ∈ defines.keys, (utf8 name).length < UInt64.size) ∧ result.1 = true ∧
      ["SHADOW_MAP", "SHADOW_MAPS", "ÄSHADOWMAP", "MAP"].map result.2.get? =
        [none, some "2", some "3", some "4"] ∧
      result.2.removeMatching 7 0xFFFFFFFFFFFFFFFF "MAP" = (false, result.2) := by
  intro defines result
  have fits : ∀ name ∈ defines.keys, (utf8 name).length < UInt64.size := by decide +kernel
  obtain ⟨values, changed, again, _⟩ :=
    remove_matching_removes_family defines 7 0xFFFFFFFFFFFFFFFF "MAP" fits
  have gone : InFamily (7 : UInt64).toNat (0xFFFFFFFFFFFFFFFF : UInt64).toNat "MAP"
      "SHADOW_MAP" := by
    decide +kernel
  refine ⟨fits, changed.mpr ⟨"SHADOW_MAP", by decide +kernel, ?_⟩, ?_, again⟩
  · rw [SortedMap.contains, values, if_pos gone]
    rfl
  · simp only [List.map_cons, List.map_nil, result, values]
    decide +kernel

end ShaderCache.DefineList
