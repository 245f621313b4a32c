import ShaderCache.SortedMap

/-!
# Look-ups in sorted maps

What each operation does to look-ups. Since the entries are kept in order, the look-ups
determine the map: however two maps were built, they are equal as soon as they answer alike.
-/

set_option autoImplicit false

namespace ShaderCache

open Std

universe u v

namespace Entries

variable {κ : Type u} {ν : Type v} [Ord κ]

theorem get_none_of_above {key : κ} {entries : List (κ × ν)}
    (above : ∀ entry ∈ entries, compare key entry.1 = .lt) : get? key entries = none := by
  induction entries with
  | nil => rfl
  | cons first rest ih =>
      have here : compare key first.1 = .lt := above first List.mem_cons_self
      have later := ih fun entry present => above entry (List.mem_cons_of_mem _ present)
      simp [get?, here, later]

theorem get_none_of_head_above [TransOrd κ] {key : κ} {first : κ × ν} {rest : List (κ × ν)}
    (increasing : Increasing (first :: rest)) (below : compare key first.1 = .lt) :
    get? key (first :: rest) = none := by
  apply get_none_of_above
  intro entry present
  rcases List.mem_cons.mp present with here | later
  · exact here ▸ below
  · exact TransCmp.lt_trans below ((List.pairwise_cons.mp increasing).1 entry later)

variable [LawfulEqOrd κ] [DecidableEq κ]

theorem get_cons (key : κ) (first : κ × ν) (rest : List (κ × ν)) :
    get? key (first :: rest) = if key = first.1 then some first.2 else get? key rest := by
  simp only [get?, LawfulEqCmp.compare_eq_iff_eq]

theorem erase_cons (key : κ) (first : κ × ν) (rest : List (κ × ν)) :
    erase key (first :: rest) =
      if key = first.1 then erase key rest else first :: erase key rest := by
  simp only [erase, List.filter_cons, ne_eq, LawfulEqCmp.compare_eq_iff_eq]
  by_cases gone : key = first.1 <;> simp [gone]

theorem get_insert (key other : κ) (value : ν) (entries : List (κ × ν)) :
    get? other (insert key value entries) =
      if other = key then some value else get? other entries := by
  induction entries with
  | nil => simp [insert, get_cons, get?]
  | cons first rest ih =>
      simp only [insert]
      split
      next below => simp [get_cons]
      next same =>
        have key_eq : key = first.1 := LawfulEqCmp.compare_eq_iff_eq.mp same
        subst key_eq
        simp only [get_cons]
        split <;> rfl
      next greater =>
        have key_ne : key ≠ first.1 := by
          intro equal
          simp [equal] at greater
        simp only [get_cons, ih]
        by_cases here : other = first.1
        · simp [here, Ne.symm key_ne]
        · simp [here]

theorem get_erase (key other : κ) (entries : List (κ × ν)) :
    get? other (erase key entries) = if other = key then none else get? other entries := by
  induction entries with
  | nil => simp [erase, get?]
  | cons first rest ih =>
      rw [erase_cons, get_cons]
      by_cases gone : key = first.1
      · rw [if_pos gone, ih, gone]
        split <;> rfl
      · rw [if_neg gone, get_cons, ih]
        by_cases here : other = first.1
        · simp [here, Ne.symm gone]
        · simp [here]

variable [TransOrd κ]

/-- Induction on both lists: a first key that the other list does not start with would be
found in one of them only. -/
theorem eq_of_get_eq {left right : List (κ × ν)} (leftIncreasing : Increasing left)
    (rightIncreasing : Increasing right) (same : ∀ key, get? key left = get? key right) :
    left = right := by
  induction left generalizing right with
  | nil =>
      cases right with
      | nil => rfl
      | cons other others =>
          have found := same other.1
          simp [get?] at found
  | cons first rest ih =>
      cases right with
      | nil =>
          have found := same first.1
          simp [get?] at found
      | cons other others =>
          have head_eq : first.1 = other.1 := by
            cases order : compare first.1 other.1 with
            | lt =>
                have found := same first.1
                rw [get_none_of_head_above rightIncreasing order] at found
                simp [get_cons] at found
            | eq => exact LawfulEqCmp.compare_eq_iff_eq.mp order
            | gt =>
                have found := same other.1
                rw [get_none_of_head_above leftIncreasing (OrientedCmp.gt_iff_lt.mp order)]
                  at found
                simp [get_cons] at found
          have value_eq : first.2 = other.2 := by
            have found := same first.1
            simpa [get_cons, head_eq] using found
          have ⟨leftAbove, leftTail⟩ := List.pairwise_cons.mp leftIncreasing
          have ⟨rightAbove, rightTail⟩ := List.pairwise_cons.mp rightIncreasing
          have tail_eq : rest = others := by
            apply ih leftTail rightTail
            intro key
            by_cases here : key = first.1
            · rw [get_none_of_above fun entry present => here ▸ leftAbove entry present,
                get_none_of_above fun entry present =>
                  (here.trans head_eq) ▸ rightAbove entry present]
            · have found := same key
              simpa [get_cons, here, head_eq ▸ here] using found
          rw [tail_eq, Prod.ext head_eq value_eq]

end Entries

namespace SortedMap

variable {κ : Type u} {ν : Type v} [Ord κ]

variable [LawfulEqOrd κ] [DecidableEq κ]

theorem get_erase (map : SortedMap κ ν) (key other : κ) :
    (map.erase key).get? other = if other = key then none else map.get? other :=
  Entries.get_erase key other map.entries

variable [TransOrd κ]

theorem get_insert (map : SortedMap κ ν) (key other : κ) (value : ν) :
    (map.insert key value).get? other = if other = key then some value else map.get? other :=
  Entries.get_insert key other value map.entries

theorem get_insert_entries (map : SortedMap κ ν) {entries : List (κ × ν)}
    (increasing : Entries.Increasing entries) (key : κ) :
    (map.insertAll entries).get? key = (Entries.get? key entries).or (map.get? key) := by
  induction entries generalizing map with
  | nil => rfl
  | cons first rest ih =>
      obtain ⟨above, tail⟩ := List.pairwise_cons.mp increasing
      have rest_eq := ih (map.insert first.1 first.2) tail
      rw [insertAll, List.foldl_cons]
      refine rest_eq.trans ?_
      rw [get_insert, Entries.get_cons]
      by_cases here : key = first.1
      · subst here
        simp [Entries.get_none_of_above above]
      · simp [here]

/-- In a union the values of the other map win. -/
theorem get_insert_all (map other : SortedMap κ ν) (key : κ) :
    (map.insertAll other.entries).get? key = (other.get? key).or (map.get? key) :=
  map.get_insert_entries other.increasing key

/-- Maps with the same look-ups are equal. -/
theorem eq_of_get_eq {left right : SortedMap κ ν}
    (same : ∀ key, left.get? key = right.get? key) : left = right :=
  eq_of_entries_eq (Entries.eq_of_get_eq left.increasing right.increasing same)

theorem eq_iff_get_eq {left right : SortedMap κ ν} :
    left = right ↔ ∀ key, left.get? key = right.get? key :=
  ⟨fun equal key => by rw [equal], eq_of_get_eq⟩

theorem erase_of_absent {map : SortedMap κ ν} {key : κ} (absent : map.contains key = false) :
    map.erase key = map := by
  apply eq_of_get_eq
  intro other
  have missing : map.get? key = none := by simpa [contains] using absent
  by_cases here : other = key
  · simp [get_erase, here, missing]
  · simp [get_erase, here]

end SortedMap

end ShaderCache
