import ShaderCache.Proofs.SortedMapLookup

/-!
# Laws of sorted maps

What look-ups find after a list of entries has been put into a map, after the entries of some keys
have been taken out, and after any number of steps each of which acts on the value of each key by
itself. Since maps with the same look-ups are equal, the laws of unions follow, and a map that is
made of entries one by one is the one that sorting them gives.
-/

set_option autoImplicit false

namespace ShaderCache

open Std

universe u v w

/-! ## Rows of entries with one key -/

namespace Entries

section Rows

variable {κ : Type u} {ν : Type v} [DecidableEq κ]

/-- Of each row of entries with one key the last one. -/
def lastOfRows : List (κ × ν) → List (κ × ν)
  | [] => []
  | [entry] => [entry]
  | entry :: next :: rest =>
      if entry.1 = next.1 then lastOfRows (next :: rest)
      else entry :: lastOfRows (next :: rest)

theorem mem_last_of_rows {entry : κ × ν} {entries : List (κ × ν)}
    (present : entry ∈ lastOfRows entries) : entry ∈ entries := by
  induction entries using lastOfRows.induct with
  | case1 => exact present
  | case2 => exact present
  | case3 first next rest same ih =>
      rw [lastOfRows, if_pos same] at present
      exact List.mem_cons_of_mem _ (ih present)
  | case4 first next rest differ ih =>
      rw [lastOfRows, if_neg differ] at present
      rcases List.mem_cons.mp present with here | later
      · exact here ▸ List.mem_cons_self
      · exact List.mem_cons_of_mem _ (ih later)

/-- The value of the first entry is the last one of its key only if no later entry has the key. -/
theorem lookup_reverse_cons (key : κ) (first : κ × ν) (rest : List (κ × ν)) :
    (first :: rest).reverse.lookup key =
      (rest.reverse.lookup key).or (if key = first.1 then some first.2 else none) := by
  rw [List.reverse_cons, List.lookup_append, List.lookup_cons, List.lookup_nil]
  by_cases here : key = first.1
  · simp [here]
  · simp [here, beq_eq_false_iff_ne.mpr here]

theorem lookup_filter (key : κ) (entries : List (κ × ν)) :
    (entries.filter fun entry => entry.1 = key).lookup key = entries.lookup key := by
  induction entries with
  | nil => rfl
  | cons first rest ih =>
      obtain ⟨name, value⟩ := first
      by_cases here : name = key
      · simp [here]
      · rw [List.filter_cons, if_neg (by simpa using here), ih, List.lookup_cons,
          beq_eq_false_iff_ne.mpr (Ne.symm here)]

end Rows

/-! ## Sorting entries -/

section Sorting

variable {κ : Type u} {ν : Type v} [Ord κ]

/-- By their keys; entries of one key stay in their order. -/
def inOrder (entries : List (κ × ν)) : List (κ × ν) :=
  entries.mergeSort fun earlier later => (compare earlier.1 later.1).isLE

def InOrder (entries : List (κ × ν)) : Prop :=
  entries.Pairwise fun earlier later => (compare earlier.1 later.1).isLE

variable [TransOrd κ]

theorem keys_trans (first second third : κ × ν) (below : (compare first.1 second.1).isLE)
    (above : (compare second.1 third.1).isLE) : (compare first.1 third.1).isLE :=
  TransCmp.isLE_trans below above

theorem keys_total (first second : κ × ν) :
    (compare first.1 second.1).isLE || (compare second.1 first.1).isLE := by
  have swapped : compare second.1 first.1 = (compare first.1 second.1).swap := OrientedCmp.eq_swap
  rw [swapped]
  cases compare first.1 second.1 <;> rfl

theorem in_order_sorted (entries : List (κ × ν)) : InOrder (inOrder entries) :=
  List.pairwise_mergeSort keys_trans keys_total entries

variable [LawfulEqOrd κ]

/-- What follows an entry with another key is above it. -/
theorem above_of_differ {first next : κ × ν} {rest : List (κ × ν)}
    (sorted : InOrder (first :: next :: rest)) (differ : first.1 ≠ next.1) :
    ∀ entry ∈ next :: rest, compare first.1 entry.1 = .lt := by
  obtain ⟨notBelow, tail⟩ := List.pairwise_cons.mp sorted
  have nextAbove : compare first.1 next.1 = .lt := by
    have notGreater := notBelow next List.mem_cons_self
    cases order : compare first.1 next.1 with
    | lt => rfl
    | eq => exact absurd (LawfulEqCmp.compare_eq_iff_eq.mp order) differ
    | gt => simp [order] at notGreater
  intro entry present
  rcases List.mem_cons.mp present with here | later
  · exact here ▸ nextAbove
  · exact TransCmp.lt_of_lt_of_isLE nextAbove ((List.pairwise_cons.mp tail).1 entry later)

variable [DecidableEq κ]

theorem increasing_last_of_rows {entries : List (κ × ν)} (sorted : InOrder entries) :
    Increasing (lastOfRows entries) := by
  induction entries using lastOfRows.induct with
  | case1 => exact List.Pairwise.nil
  | case2 entry => exact List.pairwise_singleton _ _
  | case3 first next rest same ih =>
      rw [lastOfRows, if_pos same]
      exact ih (List.pairwise_cons.mp sorted).2
  | case4 first next rest differ ih =>
      rw [lastOfRows, if_neg differ]
      refine List.pairwise_cons.mpr ⟨fun entry present => ?_, ih (List.pairwise_cons.mp sorted).2⟩
      exact above_of_differ sorted differ entry (mem_last_of_rows present)

theorem get_last_of_rows {entries : List (κ × ν)} (sorted : InOrder entries) (key : κ) :
    get? key (lastOfRows entries) = entries.reverse.lookup key := by
  induction entries using lastOfRows.induct with
  | case1 => rfl
  | case2 entry =>
      rw [lastOfRows, get_cons, lookup_reverse_cons]
      rfl
  | case3 first next rest same ih =>
      rw [lastOfRows, if_pos same, ih (List.pairwise_cons.mp sorted).2,
        lookup_reverse_cons key first, lookup_reverse_cons key next, same]
      by_cases here : key = next.1
      · simp [here]
      · simp [here]
  | case4 first next rest differ ih =>
      rw [lastOfRows, if_neg differ, get_cons, ih (List.pairwise_cons.mp sorted).2,
        lookup_reverse_cons key first]
      by_cases here : key = first.1
      · have absent : (next :: rest).reverse.lookup key = none := by
          rw [List.lookup_eq_none_iff]
          intro entry present
          have less := above_of_differ sorted differ entry (List.mem_reverse.mp present)
          have key_ne : key ≠ entry.1 := by
            rintro same
            simp [← here, same] at less
          simpa using key_ne
        rw [absent, if_pos here, Option.none_or]
      · rw [if_neg here, if_neg here, Option.or_none]

/-- Sorting moves no entry past another one of the same key. -/
theorem lookup_in_order (entries : List (κ × ν)) (key : κ) :
    (inOrder entries).reverse.lookup key = entries.reverse.lookup key := by
  let ofKey := fun entry : κ × ν => decide (entry.1 = key)
  have equalKeys : InOrder (entries.filter ofKey) := by
    apply List.pairwise_filter.mpr
    apply List.pairwise_of_forall
    intro earlier later here there
    rw [of_decide_eq_true here, of_decide_eq_true there]
    exact ReflCmp.isLE_rfl
  have sublist : (entries.filter ofKey).Sublist (inOrder entries) :=
    List.sublist_mergeSort keys_trans keys_total equalKeys List.filter_sublist
  have same : entries.filter ofKey = (inOrder entries).filter ofKey := by
    have filtered := sublist.filter ofKey
    rw [List.filter_filter] at filtered
    simp only [Bool.and_self] at filtered
    exact filtered.eq_of_length ((List.mergeSort_perm entries _).filter ofKey).length_eq.symm
  rw [← lookup_filter key (inOrder entries).reverse, ← lookup_filter key entries.reverse,
    List.filter_reverse, List.filter_reverse]
  exact congrArg (fun kept : List (κ × ν) => kept.reverse.lookup key) same.symm

end Sorting

end Entries

/-! ## Entries and look-ups -/

theorem Entries.get_some_iff {κ : Type u} {ν : Type v} [Ord κ] [LawfulEqOrd κ] [DecidableEq κ]
    {entries : List (κ × ν)} (increasing : Increasing entries) {key : κ} {value : ν} :
    get? key entries = some value ↔ (key, value) ∈ entries := by
  induction entries with
  | nil => simp [get?]
  | cons first rest ih =>
      obtain ⟨name, held⟩ := first
      obtain ⟨above, tail⟩ := List.pairwise_cons.mp increasing
      rw [get_cons, List.mem_cons]
      by_cases here : key = name
      · subst here
        have absent : (key, value) ∉ rest := by
          intro later
          have less := above _ later
          simp at less
        simp [absent, eq_comm]
      · simp [here, ih tail]

namespace SortedMap

section Building

variable {κ : Type u} {ν : Type v} [Ord κ] [LawfulEqOrd κ] [DecidableEq κ]

theorem get_some_iff {map : SortedMap κ ν} {key : κ} {value : ν} :
    map.get? key = some value ↔ (key, value) ∈ map.entries :=
  Entries.get_some_iff map.increasing

theorem mem_keys_iff {map : SortedMap κ ν} {key : κ} :
    key ∈ map.keys ↔ map.contains key = true := by
  rw [keys, List.mem_map, contains, Option.isSome_iff_exists]
  simp only [get_some_iff, Prod.exists, exists_and_right, exists_eq_right]

theorem get_none_iff {map : SortedMap κ ν} {key : κ} : map.get? key = none ↔ key ∉ map.keys := by
  rw [mem_keys_iff, contains, Option.not_isSome_iff_eq_none]

/-- Taking out entries by their keys. -/
theorem get_filter (map : SortedMap κ ν) (keep : κ → Bool) (key : κ) :
    (map.filter fun entry => keep entry.1).get? key =
      if keep key then map.get? key else none := by
  change Entries.get? key (map.entries.filter fun entry => keep entry.1) =
    if keep key then Entries.get? key map.entries else none
  induction map.entries with
  | nil => simp [Entries.get?]
  | cons first rest ih =>
      rw [List.filter_cons, Entries.get_cons]
      by_cases kept : keep first.1
      · rw [if_pos kept, Entries.get_cons, ih]
        by_cases here : key = first.1
        · simp [here, kept]
        · simp [here]
      · rw [if_neg kept, ih]
        by_cases here : key = first.1
        · simp [here, kept]
        · simp [here]

variable [TransOrd κ]

/-- The last entry of a key wins over earlier ones, and over the map. -/
theorem get_insert_list (map : SortedMap κ ν) (entries : List (κ × ν)) (key : κ) :
    (map.insertAll entries).get? key = (entries.reverse.lookup key).or (map.get? key) := by
  induction entries generalizing map with
  | nil => rfl
  | cons first rest ih =>
      have rest_eq := ih (map.insert first.1 first.2)
      rw [insertAll, List.foldl_cons, Entries.lookup_reverse_cons, Option.or_assoc]
      refine rest_eq.trans ?_
      rw [get_insert]
      split
      next => rfl
      next => rw [Option.none_or]

theorem get_of_list (entries : List (κ × ν)) (key : κ) :
    (ofList entries).get? key = entries.reverse.lookup key := by
  rw [ofList, get_insert_list]
  exact Option.or_none

theorem entries_of_list (entries : List (κ × ν)) :
    (ofList entries).entries = Entries.lastOfRows (Entries.inOrder entries) := by
  have sorted := Entries.in_order_sorted entries
  apply Entries.eq_of_get_eq (ofList entries).increasing (Entries.increasing_last_of_rows sorted)
  intro key
  rw [Entries.get_last_of_rows sorted, Entries.lookup_in_order]
  exact get_of_list entries key

end Building

/-! ## Steps and unions -/

variable {κ : Type u} {ν : Type v} [Ord κ]

/-- What steps make of the value of a key, one after the other, if each of them acts on the value
of each key by itself. -/
theorem get_fold {Step : Type w} {apply : SortedMap κ ν → Step → SortedMap κ ν}
    {effect : Step → κ → Option ν → Option ν}
    (acts : ∀ map step key, (apply map step).get? key = effect step key (map.get? key))
    (steps : List Step) (map : SortedMap κ ν) (key : κ) :
    (steps.foldl apply map).get? key =
      steps.foldl (fun value step => effect step key value) (map.get? key) := by
  induction steps generalizing map with
  | nil => rfl
  | cons step rest ih => rw [List.foldl_cons, List.foldl_cons, ih, acts]

/-- Keys of both maps have the same value in both. -/
def Agrees (left right : SortedMap κ ν) : Prop :=
  ∀ key value other, left.get? key = some value → right.get? key = some other → value = other

/-- A union in which the values of the second map win. -/
structure UnitesLawfully (unite : SortedMap κ ν → SortedMap κ ν → SortedMap κ ν) : Prop where
  get : ∀ left right key, (unite left right).get? key = (right.get? key).or (left.get? key)
  assoc : ∀ left middle right,
    unite (unite left middle) right = unite left (unite middle right)
  idem : ∀ map, unite map map = map
  comm : ∀ left right, unite left right = unite right left ↔ left.Agrees right

/-- The look-ups of a union entail its laws. -/
theorem unites_lawfully [TransOrd κ] [LawfulEqOrd κ] [DecidableEq κ]
    {unite : SortedMap κ ν → SortedMap κ ν → SortedMap κ ν}
    (get : ∀ left right key, (unite left right).get? key = (right.get? key).or (left.get? key)) :
    UnitesLawfully unite where
  get := get
  assoc left middle right := by
    apply eq_of_get_eq
    intro key
    rw [get, get, get, get, Option.or_assoc]
  idem map := by
    apply eq_of_get_eq
    intro key
    rw [get, Option.or_self]
  comm left right := by
    rw [eq_iff_get_eq]
    constructor
    · intro same key value other here there
      have values := same key
      rw [get, get, here, there] at values
      exact (Option.some.inj values).symm
    · intro agrees key
      rw [get, get]
      cases here : left.get? key with
      | none => exact Option.or_none
      | some value =>
          cases there : right.get? key with
          | none => rfl
          | some other => rw [agrees key value other here there]

end SortedMap

end ShaderCache
