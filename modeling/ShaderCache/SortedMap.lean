/-!
# Maps kept in the order of their keys

Defines and type conformances are compared, hashed and looked up as sets of
named values. A map is therefore the list of its entries in increasing order of
the keys: two maps with the same lookups are the same value, however they were
built.
-/

set_option autoImplicit false

namespace ShaderCache

open Std

universe u v

namespace Entries

variable {κ : Type u} {ν : Type v} [Ord κ]

/-- Each key is less than every later one. -/
def Increasing (entries : List (κ × ν)) : Prop :=
  entries.Pairwise fun earlier later => compare earlier.1 later.1 = .lt

/-- Puts the entry where its key belongs, in place of an entry with that key. -/
def insert (key : κ) (value : ν) : List (κ × ν) → List (κ × ν)
  | [] => [(key, value)]
  | (first, kept) :: rest =>
      match compare key first with
      | .lt => (key, value) :: (first, kept) :: rest
      | .eq => (key, value) :: rest
      | .gt => (first, kept) :: insert key value rest

def get? (key : κ) : List (κ × ν) → Option ν
  | [] => none
  | (first, value) :: rest =>
      if compare key first = .eq then some value else get? key rest

def erase (key : κ) (entries : List (κ × ν)) : List (κ × ν) :=
  entries.filter fun entry => compare key entry.1 ≠ .eq

theorem mem_insert {key : κ} {value : ν} {entries : List (κ × ν)} {entry : κ × ν}
    (present : entry ∈ insert key value entries) :
    entry = (key, value) ∨ entry ∈ entries := by
  induction entries with
  | nil => simpa [insert] using present
  | cons first rest ih =>
      simp only [insert] at present
      split at present
      · simpa using present
      · rcases List.mem_cons.mp present with here | later
        · exact .inl here
        · exact .inr (List.mem_cons_of_mem _ later)
      · rcases List.mem_cons.mp present with here | later
        · exact .inr (here ▸ List.mem_cons_self)
        · exact (ih later).imp_right (List.mem_cons_of_mem _)

theorem increasing_insert [TransOrd κ] [LawfulEqOrd κ]
    {key : κ} {value : ν} {entries : List (κ × ν)} (increasing : Increasing entries) :
    Increasing (insert key value entries) := by
  induction entries with
  | nil => simp [insert, Increasing]
  | cons first rest ih =>
      have ⟨above, tail⟩ := List.pairwise_cons.mp increasing
      simp only [insert]
      split
      next below =>
        refine List.pairwise_cons.mpr ⟨fun entry present => ?_, increasing⟩
        rcases List.mem_cons.mp present with here | later
        · exact here ▸ below
        · exact TransCmp.lt_trans below (above entry later)
      next same =>
        have key_eq := LawfulEqCmp.compare_eq_iff_eq.mp same
        exact List.pairwise_cons.mpr ⟨fun entry present => key_eq ▸ above entry present, tail⟩
      next greater =>
        refine List.pairwise_cons.mpr ⟨fun entry present => ?_, ih tail⟩
        rcases mem_insert present with here | later
        · exact here ▸ OrientedCmp.gt_iff_lt.mp greater
        · exact above entry later

theorem increasing_filter {entries : List (κ × ν)} (keep : κ × ν → Bool)
    (increasing : Increasing entries) : Increasing (entries.filter keep) :=
  List.Pairwise.filter _ increasing

end Entries

/-- A finite map: its entries, in increasing order of their keys. -/
structure SortedMap (κ : Type u) (ν : Type v) [Ord κ] where
  entries : List (κ × ν)
  increasing : Entries.Increasing entries

namespace SortedMap

variable {κ : Type u} {ν : Type v} [Ord κ]

theorem eq_of_entries_eq {left right : SortedMap κ ν} (same : left.entries = right.entries) :
    left = right := by
  cases left
  cases right
  simpa using same

instance [DecidableEq κ] [DecidableEq ν] : DecidableEq (SortedMap κ ν) := fun left right =>
  if same : left.entries = right.entries then
    isTrue (eq_of_entries_eq same)
  else
    isFalse fun equal => same (equal ▸ rfl)

def empty : SortedMap κ ν := ⟨[], List.Pairwise.nil⟩

instance : EmptyCollection (SortedMap κ ν) := ⟨empty⟩

instance : Inhabited (SortedMap κ ν) := ⟨empty⟩

def get? (map : SortedMap κ ν) (key : κ) : Option ν :=
  Entries.get? key map.entries

def contains (map : SortedMap κ ν) (key : κ) : Bool :=
  (map.get? key).isSome

def keys (map : SortedMap κ ν) : List κ :=
  map.entries.map Prod.fst

def size (map : SortedMap κ ν) : Nat :=
  map.entries.length

def isEmpty (map : SortedMap κ ν) : Bool :=
  map.entries.isEmpty

def filter (map : SortedMap κ ν) (keep : κ × ν → Bool) : SortedMap κ ν :=
  ⟨map.entries.filter keep, Entries.increasing_filter keep map.increasing⟩

def erase (map : SortedMap κ ν) (key : κ) : SortedMap κ ν :=
  ⟨Entries.erase key map.entries, Entries.increasing_filter _ map.increasing⟩

variable [TransOrd κ] [LawfulEqOrd κ]

def insert (map : SortedMap κ ν) (key : κ) (value : ν) : SortedMap κ ν :=
  ⟨Entries.insert key value map.entries, Entries.increasing_insert map.increasing⟩

/-- The later of two values for one key wins. -/
def insertAll (map : SortedMap κ ν) (entries : List (κ × ν)) : SortedMap κ ν :=
  entries.foldl (fun built entry => built.insert entry.1 entry.2) map

def ofList (entries : List (κ × ν)) : SortedMap κ ν :=
  empty.insertAll entries

end SortedMap

end ShaderCache
