import ShaderCache.Proofs.ByteOrder
import ShaderCache.Proofs.ConfigurationEdit

/-!
# Sets of defines and of type conformances

However a set was built, it has its keys in the order of their bytes, each of them once, and it is
determined by the values that it gives them. What a key's value is can be told from the history
of the set, one key at a time.
-/

set_option autoImplicit false

namespace ShaderCache

open Std

universe u v

/-! ## Keys in order -/

namespace SortedMap

variable {κ : Type u} {ν : Type v} [Ord κ]

theorem keys_increasing (map : SortedMap κ ν) :
    map.keys.Pairwise fun earlier later => compare earlier later = .lt :=
  List.pairwise_map.mpr map.increasing

theorem keys_nodup [LawfulEqOrd κ] (map : SortedMap κ ν) : map.keys.Nodup := by
  apply map.keys_increasing.imp
  intro earlier later less
  rintro rfl
  simp at less

end SortedMap

/-- By the bytes of the type, then by those of the interface. -/
def Conformance.Before (earlier later : Conformance) : Prop :=
  Text.utf8 earlier.typeName < Text.utf8 later.typeName ∨
    earlier.typeName = later.typeName ∧
      Text.utf8 earlier.interfaceName < Text.utf8 later.interfaceName

theorem Conformance.compare_lt_iff_before {earlier later : Conformance} :
    compare earlier later = .lt ↔ earlier.Before later := by
  change ((compare earlier.typeName later.typeName).then
    (compare earlier.interfaceName later.interfaceName)) = .lt ↔ _
  rw [Ordering.then_eq_lt, Text.compare_lt_iff, LawfulEqCmp.compare_eq_iff_eq,
    Text.compare_lt_iff]
  rfl

/-! ## Building sets of defines -/

namespace DefineList

inductive Step where
  | add (name value : String)
  | remove (name : String)
  | addAll (other : DefineList)
  | removeAll (other : DefineList)
  | removeMatching (position length : UInt64) (text : String)

def apply (defines : DefineList) : Step → DefineList
  | .add name value => (defines.add name value).2
  | .remove name => (defines.remove name).2
  | .addAll other => (defines.addAll other).2
  | .removeAll other => (defines.removeAll other).2
  | .removeMatching position length text => (defines.removeMatching position length text).2

/-- What a step makes of the value of a name. -/
def Step.effect : Step → String → Option String → Option String
  | .add added value, name, held => if name = added then some value else held
  | .remove removed, name, held => if name = removed then none else held
  | .addAll other, name, held => (other.get? name).or held
  | .removeAll other, name, held => if other.contains name then none else held
  | .removeMatching position length text, name, held =>
      if nameMatches position length text name then none else held

/-- A set made of pairs, and then changed step by step. -/
def build (pairs : List (String × String)) (steps : List Step) : DefineList :=
  steps.foldl apply (SortedMap.ofList pairs)

theorem get_apply (defines : DefineList) (step : Step) (name : String) :
    (defines.apply step).get? name = step.effect name (defines.get? name) := by
  cases step with
  | add added value => exact get_add defines added value name
  | remove removed => exact get_remove defines removed name
  | addAll other => exact get_add_all defines other name
  | removeAll other => exact get_remove_all defines other name
  | removeMatching position length text =>
      exact get_remove_matching defines position length text name

theorem get_build (pairs : List (String × String)) (steps : List Step) (name : String) :
    (build pairs steps).get? name =
      steps.foldl (fun held step => step.effect name held) (pairs.reverse.lookup name) := by
  rw [← SortedMap.get_of_list]
  exact SortedMap.get_fold get_apply steps (SortedMap.ofList pairs) name

theorem of_list_eq_added (pairs : List (String × String)) :
    SortedMap.ofList pairs =
      pairs.foldl (fun (set : DefineList) pair => (set.add pair.1 pair.2).2) ∅ := by
  simp only [add_eq_insert]
  rfl

theorem names_in_order (defines : DefineList) :
    defines.keys.Pairwise fun earlier later => Text.utf8 earlier < Text.utf8 later :=
  defines.keys_increasing.imp Text.compare_lt_iff.mp

/-- What the other set had added is removed again, and what it had replaced goes with it. -/
theorem remove_all_of_add_all (left right : DefineList) :
    ((left.addAll right).2.removeAll right).2 = (left.removeAll right).2 := by
  apply SortedMap.eq_of_get_eq
  intro name
  rw [get_remove_all, get_remove_all, get_add_all]
  by_cases named : right.contains name = true
  · rw [if_pos named, if_pos named]
  · have absent : right.get? name = none :=
      SortedMap.get_none_iff.mpr fun present => named (SortedMap.mem_keys_iff.mp present)
    rw [if_neg named, if_neg named, absent, Option.none_or]

end DefineList

/-! ## Building sets of conformances -/

namespace ConformanceList

inductive Step where
  | add (typeName interfaceName : String) (id : UInt32)
  | remove (typeName interfaceName : String)
  | addAll (other : ConformanceList)

def apply (list : ConformanceList) : Step → ConformanceList
  | .add typeName interfaceName id => list.add typeName interfaceName id
  | .remove typeName interfaceName => (list.remove typeName interfaceName).2
  | .addAll other => list.addAll other

/-- What a step makes of the number of a conformance. -/
def Step.effect : Step → Conformance → Option UInt32 → Option UInt32
  | .add typeName interfaceName id, conformance, held =>
      if conformance = ⟨typeName, interfaceName⟩ then some id else held
  | .remove typeName interfaceName, conformance, held =>
      if conformance = ⟨typeName, interfaceName⟩ then none else held
  | .addAll other, conformance, held => (other.get? conformance).or held

/-- A set made of triples, and then changed step by step. -/
def build (triples : List (String × String × UInt32)) (steps : List Step) : ConformanceList :=
  steps.foldl apply (ofTriples triples)

def entryOf (triple : String × String × UInt32) : Conformance × UInt32 :=
  (⟨triple.1, triple.2.1⟩, triple.2.2)

theorem of_triples_eq (triples : List (String × String × UInt32)) :
    ofTriples triples = SortedMap.ofList (triples.map entryOf) := by
  rw [SortedMap.ofList, SortedMap.insertAll, List.foldl_map]
  rfl

theorem get_add_all (list other : ConformanceList) (conformance : Conformance) :
    (list.addAll other).get? conformance =
      (other.get? conformance).or (list.get? conformance) :=
  SortedMap.get_insert_all list other conformance

theorem get_apply (list : ConformanceList) (step : Step) (conformance : Conformance) :
    (list.apply step).get? conformance = step.effect conformance (list.get? conformance) := by
  cases step with
  | add typeName interfaceName id =>
      exact SortedMap.get_insert list ⟨typeName, interfaceName⟩ conformance id
  | remove typeName interfaceName =>
      exact SortedMap.get_erase list ⟨typeName, interfaceName⟩ conformance
  | addAll other => exact get_add_all list other conformance

theorem get_build (triples : List (String × String × UInt32)) (steps : List Step)
    (conformance : Conformance) :
    (build triples steps).get? conformance =
      steps.foldl (fun held step => step.effect conformance held)
        ((triples.map entryOf).reverse.lookup conformance) := by
  rw [← SortedMap.get_of_list, ← of_triples_eq]
  exact SortedMap.get_fold get_apply steps (ofTriples triples) conformance

theorem conformances_in_order (list : ConformanceList) :
    list.keys.Pairwise Conformance.Before :=
  list.keys_increasing.imp Conformance.compare_lt_iff_before.mp

end ConformanceList

/-! ## Both kinds of sets -/

/-- Sets that were built in any way have their keys in the order of their bytes, each of them once.
The value of a key follows from the steps that touch it, and two sets are equal exactly if all keys
have the same values in both. Unions are lawful, and removing what was merged into a set is
removing it from the set as it was. A set made of pairs is made by adding them one after the other,
or by sorting them and keeping the last pair of each name. -/
theorem configuration_sets_canonical :
    (∀ pairs steps, let set := DefineList.build pairs steps
      set.keys.Pairwise (fun earlier later => Text.utf8 earlier < Text.utf8 later) ∧
      set.keys.Nodup ∧
      (∀ name, set.get? name =
        steps.foldl (fun held step => step.effect name held) (pairs.reverse.lookup name)) ∧
      ∀ others more, set = DefineList.build others more ↔
        ∀ name, set.get? name = (DefineList.build others more).get? name) ∧
    (∀ triples steps, let set := ConformanceList.build triples steps
      set.keys.Pairwise Conformance.Before ∧
      set.keys.Nodup ∧
      (∀ conformance, set.get? conformance =
        steps.foldl (fun held step => step.effect conformance held)
          ((triples.map ConformanceList.entryOf).reverse.lookup conformance)) ∧
      ∀ others more, set = ConformanceList.build others more ↔
        ∀ conformance,
          set.get? conformance = (ConformanceList.build others more).get? conformance) ∧
    SortedMap.UnitesLawfully (fun left right : DefineList => (left.addAll right).2) ∧
    SortedMap.UnitesLawfully ConformanceList.addAll ∧
    (∀ left right : DefineList,
      (∀ name, (left.removeAll right).2.get? name =
        if right.contains name then none else left.get? name) ∧
      ((left.addAll right).2.removeAll right).2 = (left.removeAll right).2) ∧
    (∀ pairs : List (String × String),
      SortedMap.ofList pairs =
        pairs.foldl (fun (set : DefineList) pair => (set.add pair.1 pair.2).2) ∅ ∧
      (SortedMap.ofList pairs).entries = Entries.lastOfRows (Entries.inOrder pairs)) ∧
    ∀ triples : List (String × String × UInt32),
      ConformanceList.ofTriples triples =
        triples.foldl (fun set triple => set.add triple.1 triple.2.1 triple.2.2) ∅ ∧
      (ConformanceList.ofTriples triples).entries =
        Entries.lastOfRows (Entries.inOrder (triples.map ConformanceList.entryOf)) := by
  refine ⟨?_, ?_, ?_, ?_, ?_, ?_, ?_⟩
  · intro pairs steps set
    exact ⟨set.names_in_order, set.keys_nodup, DefineList.get_build pairs steps,
      fun _ _ => SortedMap.eq_iff_get_eq⟩
  · intro triples steps set
    exact ⟨set.conformances_in_order, set.keys_nodup, ConformanceList.get_build triples steps,
      fun _ _ => SortedMap.eq_iff_get_eq⟩
  · exact SortedMap.unites_lawfully DefineList.get_add_all
  · exact SortedMap.unites_lawfully ConformanceList.get_add_all
  · intro left right
    exact ⟨left.get_remove_all right, left.remove_all_of_add_all right⟩
  · intro pairs
    exact ⟨DefineList.of_list_eq_added pairs, SortedMap.entries_of_list pairs⟩
  · intro triples
    refine ⟨rfl, ?_⟩
    rw [ConformanceList.of_triples_eq]
    exact SortedMap.entries_of_list _

end ShaderCache
