import ShaderCache.Proofs.ConfigurationEdit
import ShaderCache.Proofs.RequestContents

/-!
# Macros

A request lists the macros in the order in which they are defined: the global ones, those of the
program, and the two that announce the device and the shader model. The last definition of a macro
is the one that counts, so the list denotes a union in which later sets win.
-/

set_option autoImplicit false

namespace ShaderCache

open Std

universe u v

/-! ## Entries in order -/

section Entries

variable {κ : Type u} {ν : Type v} [Ord κ] [LawfulEqOrd κ] [DecidableEq κ]

/-- There is one entry for a key at most, so the last one is the first one. -/
theorem Entries.lookup_reverse {entries : List (κ × ν)} (increasing : Increasing entries)
    (key : κ) : entries.reverse.lookup key = get? key entries := by
  induction entries with
  | nil => rfl
  | cons first rest ih =>
      obtain ⟨name, value⟩ := first
      obtain ⟨above, tail⟩ := List.pairwise_cons.mp increasing
      rw [List.reverse_cons, List.lookup_append, ih tail, get_cons, List.lookup_cons]
      by_cases here : key = name
      · subst here
        simp [get_none_of_above above]
      · have other : (key == name) = false := beq_eq_false_iff_ne.mpr here
        simp [here, other]

/-- How many keys of a map come before the given one. -/
def SortedMap.rank (map : SortedMap κ ν) (key : κ) : Nat :=
  map.entries.countP fun entry => compare entry.1 key = .lt

variable [TransOrd κ]

theorem Entries.position_of_key {entries : List (κ × ν)} (increasing : Increasing entries)
    (key : κ) :
    entries.findIdx? (fun entry => entry.1 = key) =
      if (get? key entries).isSome then
        some (entries.countP fun entry => compare entry.1 key = .lt)
      else none := by
  induction entries with
  | nil => rfl
  | cons first rest ih =>
      obtain ⟨above, tail⟩ := List.pairwise_cons.mp increasing
      rw [List.findIdx?_cons, get_cons, ih tail]
      by_cases here : key = first.1
      · subst here
        have noneBefore : rest.countP (fun entry => compare entry.1 first.1 = .lt) = 0 := by
          apply List.countP_eq_zero.mpr
          intro entry present
          have greater := OrientedCmp.gt_of_lt (above entry present)
          simp [greater]
        simp [noneBefore]
      · by_cases present : (get? key rest).isSome = true
        · have before : compare first.1 key = .lt := by
            cases order : compare key first.1 with
            | lt =>
                have absent := get_none_of_head_above increasing order
                rw [get_cons, if_neg here] at absent
                simp [absent] at present
            | eq => exact absurd (LawfulEqCmp.compare_eq_iff_eq.mp order) here
            | gt => exact OrientedCmp.gt_iff_lt.mp order
          simp [here, Ne.symm here, present, before]
        · simp [here, Ne.symm here, present]

end Entries

/-! ## The list of macros -/

namespace CompileContext

variable {context : CompileContext} {desc : ProgramDesc} {defines : DefineList}

/-- What the macros of a request mean: the defines of the program are added to the global ones,
then the two macros are set that announce the device and the shader model. -/
def mergedMacros (context : CompileContext) (desc : ProgramDesc) (defines : DefineList) :
    DefineList :=
  let merged := (context.settings.defines.addAll defines).2
  ((merged.add context.device.type.macroName "1").2.add (context.shaderModel desc).macroName "1").2

theorem get_merged_macros (name : String) :
    (context.mergedMacros desc defines).get? name =
      if name = (context.shaderModel desc).macroName ∨ name = context.device.type.macroName then
        some "1"
      else (defines.get? name).or (context.settings.defines.get? name) := by
  simp only [mergedMacros, DefineList.get_add, DefineList.get_add_all]
  by_cases model : name = (context.shaderModel desc).macroName
  · simp [model]
  · by_cases device : name = context.device.type.macroName
    · simp [device]
    · simp [model, device]

theorem lookup_pair (first second name : String) :
    [(first, "1"), (second, "1")].lookup name =
      if name = first ∨ name = second then some "1" else none := by
  simp only [List.lookup_cons, List.lookup_nil]
  by_cases isFirst : name = first
  · subst isFirst
    simp
  · rw [beq_eq_false_iff_ne.mpr isFirst]
    by_cases isSecond : name = second
    · subst isSecond
      simp
    · simp [isFirst, isSecond, beq_eq_false_iff_ne.mpr isSecond]

theorem position_in_pair (first second name : String) :
    ([(first, "1"), (second, "1")].findIdx? fun entry => entry.1 = name) =
      if name = first then some 0 else if name = second then some 1 else none := by
  simp only [List.findIdx?_cons, List.findIdx?_nil, decide_eq_true_eq, eq_comm (b := name)]
  split
  next => rfl
  next =>
    split
    next => rfl
    next => rfl

theorem lookup_macros (name : String) :
    (context.macros desc defines).reverse.lookup name =
      (context.mergedMacros desc defines).get? name := by
  rw [get_merged_macros, macros, List.reverse_append, List.reverse_append, List.lookup_append,
    List.lookup_append, Entries.lookup_reverse defines.increasing,
    Entries.lookup_reverse context.settings.defines.increasing]
  simp only [List.reverse_cons, List.reverse_nil, List.nil_append, List.cons_append, lookup_pair]
  split
  next => rfl
  next => rfl

theorem position_of_define (map : DefineList) (name : String) :
    map.entries.findIdx? (fun entry => entry.1 = name) =
      if map.contains name then some (map.rank name) else none :=
  Entries.position_of_key map.increasing name

/-- The place of the first definition of a macro: among the global ones, among those of the program,
or behind both. -/
theorem position_in_macros (name : String) :
    ((context.macros desc defines).findIdx? fun entry => entry.1 = name) =
      if context.settings.defines.contains name then some (context.settings.defines.rank name)
      else if defines.contains name then
        some (context.settings.defines.size + defines.rank name)
      else if name = context.device.type.macroName then
        some (context.settings.defines.size + defines.size)
      else if name = (context.shaderModel desc).macroName then
        some (context.settings.defines.size + defines.size + 1)
      else none := by
  rw [macros, List.append_assoc, List.findIdx?_append, List.findIdx?_append,
    position_of_define, position_of_define]
  rw [position_in_pair]
  by_cases isGlobal : context.settings.defines.contains name = true
  · simp [isGlobal]
  · by_cases isOwn : defines.contains name = true
    · simp [isGlobal, isOwn, SortedMap.size, Nat.add_comm]
    · simp only [isGlobal, isOwn, Bool.false_eq_true, ↓reduceIte, Option.none_or, SortedMap.size]
      split
      next => simp [Nat.add_comm]
      next =>
        split
        next =>
          simp
          omega
        next => rfl

/-- The value of a macro is what the merged sets have: those of the program win over the global
ones, and neither changes the two that announce the device and the shader model. A macro has a
position exactly if it has a value, and it is that of its first definition in the order of the
names, global ones first. -/
theorem macros_denote_merge {sent : CompileRequest}
    (requested : context.request desc defines = .ok sent) (name : String) :
    let globals := context.settings.defines
    let device := context.device.type.macroName
    let model := (context.shaderModel desc).macroName
    let merged := (((globals.addAll defines).2.add device "1").2.add model "1").2
    sent.macroValue? name = merged.get? name ∧
    sent.macroValue? name =
      (if name = model ∨ name = device then some "1"
      else (defines.get? name).or (globals.get? name)) ∧
    (sent.macroPosition? name).isSome = (sent.macroValue? name).isSome ∧
    sent.macroPosition? name =
      if globals.contains name then some (globals.rank name)
      else if defines.contains name then some (globals.size + defines.rank name)
      else if name = device then some (globals.size + defines.size)
      else if name = model then some (globals.size + defines.size + 1)
      else none := by
  intro globals device model merged
  have macros := (request_contents requested).macros
  have value : sent.macroValue? name = merged.get? name := by
    rw [CompileRequest.macroValue?, macros, lookup_macros]
    rfl
  have position := @position_in_macros context desc defines name
  rw [← macros] at position
  refine ⟨value, value.trans (get_merged_macros name), ?_, position⟩
  rw [CompileRequest.macroPosition?, CompileRequest.macroValue?, Bool.eq_iff_iff,
    List.findIdx?_isSome, List.any_eq_true, List.lookup_isSome_iff]
  simp only [List.mem_reverse, decide_eq_true_eq, beq_iff_eq, eq_comm (b := name)]

/-- A macro that both sets define, and two attempts to define those of the device and the model. -/
theorem macros_denote_merge_of_overlap :
    let context : CompileContext := {
      device := { type := .vulkan }
      settings := { defines := .ofList [("QUALITY", "1"), ("PRISM_VULKAN", "0"), ("AREA", "4")] }
      resolver := {}
      files := {} }
    let desc : ProgramDesc := { shaderModel := some .sm66 }
    let defines : DefineList := .ofList [("__SM_6_6__", "0"), ("QUALITY", "2"), ("LAMP", "3")]
    ∃ sent, context.request desc defines = .ok sent ∧
      ["AREA", "LAMP", "PRISM_VULKAN", "QUALITY", "__SM_6_6__", "OTHER"].map
          (fun name => (sent.macroValue? name, sent.macroPosition? name)) =
        [(some "4", some 0), (some "3", some 3), (some "1", some 1), (some "2", some 2),
          (some "1", some 5), (none, none)] := by
  intro context desc defines
  have succeeds : (context.request desc defines).toOption.isSome = true := by decide +kernel
  cases requested : context.request desc defines with
  | error error => simp [requested, Except.toOption] at succeeds
  | ok sent =>
      have denote := macros_denote_merge requested
      have values := fun name => (denote name).1
      have positions := fun name => (denote name).2.2.2
      refine ⟨sent, rfl, ?_⟩
      simp only [values, positions]
      decide +kernel

end CompileContext

end ShaderCache
