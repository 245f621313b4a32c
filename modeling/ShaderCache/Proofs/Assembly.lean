import Mathlib.Data.List.Forall2
import ShaderCache.Proofs.Steadiness

/-!
# What versions and kernels are put together from

A component of a version or of linked kernels is an answer that the backend gave to some call.
Compiling and linking are described by these calls: which component went into which other one, and
for which entry point.
-/

set_option autoImplicit false

namespace ShaderCache

/-- The service answers so in some state. -/
def Gives {State Value : Type} (service : StateM State Value) (value : Value) : Prop :=
  ∃ state, (service state).1 = value

/-! ## Lists in step -/

theorem related_at {Left Right : Type} {related : Left → Right → Prop} {left : List Left}
    {right : List Right} (relates : List.Forall₂ related left right) {position : Nat} {one : Left}
    (present : left[position]? = some one) :
    ∃ other, right[position]? = some other ∧ related one other := by
  induction relates generalizing position with
  | nil => simp at present
  | @cons first second _ _ here _ ih =>
      cases position with
      | zero =>
          cases present
          exact ⟨second, rfl, here⟩
      | succ before => exact ih present

theorem related_imp {Left Right : Type} {related other : Left → Right → Prop} {left : List Left}
    {right : List Right} (relates : List.Forall₂ related left right)
    (implies : ∀ one ∈ left, ∀ two, related one two → other one two) :
    List.Forall₂ other left right := by
  induction relates with
  | nil => exact .nil
  | cons here _ ih =>
      exact .cons (implies _ List.mem_cons_self _ here)
        (ih fun one present => implies one (List.mem_cons_of_mem _ present))

/-! ## Answers of backends -/

namespace Backend

variable (B : Backend)

def Accepts (request : CompileRequest) (output : CompiledProgram B.Component) : Prop :=
  ∃ diagnostics, Gives (B.compile request) ⟨some output, diagnostics⟩

def Composes (parts : List B.Component) (whole : B.Component) : Prop :=
  ∃ log, Gives (B.compose parts) ⟨log, .ok whole⟩

def Renames (handle : B.Component) (name : String) (renamed : B.Component) : Prop :=
  Gives (B.rename handle name) (.ok renamed)

def Conforms (scope : B.Component) (entry : Conformance × UInt32) (part : B.Component) : Prop :=
  ∃ type interface log, Gives (B.findType scope entry.1.typeName) (some type) ∧
    Gives (B.findType scope entry.1.interfaceName) (some interface) ∧
    Gives (B.conform type interface entry.2) ⟨log, .ok part⟩

def Executes (scope : B.Component) (parts : List B.Component) (program : B.DeviceProgram) : Prop :=
  ∃ log, Gives (B.createDeviceProgram scope parts) ⟨log, .ok program⟩

/-- The handle of an entry point under its export name. -/
def Exports (entry : EntryPoint) (handle exported : B.Component) : Prop :=
  if entry.exportName = entry.name then exported = handle
  else B.Renames handle entry.exportName exported

/-- Each entry point has the handle at its position, under its export name. -/
def Gathers (entries : List EntryPoint) (handles gathered : List B.Component) : Prop :=
  ∀ (position : Nat) (entry : EntryPoint), entries[position]? = some entry → ∃ handle exported,
    handles[position]? = some handle ∧ gathered[position]? = some exported ∧
      B.Exports entry handle exported

/-- The composite of conformances, in their order, if there are any. -/
def Combines (scope : B.Component) (conformances : ConformanceList) :
    Option B.Component → Prop
  | none => conformances.entries = []
  | some whole => conformances.entries ≠ [] ∧ ∃ parts,
      List.Forall₂ (B.Conforms scope) conformances.entries parts ∧ B.Composes parts whole

/-- An entry point composed with the composite of conformances, or itself if there are none. -/
def Specializes (scope : B.Component) (conformances : ConformanceList)
    (handle specialized : B.Component) : Prop :=
  (conformances.entries = [] ∧ specialized = handle) ∨
    conformances.entries ≠ [] ∧ ∃ parts whole,
      List.Forall₂ (B.Conforms scope) conformances.entries parts ∧ B.Composes parts whole ∧
        B.Composes [handle, whole] specialized

end Backend

variable {B : Backend}

/-! ## Jobs -/

namespace Job

variable {Failure Value Result : Type}

theorem yields_call (service : StateM B.State Value) :
    Yields (call service : Job B Failure Value) (Gives service) := by
  intro work value reached
  cases reached
  exact ⟨work.service, rfl⟩

theorem yields_fail_with {failure : Failure} {line : String} {property : Value → Prop} :
    Yields (failWith failure line : Job B Failure Value) property :=
  yields_last fun _ _ _ reached => nomatch reached

theorem yields_or_fail (failure : Failure) (line : String → String)
    (answer : Except String Value) :
    Yields (orFail failure line answer : Job B Failure Value) fun value => answer = .ok value := by
  cases answer with
  | ok value => exact yields_pure rfl
  | error reason => exact yields_fail_with

theorem yields_call_noting (service : StateM B.State (Reply Value)) :
    Yields (callNoting service : Job B Failure (Except String Value)) fun answer =>
      ∃ log, Gives service ⟨log, answer⟩ := by
  refine yields_bind (yields_call service) fun reply gives => ?_
  exact yields_last fun _ => yields_pure ⟨reply.log, gives⟩

/-- A job that goes on with what a call has to answer. -/
theorem yields_noting_bind {service : StateM B.State (Reply Value)} {failure : Failure}
    {line : String → String} {next : Value → Job B Failure Result} {property : Result → Prop}
    (rest : ∀ value log, Gives service ⟨log, .ok value⟩ → Yields (next value) property) :
    Yields (callNoting service >>= fun answer => orFail failure line answer >>= next) property := by
  refine yields_bind (yields_call_noting service) ?_
  rintro answer ⟨log, gives⟩
  refine yields_bind (yields_or_fail failure line answer) ?_
  rintro value rfl
  exact rest value log gives

/-- A job that ends with what a call has to answer. -/
theorem yields_noting (service : StateM B.State (Reply Value)) (failure : Failure)
    (line : String → String) :
    Yields (callNoting service >>= orFail failure line) fun value =>
      ∃ log, Gives service ⟨log, .ok value⟩ := by
  refine yields_bind (yields_call_noting service) ?_
  rintro answer ⟨log, gives⟩ work value reached
  cases yields_or_fail failure line answer work value reached
  exact ⟨log, gives⟩

theorem yields_map_list {Item : Type} {step : Item → Job B Failure Value}
    {related : Item → Value → Prop} (each : ∀ item, Yields (step item) (related item))
    (items : List Item) : Yields (items.mapM step) (List.Forall₂ related items) := by
  induction items with
  | nil =>
      rw [List.mapM_nil]
      exact yields_pure .nil
  | cons item rest ih =>
      rw [List.mapM_cons]
      refine yields_bind (each item) fun value first => ?_
      exact yields_bind ih fun values others => yields_pure (.cons first others)

end Job

open Job

/-! ## Compiling -/

namespace CompiledVersion

theorem yields_exported (entry : EntryPoint) (handle : B.Component) :
    Yields (exported entry handle) (B.Exports entry handle) := by
  unfold exported Backend.Exports
  split
  next => exact yields_pure rfl
  next =>
    refine yields_bind (yields_call _) fun renamed gives => ?_
    intro work value reached
    cases yields_or_fail _ _ renamed work value reached
    exact gives

theorem yields_gather (entries : List EntryPoint) (handles : List B.Component) :
    Yields (gather entries handles) (B.Gathers entries handles) := by
  induction entries generalizing handles with
  | nil =>
      apply yields_pure
      intro position entry present
      simp at present
  | cons first rest ih =>
      cases handles with
      | nil => exact yields_fail_with
      | cons handle others =>
          refine yields_bind (yields_exported first handle) fun own exports => ?_
          refine yields_bind (ih others) fun gathered gathers => yields_pure ?_
          intro position entry present
          cases position with
          | zero =>
              cases present
              exact ⟨handle, own, rfl, rfl, exports⟩
          | succ before => exact gathers before entry present

/-- What a version has of the program that the compiler accepted. -/
structure Compiled (desc : ProgramDesc) (request : CompileRequest)
    (output : CompiledProgram B.Component) (compiled : CompiledVersion B) : Prop where
  accepted : B.Accepts request output
  scope : compiled.globalScope = output.globalScope
  gathered : B.Gathers desc.entryPoints output.entryPoints compiled.entryPoints

theorem yields_job (desc : ProgramDesc) (request : CompileRequest) :
    Yields (job (B := B) desc request) fun compiled =>
      ∃ output, Compiled desc request output compiled := by
  refine yields_bind (yields_call _) fun output gives => ?_
  apply yields_last
  intro _
  obtain ⟨program, diagnostics⟩ := output
  cases program with
  | none => exact fun _ _ reached => nomatch reached
  | some accepted =>
      refine yields_bind (yields_gather _ _) fun entryPoints gathered => ?_
      apply yields_last
      intro id
      exact yields_last fun _ => yields_pure ⟨accepted, ⟨diagnostics, gives⟩, rfl, gathered⟩

end CompiledVersion

/-! ## Linking -/

/-- The kernel of the entry point that was specialized. -/
def SpecializedEntry.kernel (made : SpecializedEntry B) : EntryPointKernel B :=
  LinkedKernels.kernelOf made.entry made

namespace LinkedKernels

theorem yields_conform (scope : B.Component) (entry : Conformance × UInt32) :
    Yields (conform scope entry) (B.Conforms scope entry) := by
  obtain ⟨conformance, id⟩ := entry
  refine yields_bind (yields_call _) fun found givesType => ?_
  cases found with
  | none => exact yields_fail_with
  | some type =>
      refine yields_bind (yields_call _) fun found givesInterface => ?_
      cases found with
      | none => exact yields_fail_with
      | some interface =>
          intro work part reached
          obtain ⟨log, gives⟩ := yields_noting _ _ _ work part reached
          exact ⟨type, interface, log, givesType, givesInterface, gives⟩

theorem yields_composite (scope : B.Component) (conformances : ConformanceList) :
    Yields (composite scope conformances) (B.Combines scope conformances) := by
  refine yields_bind (yields_map_list (yields_conform scope) _) fun parts conform => ?_
  cases parts with
  | nil =>
      have empty : conformances.entries = [] := List.forall₂_nil_right_iff.mp conform
      exact yields_pure empty
  | cons part others =>
      have nonempty : conformances.entries ≠ [] := by
        intro empty
        simp [empty] at conform
      apply yields_noting_bind
      intro whole log gives
      exact yields_pure ⟨nonempty, part :: others, conform, log, gives⟩

theorem specializes_of_combines {scope : B.Component} {conformances : ConformanceList}
    {composite : Option B.Component} (combines : B.Combines scope conformances composite)
    (entry : EntryPoint) (handle : B.Component) :
    Yields (withConformances composite entry handle)
      (B.Specializes scope conformances handle) := by
  cases composite with
  | none => exact yields_pure (.inl ⟨combines, rfl⟩)
  | some whole =>
      obtain ⟨nonempty, parts, conform, composes⟩ := combines
      intro work specialized reached
      have gives := yields_noting _ _ _ work specialized reached
      exact .inr ⟨nonempty, parts, whole, conform, composes, gives⟩

/-- An entry point of a group as it is linked with the conformances of the group. -/
structure LinksEntry (input : LinkInput B) (conformances : ConformanceList) (entry : EntryPoint)
    (made : SpecializedEntry B) : Prop where
  same : made.entry = entry
  specialized : ∃ handle, handleOf? input entry = some handle ∧
    B.Specializes input.globalScope conformances handle made.specialized
  linked : B.Composes [input.globalScope, made.specialized] made.linked

theorem yields_specialize {input : LinkInput B} {conformances : ConformanceList}
    {composite : Option B.Component}
    (combines : B.Combines input.globalScope conformances composite) (entry : EntryPoint) :
    Yields (specialize input composite entry) (LinksEntry input conformances entry) := by
  unfold specialize
  cases handled : handleOf? input entry with
  | none => exact yields_fail_with
  | some handle =>
      refine yields_bind (specializes_of_combines combines entry handle) ?_
      intro specialized specializes
      apply yields_noting_bind
      intro linked log gives
      exact yields_pure ⟨rfl, ⟨handle, handled, specializes⟩, log, gives⟩

/-- The groups as they are linked, in order. -/
def LinksGroups (input : LinkInput B) (conformances : ConformanceList)
    (groups : List EntryPointGroup) (entries : List (List (SpecializedEntry B))) : Prop :=
  List.Forall₂ (fun group made =>
    List.Forall₂ (LinksEntry input (effective conformances group)) group.entryPoints made)
    groups entries

theorem entries_of_links {input : LinkInput B} {conformances : ConformanceList}
    {entries : List EntryPoint} {made : List (SpecializedEntry B)}
    (links : List.Forall₂ (LinksEntry input conformances) entries made) :
    made.map SpecializedEntry.entry = entries := by
  induction links with
  | nil => rfl
  | cons here _ ih => rw [List.map_cons, here.same, ih]

theorem entries_by_group {input : LinkInput B} {conformances : ConformanceList}
    {groups : List EntryPointGroup} {entries : List (List (SpecializedEntry B))}
    (links : LinksGroups input conformances groups entries) :
    entries.map (List.map SpecializedEntry.entry) = groups.map EntryPointGroup.entryPoints := by
  induction links with
  | nil => rfl
  | cons here _ ih => rw [List.map_cons, List.map_cons, entries_of_links here, ih]

theorem entries_of_groups {input : LinkInput B} {conformances : ConformanceList}
    {groups : List EntryPointGroup} {entries : List (List (SpecializedEntry B))}
    (links : LinksGroups input conformances groups entries) :
    entries.flatten.map SpecializedEntry.entry = groups.flatMap EntryPointGroup.entryPoints := by
  rw [List.map_flatten, entries_by_group links, List.flatMap_def]

/-- The list that all groups share is made of what each of them has. -/
theorem yields_specialize_groups {input : LinkInput B} {conformances : ConformanceList}
    {groups : List EntryPointGroup} {composites : List (Option B.Component)}
    (combined : List.Forall₂ (fun group =>
      B.Combines input.globalScope (effective conformances group)) groups composites) :
    Yields (specializeGroups input (groups.zip composites)) fun shared =>
      ∃ entries, shared = entries.flatten ∧ LinksGroups input conformances groups entries := by
  induction combined with
  | nil => exact yields_pure ⟨[], rfl, .nil⟩
  | cons combines _ ih =>
      refine yields_bind (yields_map_list (yields_specialize combines) _) fun made first => ?_
      refine yields_bind ih fun others rest => ?_
      obtain ⟨entries, others_eq, links⟩ := rest
      exact yields_pure ⟨made :: entries, by rw [others_eq, List.flatten_cons], .cons first links⟩

/-- A group takes just what was made for it, whatever comes after. -/
theorem kernels_of_own {group : EntryPointGroup} {made : List (SpecializedEntry B)}
    (own : made.map SpecializedEntry.entry = group.entryPoints)
    (later : List (SpecializedEntry B)) :
    group.entryPoints.zipWith kernelOf (made ++ later) = made.map SpecializedEntry.kernel := by
  rw [← own]
  clear own
  induction made with
  | nil => rfl
  | cons first rest ih =>
      rw [List.map_cons, List.cons_append, List.zipWith_cons_cons, ih, List.map_cons]
      rfl

theorem left_after_own {group : EntryPointGroup} {made : List (SpecializedEntry B)}
    (own : made.map SpecializedEntry.entry = group.entryPoints)
    (later : List (SpecializedEntry B)) :
    (made ++ later).drop group.entryPoints.length = later := by
  rw [← own, List.length_map, List.drop_left]

theorem yields_group_kernels (position : Nat) {groups : List EntryPointGroup}
    {entries : List (List (SpecializedEntry B))}
    (own : List.Forall₂ (fun group made => made.map SpecializedEntry.entry = group.entryPoints)
      groups entries) :
    Yields (allGroupKernels position groups entries.flatten) fun kernels =>
      kernels.map GroupKernels.kernels = entries.map (List.map SpecializedEntry.kernel) := by
  induction own generalizing position with
  | nil => exact yields_pure rfl
  | @cons group made _ others same _ ih =>
      have first : Yields (groupKernels position group (made ++ others.flatten)) fun kernels =>
          kernels.kernels = made.map SpecializedEntry.kernel := by
        unfold groupKernels
        split
        next => exact yields_pure (kernels_of_own same _)
        next => exact yields_fail_with
      rw [List.flatten_cons]
      refine yields_bind first fun kernels made_eq => ?_
      rw [left_after_own same]
      refine yields_bind (ih (position + 1)) fun more rest_eq => ?_
      apply yields_pure
      rw [List.map_cons, List.map_cons, made_eq, rest_eq]

/-- The specialized entry point under the name that the device knows it by. -/
def NamedBy (made : SpecializedEntry B) (named : String × B.Component) : Prop :=
  named.2 = made.specialized ∧ ∃ name, Gives (B.entryPointName made.specialized) name ∧
    named.1 = name.getD made.entry.exportName

theorem yields_device_name (made : SpecializedEntry B) :
    Yields (deviceName made) (NamedBy made) :=
  yields_bind (yields_call _) fun name gives => yields_pure ⟨rfl, name, gives, rfl⟩

/-- What linked kernels are put together from: the entry points of the groups, linked group by
group, and the names of all of them in a row. -/
structure Assembles (desc : ProgramDesc) (conformances : ConformanceList) (input : LinkInput B)
    (entries : List (List (SpecializedEntry B))) (named : List (String × B.Component))
    (linked : LinkedKernels B) : Prop where
  groups : LinksGroups input conformances desc.groups entries
  kernels : linked.groups.map GroupKernels.kernels =
    entries.map (List.map SpecializedEntry.kernel)
  names : List.Forall₂ NamedBy entries.flatten named
  handed : linked.deviceEntryPoints = (deviceEntries desc named).map Prod.fst
  program : B.Executes input.globalScope ((deviceEntries desc named).map Prod.snd)
    linked.deviceProgram

theorem yields_job (desc : ProgramDesc) (conformances : ConformanceList) (input : LinkInput B) :
    Yields (job desc conformances input) fun linked =>
      ∃ entries named, Assembles desc conformances input entries named linked := by
  refine yields_bind (yields_map_list (fun group => yields_composite _ _) _) ?_
  intro composites combined
  refine yields_bind (yields_specialize_groups combined) ?_
  rintro _ ⟨entries, rfl, groups⟩
  apply yields_last
  intro handle
  refine yields_bind (yields_group_kernels 0 (groups.imp fun _ _ => entries_of_links)) ?_
  intro made kernels
  refine yields_bind (yields_map_list yields_device_name _) fun named names => ?_
  apply yields_noting_bind
  intro program log gives
  exact yields_pure ⟨entries, named, groups, kernels, names, rfl, log, gives⟩

end LinkedKernels

end ShaderCache
