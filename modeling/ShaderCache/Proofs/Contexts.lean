import ShaderCache.Proofs.Freshness
import ShaderCache.Proofs.RequestEffects

/-!
# What managers compile with

A request changes what the programs of a manager are compiled with by one edit of the settings or
by one search directory, or not at all. So after a run it is what all edits and all directories of
the run, each kind in its order, have made of it.
-/

set_option autoImplicit false

namespace ShaderCache

variable {B : Backend}

namespace Request

/-- The edit that a request makes to the settings of a manager. -/
def edit? (manager : Nat) : Request → Option World.SettingsEdit
  | .operate (.editSettings other edit) => if other = manager then some edit else none
  | _ => none

/-- The search directory that a request names for a manager. -/
def searchPath? (manager : Nat) : Request → Option Path
  | .addSearchPath other path => if other = manager then some path else none
  | _ => none

end Request

namespace CompileContext

def reconfigured (context : CompileContext) (edits : List World.SettingsEdit)
    (paths : List Path) : CompileContext :=
  { context with
    settings := edits.foldl World.SettingsEdit.apply context.settings
    resolver := context.resolver.addAll paths }

@[simp]
theorem reconfigured_nil (context : CompileContext) : context.reconfigured [] [] = context := rfl

theorem reconfigured_append (context : CompileContext) (edits more : List World.SettingsEdit)
    (paths others : List Path) :
    context.reconfigured (edits ++ more) (paths ++ others) =
      (context.reconfigured edits paths).reconfigured more others := by
  simp only [reconfigured, List.foldl_append, SourceResolver.add_all_append]

end CompileContext

namespace World

variable {world next : World B}

theorem context_of_same (files : next.files = world.files)
    (setups : ∀ manager, next.setup? manager = world.setup? manager) (manager : Nat) :
    next.context? manager = world.context? manager := by
  rw [context?, setups, files, context?]

theorem context_search (world : World B) (manager other : Nat) (path : Path) :
    (world.addSearchPath other path).2.context? manager =
      (world.context? manager).map fun context =>
        context.reconfigured [] ((Request.addSearchPath other path).searchPath? manager).toList := by
  cases managed : world.managers[other]? with
  | none =>
      have unmanaged : other = manager → world.context? manager = none := by
        rintro rfl
        simp [context?, setup?, managed]
      by_cases here : other = manager
      · simp [addSearchPath, managed, unmanaged here]
      · simp [addSearchPath, managed, Request.searchPath?, here]
  | some found =>
      have added : (world.addSearchPath other path).2 = world.modifyManager other fun manager =>
          { manager with resolver := (found.resolver.add path).2 } := by
        simp only [addSearchPath, managed]
      rw [added, context?, setup_modify_manager, context?]
      by_cases here : manager = other
      · subst here
        rw [if_pos rfl, managed, world.setup_of_manager managed]
        simp only [Option.map_some, Request.searchPath?, ↓reduceIte, Option.toList_some]
        rfl
      · simp [here, Ne.symm here, Request.searchPath?, modifyManager, Function.comp_def]

theorem context_edit_settings (world : World B) (manager other : Nat) (edit : SettingsEdit) :
    (world.editSettings other edit).context? manager =
      (world.context? manager).map fun context =>
        context.reconfigured
          ((Request.operate (.editSettings other edit)).edit? manager).toList [] := by
  have alters := (world.alters_edit_settings other edit).1
  rw [context_of_same alters.files alters.setups]
  change (world.configure other fun current => edit.apply current).context? manager = _
  rw [context_configure]
  by_cases here : manager = other
  · subst here
    simp only [↓reduceIte, Request.edit?, Option.toList_some]
    rfl
  · simp [here, Ne.symm here, Request.edit?]

/-- A request that writes no settings adds a search directory at most. -/
theorem Moves.context {request : Request} (moves : Moves world request next)
    (unedited : ∀ manager edit, request ≠ .operate (.editSettings manager edit)) (manager : Nat) :
    next.context? manager = (world.context? manager).map fun context =>
      context.reconfigured [] (request.searchPath? manager).toList := by
  have unchanged (unsearched : request.searchPath? manager = none)
      (same : next.context? manager = world.context? manager) :
      next.context? manager = (world.context? manager).map fun context =>
        context.reconfigured [] (request.searchPath? manager).toList := by
    simp [unsearched, same]
  cases moves with
  | created managed creates => exact unchanged rfl (creates.context managed manager)
  | dropped present drops => exact unchanged rfl (drops.context manager)
  | searched => exact context_search world manager _ _
  | configured alters => exact absurd rfl (unedited _ _)
  | altered undropped unsearched alters =>
      apply unchanged
      · cases request with
        | addSearchPath other path => exact absurd rfl (unsearched other path)
        | _ => rfl
      · exact context_of_same alters.files alters.setups manager

end World

namespace Archive

variable {archive : Archive B}

theorem Sound.context_after (sound : archive.Sound) (request : Request) (manager : Nat) :
    (archive.after request).world.context? manager =
      (archive.world.context? manager).map fun context =>
        context.reconfigured (request.edit? manager).toList
          (request.searchPath? manager).toList := by
  by_cases edits : ∃ other edit, request = .operate (.editSettings other edit)
  · obtain ⟨other, edit, rfl⟩ := edits
    exact archive.world.context_edit_settings manager other edit
  · have unedited : ∀ other edit, request ≠ .operate (.editSettings other edit) :=
      fun other edit same => edits ⟨other, edit, same⟩
    have nothing : request.edit? manager = none := by
      cases request with
      | operate operation =>
          cases operation with
          | editSettings other edit => exact absurd rfl (unedited other edit)
          | _ => rfl
      | _ => rfl
    rw [nothing]
    exact (sound.moves request).context unedited manager

/-- What a manager compiles with after a run, by induction on the requests. -/
theorem Sound.context_run (sound : archive.Sound) (requests : List Request) (manager : Nat) :
    (archive.run requests).world.context? manager =
      (archive.world.context? manager).map fun context =>
        context.reconfigured (requests.filterMap (Request.edit? manager))
          (requests.filterMap (Request.searchPath? manager)) := by
  induction requests generalizing archive with
  | nil => simp [Archive.run]
  | cons request rest ih =>
      have head (Value : Type) (view : Request → Option Value) :
          (request :: rest).filterMap view = (view request).toList ++ rest.filterMap view := by
        cases viewed : view request <;> simp [viewed]
      rw [Archive.run, ih (sound.after request), sound.context_after, Option.map_map, head, head]
      simp only [CompileContext.reconfigured_append, Function.comp_def]

theorem context_opening (files : FileTree) {managers : List (Manager B)} {manager : Nat}
    {found : Manager B} (managed : managers[manager]? = some found) :
    (opening files managers).world.context? manager = some (found.context files) := by
  simp only [opening, World.opening, World.context?, World.setup?, List.getElem?_map, managed,
    Option.map_some]
  rfl

/-- What a manager compiles with after a run that starts with it. -/
theorem context_reached (files : FileTree) {managers : List (Manager B)} {manager : Nat}
    {found : Manager B} (managed : managers[manager]? = some found) (requests : List Request) :
    ((opening files managers).run requests).world.context? manager =
      some ((found.context files).reconfigured (requests.filterMap (Request.edit? manager))
        (requests.filterMap (Request.searchPath? manager))) := by
  rw [(sound_opening files managers).context_run, context_opening files managed, Option.map_some]

end Archive

end ShaderCache
