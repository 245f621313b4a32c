import Mathlib.Data.List.Basic
import ShaderCache.Proofs.Contexts
import ShaderCache.Proofs.Echo
import ShaderCache.Proofs.RequestContents

/-!
# Forced flags

The flags of a request are those of the description, bit by bit, after what the manager turns off
and on. Bits without a name get into a request only where the manager turns them on. The modes of
a request follow the flags that result, not those of the description.
-/

set_option autoImplicit false

namespace ShaderCache

namespace CompilerFlags

/-! ## Bits -/

def hasBit (flags : CompilerFlags) (position : Nat) : Bool :=
  flags.bits.toBitVec.getLsbD position

variable (flags other : CompilerFlags) (position : Nat)

theorem has_bit_union :
    (flags.union other).hasBit position = (flags.hasBit position || other.hasBit position) := by
  simp [hasBit, union]

theorem has_bit_inter :
    (flags.inter other).hasBit position = (flags.hasBit position && other.hasBit position) := by
  simp [hasBit, inter]

/-- The bits that have a name are the first six. -/
theorem has_bit_known : known.hasBit position = decide (position < 6) := by
  by_cases inWord : position < 32
  · have small : ∀ place : Fin 32, known.hasBit place = decide (place.val < 6) := by decide
    exact small ⟨position, inWord⟩
  · have outside : known.hasBit position = false :=
      BitVec.getLsbD_of_ge _ _ (Nat.le_of_not_lt inWord)
    rw [outside, decide_eq_false (by omega)]

theorem has_bit_complement :
    flags.complement.hasBit position = (known.hasBit position && !flags.hasBit position) := by
  have bits : flags.complement.hasBit position =
      (decide (position < 32) && !flags.hasBit position && known.hasBit position) := by
    simp [hasBit, complement]
  rw [bits, has_bit_known]
  by_cases named : position < 6
  · have inWord : position < 32 := by omega
    simp [named, inWord]
  · simp [named]

variable {flags other}

theorem eq_of_has_bit (same : ∀ position, flags.hasBit position = other.hasBit position) :
    flags = other := by
  cases flags with
  | mk left =>
      cases other with
      | mk right =>
          have equal : left.toBitVec = right.toBitVec :=
            BitVec.eq_of_getLsbD_eq fun position _ => same position
          rw [UInt32.toBitVec_inj.mp equal]

theorem contains_iff :
    flags.contains other = true ↔
      ∀ position, other.hasBit position = true → flags.hasBit position = true := by
  have inside : flags.contains other = true ↔ flags.inter other = other := by
    cases other
    simp [contains, inter]
  rw [inside]
  constructor
  · intro same position isSet
    rw [← same, has_bit_inter, Bool.and_eq_true] at isSet
    exact isSet.1
  · intro above
    apply eq_of_has_bit
    intro position
    rw [has_bit_inter]
    cases isSet : other.hasBit position with
    | false => simp
    | true => simp [above position isSet]

/-! ## Flags with a name -/

def bitAt (place : Nat) : CompilerFlags :=
  ⟨⟨BitVec.twoPow 32 place⟩⟩

theorem named_flags : named.map Prod.snd = (List.range 6).map bitAt := by
  decide

theorem has_bit_at {place : Nat} (inWord : place < 32) :
    (bitAt place).hasBit position = decide (place = position) := by
  simp [hasBit, bitAt, BitVec.getLsbD_twoPow, inWord]

theorem contains_bit_at {place : Nat} (inWord : place < 32) :
    flags.contains (bitAt place) = flags.hasBit place := by
  rw [Bool.eq_iff_iff, contains_iff]
  simp [has_bit_at _ inWord]

end CompilerFlags

namespace ForcedFlags

open CompilerFlags

variable (forced : ForcedFlags) (flags : CompilerFlags)

theorem has_bit_apply (position : Nat) :
    (forced.apply flags).hasBit position =
      (forced.enabled.hasBit position ||
        (known.hasBit position && flags.hasBit position && !forced.disabled.hasBit position)) := by
  rw [apply, has_bit_union, has_bit_inter, has_bit_complement]
  cases forced.enabled.hasBit position <;> cases known.hasBit position <;> simp

theorem apply_apply : forced.apply (forced.apply flags) = forced.apply flags := by
  apply eq_of_has_bit
  intro position
  rw [has_bit_apply, has_bit_apply]
  cases forced.enabled.hasBit position <;> cases known.hasBit position <;>
    cases forced.disabled.hasBit position <;> simp

theorem contains_enabled : (forced.apply flags).contains forced.enabled = true := by
  rw [contains_iff]
  intro position isSet
  simp [has_bit_apply, isSet]

theorem contains_named {flag : CompilerFlags} (isNamed : flag ∈ named.map Prod.snd) :
    (forced.apply flags).contains flag =
      (forced.enabled.contains flag || (flags.contains flag && !forced.disabled.contains flag)) := by
  rw [named_flags] at isNamed
  obtain ⟨place, within, rfl⟩ := List.mem_map.mp isNamed
  have small : place < 6 := List.mem_range.mp within
  have inWord : place < 32 := by omega
  simp [contains_bit_at inWord, has_bit_apply, has_bit_known, small]

end ForcedFlags

/-! ## Settings -/

namespace World.SettingsEdit

def forcedFlags? : SettingsEdit → Option ForcedFlags
  | .setForcedFlags forcedFlags => some forcedFlags
  | _ => none

def debugInfo? : SettingsEdit → Option Bool
  | .setDebugInfo enabled => some enabled
  | _ => none

/-- After edits a setting is what was written last, or what it was. -/
theorem last_written {Value : Type} (view : Settings → Value)
    {written : SettingsEdit → Option Value}
    (writes : ∀ settings edit, view (apply settings edit) = (written edit).getD (view settings))
    (edits : List SettingsEdit) (settings : Settings) :
    view (edits.foldl apply settings) =
      (edits.filterMap written).getLast?.getD (view settings) := by
  induction edits generalizing settings with
  | nil => rfl
  | cons edit rest ih =>
      rw [List.foldl_cons, ih, writes]
      cases value : written edit with
      | none => simp [value]
      | some last => simp [value, List.getLast?_cons]

theorem last_forced_flags (edits : List SettingsEdit) (settings : Settings) :
    (edits.foldl apply settings).forcedFlags =
      (edits.filterMap forcedFlags?).getLast?.getD settings.forcedFlags :=
  last_written Settings.forcedFlags (fun _ edit => by cases edit <;> rfl) edits settings

theorem last_debug_info (edits : List SettingsEdit) (settings : Settings) :
    (edits.foldl apply settings).debugInfo =
      (edits.filterMap debugInfo?).getLast?.getD settings.debugInfo :=
  last_written Settings.debugInfo (fun _ edit => by cases edit <;> rfl) edits settings

end World.SettingsEdit

/-! ## Requests -/

namespace CompileContext

theorem precise_iff (flags : CompilerFlags) :
    floatingPointMode flags = .precise ↔ flags.contains .floatingPointModePrecise = true := by
  unfold floatingPointMode
  split
  next precise => simp [precise]
  next imprecise => split <;> simp [imprecise]

theorem fast_iff (flags : CompilerFlags) :
    floatingPointMode flags = .fast ↔
      flags.contains .floatingPointModeFast = true ∧
        flags.contains .floatingPointModePrecise = false := by
  unfold floatingPointMode
  split
  next precise => simp [precise]
  next imprecise =>
    rw [Bool.not_eq_true] at imprecise
    split
    next fast => simp [fast, imprecise]
    next slow => simp [slow]

end CompileContext

namespace Archive

open World (SettingsEdit)

variable {B : Backend}

/-- A request that a manager makes after a run has all flags that are forced on by then and no
others that are forced off. Named flags of the description get through where neither says
otherwise, unnamed ones only if they are forced on. Forcing the flags again changes nothing. The
floating point mode is that of the flags that result, precise before fast, and debug information is
made for the flag as well as for the toggle. -/
theorem forced_flags_bind (files : FileTree) {managers : List (Manager B)} {manager : Nat}
    {start : Manager B} (managed : managers[manager]? = some start) (requests : List Request) :
    let edits := requests.filterMap (Request.edit? manager)
    let forced := (edits.filterMap SettingsEdit.forcedFlags?).getLast?.getD
      start.settings.forcedFlags
    let toggled := (edits.filterMap SettingsEdit.debugInfo?).getLast?.getD
      start.settings.debugInfo
    ∃ context, ((opening files managers).run requests).world.context? manager = some context ∧
      ∀ desc defines sent, context.request desc defines = .ok sent →
        sent.flags.contains forced.enabled = true ∧
        (∀ position, forced.disabled.hasBit position = true →
          forced.enabled.hasBit position = false → sent.flags.hasBit position = false) ∧
        (∀ position, CompilerFlags.known.hasBit position = true →
          desc.flags.hasBit position = true → forced.enabled.hasBit position = false →
          forced.disabled.hasBit position = false → sent.flags.hasBit position = true) ∧
        (∀ position, CompilerFlags.known.hasBit position = false →
          sent.flags.hasBit position = true → forced.enabled.hasBit position = true) ∧
        forced.apply sent.flags = sent.flags ∧
        (sent.floatingPointMode = .precise ↔
          sent.flags.contains .floatingPointModePrecise = true) ∧
        (sent.floatingPointMode = .fast ↔
          sent.flags.contains .floatingPointModeFast = true ∧
            sent.flags.contains .floatingPointModePrecise = false) ∧
        (∀ flag ∈ CompilerFlags.named.map Prod.snd, sent.flags.contains flag =
          (forced.enabled.contains flag ||
            (desc.flags.contains flag && !forced.disabled.contains flag))) ∧
        (sent.debugInfo = true ↔
          sent.flags.contains .generateDebugInfo = true ∨ toggled = true) := by
  intro edits forced toggled
  refine ⟨_, context_reached files managed requests, ?_⟩
  intro desc defines sent requested
  have contents := CompileContext.request_contents requested
  have isForced : forced = (edits.foldl SettingsEdit.apply start.settings).forcedFlags :=
    (SettingsEdit.last_forced_flags edits start.settings).symm
  have flags : sent.flags = forced.apply desc.flags := by
    rw [isForced]
    exact contents.flags
  have bits (position : Nat) := forced.has_bit_apply desc.flags position
  rw [← flags] at bits
  refine ⟨?_, ?_, ?_, ?_, ?_, ?_, ?_, ?_, ?_⟩
  · rw [flags]
    exact forced.contains_enabled desc.flags
  · intro position off notOn
    simp [bits, off, notOn]
  · intro position isKnown wanted notOn notOff
    simp [bits, isKnown, wanted, notOff]
  · intro position unknown isSet
    simpa [bits, unknown] using isSet
  · rw [flags]
    exact forced.apply_apply desc.flags
  · rw [contents.floatingPointMode]
    exact CompileContext.precise_iff sent.flags
  · rw [contents.floatingPointMode]
    exact CompileContext.fast_iff sent.flags
  · intro flag isNamed
    rw [flags]
    exact forced.contains_named desc.flags isNamed
  · have toggles : toggled = (edits.foldl SettingsEdit.apply start.settings).debugInfo :=
      (SettingsEdit.last_debug_info edits start.settings).symm
    rw [contents.debugInfo, Bool.or_eq_true, or_comm, toggles]
    rfl

/-- The flags that were forced on first are not any more. Debug information is forced off and made
for the toggle; both floating point modes are asked for, and the unnamed bit of the description is
dropped. -/
theorem forced_flags_bind_when_set_twice :
    let requests : List Request := [
      .operate (.editSettings 0 (.setForcedFlags ⟨⟨0x30⟩, .empty⟩)),
      .operate (.editSettings 0 (.setDebugInfo true)),
      .operate (.editSettings 0 (.setForcedFlags ⟨⟨0x48⟩, ⟨0x18⟩⟩))]
    let desc : ProgramDesc := { ProgramDesc.oneKernel with flags := ⟨0x96⟩ }
    ∃ context sent,
      ((opening {} [Manager.echo]).run requests).world.context? 0 = some context ∧
      context.request desc ∅ = .ok sent ∧
      [1, 2, 4, 5, 6, 7].map sent.flags.hasBit = [true, true, false, false, true, false] ∧
      sent.floatingPointMode = .precise ∧ sent.debugInfo = true := by
  intro requests desc
  have managed : [Manager.echo][0]? = some Manager.echo := rfl
  obtain ⟨context, inContext, binds⟩ := forced_flags_bind {} managed requests
  have succeeds : (((opening {} [Manager.echo]).run requests).world.context? 0).map (fun context =>
      (context.request desc ∅).toOption.isSome) = some true := by
    decide +kernel
  rw [inContext, Option.map_some, Option.some.injEq] at succeeds
  cases requested : context.request desc ∅ with
  | error error => simp [requested, Except.toOption] at succeeds
  | ok sent =>
      obtain ⟨on, off, through, unnamed, _, precise, _, named, debug⟩ :=
        binds desc ∅ sent requested
      have on := CompilerFlags.contains_iff.mp on
      have dumps : sent.flags.hasBit 1 = true :=
        through 1 (by decide) (by decide) (by decide) (by decide)
      have fast : sent.flags.hasBit 2 = true :=
        through 2 (by decide) (by decide) (by decide) (by decide)
      have undebugged : sent.flags.hasBit 4 = false := off 4 (by decide) (by decide)
      have extra : sent.flags.hasBit 6 = true := on 6 (by decide)
      have former : sent.flags.hasBit 5 = false := by
        have uncontained : sent.flags.contains .matrixLayoutColumnMajor = false :=
          (named .matrixLayoutColumnMajor (by decide)).trans (by decide)
        rw [← CompilerFlags.contains_bit_at (by decide)]
        exact uncontained
      have unknown : sent.flags.hasBit 7 = false := by
        by_contra isSet
        exact absurd (unnamed 7 (by decide) (by simpa using isSet)) (by decide)
      refine ⟨context, sent, inContext, requested, ?_, precise.mpr ?_, debug.mpr (.inr rfl)⟩
      · simp [dumps, fast, undebugged, former, extra, unknown]
      · exact (named .floatingPointModePrecise (by decide)).trans (by decide)

end Archive

end ShaderCache
