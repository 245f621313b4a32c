import Mathlib.Algebra.Group.Nat.Defs
import Mathlib.Tactic.SplitIfs
import ShaderCache.Config.Key

/-!
# Canonical bytes

Configurations are written as records without any lengths: a define is its name, an equals sign,
its value and a line break; a conformance is its type, a colon, its interface, a hash sign, the four
bytes of its number and a line break; a bar stands between both lists. As long as the fields keep
clear of the signs that end them, the bytes come from one configuration only, whatever bytes the
numbers have. Equal digests of different configurations are then collisions of the checksum.
-/

set_option autoImplicit false

namespace ShaderCache

/-! ## Characters that are one byte -/

namespace Text

/-- A byte below 128 stands for a character by itself. -/
theorem char_of_ascii_byte {c : Char} {byte : UInt8} (present : byte ∈ String.utf8EncodeChar c)
    (ascii : byte.toNat < 128) : c.toNat = byte.toNat := by
  unfold String.utf8EncodeChar at present
  change c.val.toNat = byte.toNat
  generalize c.val.toNat = code at *
  dsimp only at present
  split_ifs at present
  all_goals
    simp only [List.mem_cons, List.not_mem_nil, or_false, ← UInt8.toNat_inj,
      UInt8.toNat_ofNat'] at present
    omega

/-- A text without the character does not have its byte either. -/
theorem not_mem_utf8 {text : String} {c : Char} {byte : UInt8} (clear : c ∉ text.toList)
    (ascii : byte.toNat < 128) (stands : c.toNat = byte.toNat) : byte ∉ utf8 text := by
  intro present
  obtain ⟨found, held, within⟩ := List.mem_flatMap.mp present
  have same : c = found := by
    apply Char.toNat_inj.mp
    rw [stands, char_of_ascii_byte within ascii]
  rw [same] at clear
  exact clear held

/-- The first byte of a text is an ASCII character only if its first character is. -/
theorem head_of_ascii_byte {text : String} {c : Char} {byte : UInt8} {rest : List UInt8}
    (starts : utf8 text = byte :: rest) (ascii : byte.toNat < 128)
    (stands : c.toNat = byte.toNat) : text.toList.head? = some c := by
  unfold utf8 at starts
  cases chars : text.toList with
  | nil => simp [chars] at starts
  | cons first others =>
      obtain ⟨lead, more, encoded⟩ :=
        List.exists_cons_of_ne_nil (String.utf8EncodeChar_ne_nil (c := first))
      rw [chars, List.flatMap_cons, encoded, List.cons_append] at starts
      have isLead : lead = byte := (List.cons.inj starts).1
      have within : byte ∈ String.utf8EncodeChar first := by
        rw [encoded, isLead]
        exact List.mem_cons_self
      have same : first = c := by
        apply Char.toNat_inj.mp
        rw [stands, char_of_ascii_byte within ascii]
      rw [same, List.head?_cons]

/-! ## Hexadecimal digits -/

theorem hex_digit_inj {value other : Nat} (same : hexDigit value = hexDigit other) :
    value % 16 = other % 16 := by
  have digits : ∀ one another : Fin 16, hexDigit one = hexDigit another → one = another := by
    decide
  have reduced (number : Nat) : hexDigit number = hexDigit (number % 16) := by
    simp only [hexDigit, Nat.mod_mod]
  rw [reduced value, reduced other] at same
  have fins := digits ⟨value % 16, Nat.mod_lt _ (by decide)⟩ ⟨other % 16, Nat.mod_lt _ (by decide)⟩
    same
  exact congrArg Fin.val fins

/-- Digits of a fixed width tell numbers apart up to that width. -/
theorem hex_padded_inj {count value other : Nat}
    (same : hexPadded count value = hexPadded count other) :
    value % 16 ^ count = other % 16 ^ count := by
  induction count generalizing value other with
  | zero => rw [Nat.pow_zero, Nat.mod_one, Nat.mod_one]
  | succ count ih =>
      simp only [hexPadded] at same
      obtain ⟨higher, lowest⟩ := List.append_inj' same rfl
      have digit := hex_digit_inj (List.cons.inj lowest).1
      rw [Nat.pow_succ', Nat.mod_mul, Nat.mod_mul, digit, ih higher]

theorem hex64_inj {value other : UInt64} (same : hex64 value = hex64 other) : value = other := by
  have digits := hex_padded_inj (String.ofList_inj.mp same)
  have small (number : UInt64) : number.toNat < 16 ^ 16 := number.toNat_lt
  rw [Nat.mod_eq_of_lt (small value), Nat.mod_eq_of_lt (small other)] at digits
  exact UInt64.toNat_inj.mp digits

end Text

/-! ## Records without lengths -/

namespace CanonicalBytes

/-- A field goes up to the first sign that it does not have itself. -/
theorem field_inj {stop : UInt8} {field other rest more : List UInt8} (clear : stop ∉ field)
    (otherClear : stop ∉ other) (same : field ++ stop :: rest = other ++ stop :: more) :
    field = other ∧ rest = more := by
  induction field generalizing other with
  | nil =>
      cases other with
      | nil => exact ⟨rfl, (List.cons.inj same).2⟩
      | cons byte bytes =>
          have isStop : stop = byte := (List.cons.inj same).1
          rw [isStop] at otherClear
          exact absurd List.mem_cons_self otherClear
  | cons first bytes ih =>
      cases other with
      | nil =>
          have isStop : first = stop := (List.cons.inj same).1
          rw [isStop] at clear
          exact absurd List.mem_cons_self clear
      | cons byte others =>
          obtain ⟨sameFirst, sameRest⟩ := List.cons.inj same
          have clearRest : stop ∉ bytes := fun held => clear (List.mem_cons_of_mem _ held)
          have otherClearRest : stop ∉ others :=
            fun held => otherClear (List.mem_cons_of_mem _ held)
          obtain ⟨fields, tails⟩ := ih clearRest otherClearRest sameRest
          rw [sameFirst, fields]
          exact ⟨rfl, tails⟩

variable {Item : Type}

/-- What is written of an allowed item tells where it ends, whatever follows. -/
def Delimits (allowed : Item → Prop) (write : Item → List UInt8) : Prop :=
  ∀ one other, allowed one → allowed other → ∀ rest more,
    write one ++ rest = write other ++ more → one = other ∧ rest = more

/-- No allowed item starts here, so the items have come to their end. -/
def Closes (allowed : Item → Prop) (write : Item → List UInt8) (tail : List UInt8) : Prop :=
  ∀ item, allowed item → ∀ rest, write item ++ rest ≠ tail

/-- Items that delimit themselves are read back one by one up to where none starts. -/
theorem items_inj {allowed : Item → Prop} {write : Item → List UInt8}
    (delimits : Delimits allowed write) {items others : List Item} {tail otherTail : List UInt8}
    (itemsAllowed : ∀ item ∈ items, allowed item) (othersAllowed : ∀ item ∈ others, allowed item)
    (closes : Closes allowed write tail) (otherCloses : Closes allowed write otherTail)
    (same : items.flatMap write ++ tail = others.flatMap write ++ otherTail) :
    items = others ∧ tail = otherTail := by
  induction items generalizing others with
  | nil =>
      cases others with
      | nil => exact ⟨rfl, same⟩
      | cons other rest =>
          rw [List.flatMap_cons, List.append_assoc] at same
          exact absurd same.symm (closes other (othersAllowed other List.mem_cons_self) _)
  | cons item rest ih =>
      have itemAllowed := itemsAllowed item List.mem_cons_self
      cases others with
      | nil =>
          rw [List.flatMap_cons, List.append_assoc] at same
          exact absurd same (otherCloses item itemAllowed _)
      | cons other more =>
          have otherAllowed := othersAllowed other List.mem_cons_self
          rw [List.flatMap_cons, List.flatMap_cons, List.append_assoc, List.append_assoc] at same
          obtain ⟨sameItem, sameRest⟩ := delimits item other itemAllowed otherAllowed _ _ same
          have restAllowed : ∀ one ∈ rest, allowed one :=
            fun one held => itemsAllowed one (List.mem_cons_of_mem _ held)
          have moreAllowed : ∀ one ∈ more, allowed one :=
            fun one held => othersAllowed one (List.mem_cons_of_mem _ held)
          obtain ⟨sameItems, sameTail⟩ := ih restAllowed moreAllowed sameRest
          rw [sameItem, sameItems]
          exact ⟨rfl, sameTail⟩

theorem flat_map_inj {allowed : Item → Prop} {write : Item → List UInt8}
    (delimits : Delimits allowed write) (ends : Closes allowed write []) {items others : List Item}
    (itemsAllowed : ∀ item ∈ items, allowed item) (othersAllowed : ∀ item ∈ others, allowed item)
    (same : items.flatMap write = others.flatMap write) : items = others := by
  have ended : items.flatMap write ++ [] = others.flatMap write ++ [] := by
    rw [List.append_nil, List.append_nil, same]
  exact (items_inj delimits itemsAllowed othersAllowed ends ends ended).1

end CanonicalBytes

open CanonicalBytes

/-! ## Defines -/

namespace DefineList

def record (define : String × String) : List UInt8 :=
  Text.utf8 define.1 ++ [61] ++ Text.utf8 define.2 ++ [10]

/-- The name has no equals sign, and the value no line break. -/
def FieldsClear (define : String × String) : Prop :=
  '=' ∉ define.1.toList ∧ '\n' ∉ define.2.toList

def WellFormed (defines : DefineList) : Prop :=
  ∀ define ∈ defines.entries, FieldsClear define

instance (defines : DefineList) : Decidable defines.WellFormed :=
  inferInstanceAs (Decidable (∀ define ∈ defines.entries,
    '=' ∉ define.1.toList ∧ '\n' ∉ define.2.toList))

theorem canonical_bytes_eq (defines : DefineList) :
    defines.canonicalBytes = defines.entries.flatMap record := rfl

theorem record_delimits : Delimits FieldsClear record := by
  intro one other clear otherClear rest more same
  have equalsSign {define : String × String} (fields : FieldsClear define) :
      (61 : UInt8) ∉ Text.utf8 define.1 :=
    Text.not_mem_utf8 fields.1 (by decide) (by decide)
  have lineBreak {define : String × String} (fields : FieldsClear define) :
      (10 : UInt8) ∉ Text.utf8 define.2 :=
    Text.not_mem_utf8 fields.2 (by decide) (by decide)
  simp only [record, List.append_assoc, List.singleton_append] at same
  obtain ⟨names, afterNames⟩ := field_inj (equalsSign clear) (equalsSign otherClear) same
  obtain ⟨values, tails⟩ := field_inj (lineBreak clear) (lineBreak otherClear) afterNames
  exact ⟨Prod.ext (Text.utf8_injective names) (Text.utf8_injective values), tails⟩

theorem end_closes : Closes FieldsClear record [] := by
  intro define _ rest same
  simp [record] at same

end DefineList

/-! ## Conformances -/

theorem Conformance.eq_of_bytes {one other : Conformance}
    (types : Text.utf8 one.typeName = Text.utf8 other.typeName)
    (interfaces : Text.utf8 one.interfaceName = Text.utf8 other.interfaceName) : one = other := by
  cases one
  cases other
  rw [Conformance.mk.injEq]
  exact ⟨Text.utf8_injective types, Text.utf8_injective interfaces⟩

namespace ConformanceList

def record (entry : Conformance × UInt32) : List UInt8 :=
  Text.utf8 entry.1.typeName ++ [58] ++ Text.utf8 entry.1.interfaceName ++ [35] ++
    idBytes entry.2 ++ [10]

/-- The type has no colon, and the interface no hash sign. -/
def FieldsClear (entry : Conformance × UInt32) : Prop :=
  ':' ∉ entry.1.typeName.toList ∧ '#' ∉ entry.1.interfaceName.toList

def WellFormed (list : ConformanceList) : Prop :=
  ∀ entry ∈ list.entries, FieldsClear entry

instance (list : ConformanceList) : Decidable list.WellFormed :=
  inferInstanceAs (Decidable (∀ entry ∈ list.entries,
    ':' ∉ entry.1.typeName.toList ∧ '#' ∉ entry.1.interfaceName.toList))

theorem canonical_bytes_eq (list : ConformanceList) :
    list.canonicalBytes = list.entries.flatMap record := rfl

theorem id_bytes_inj {id other : UInt32} (same : idBytes id = idBytes other) : id = other := by
  have shifted (number : UInt32) : (number >>> 8).toNat = number.toNat / 256 ∧
      (number >>> 16).toNat = number.toNat / 65536 ∧
      (number >>> 24).toNat = number.toNat / 16777216 := by
    simp only [UInt32.toNat_shiftRight, Nat.shiftRight_eq_div_pow]
    exact ⟨rfl, rfl, rfl⟩
  simp only [idBytes, List.cons.injEq, ← UInt8.toNat_inj, UInt32.toNat_toUInt8, shifted] at same
  have small := id.toNat_lt
  have otherSmall := other.toNat_lt
  apply UInt32.toNat_inj.mp
  omega

/-- The number has a fixed width, so that its bytes need no sign to end them. -/
theorem record_delimits : Delimits FieldsClear record := by
  intro one other clear otherClear rest more same
  have colon {entry : Conformance × UInt32} (fields : FieldsClear entry) :
      (58 : UInt8) ∉ Text.utf8 entry.1.typeName :=
    Text.not_mem_utf8 fields.1 (by decide) (by decide)
  have hashSign {entry : Conformance × UInt32} (fields : FieldsClear entry) :
      (35 : UInt8) ∉ Text.utf8 entry.1.interfaceName :=
    Text.not_mem_utf8 fields.2 (by decide) (by decide)
  simp only [record, List.append_assoc, List.singleton_append] at same
  obtain ⟨types, afterTypes⟩ := field_inj (colon clear) (colon otherClear) same
  obtain ⟨interfaces, afterInterfaces⟩ :=
    field_inj (hashSign clear) (hashSign otherClear) afterTypes
  obtain ⟨ids, tails⟩ := List.append_inj afterInterfaces rfl
  exact ⟨Prod.ext (Conformance.eq_of_bytes types interfaces) (id_bytes_inj ids),
    (List.cons.inj tails).2⟩

theorem end_closes : Closes FieldsClear record [] := by
  intro entry _ rest same
  simp [record] at same

end ConformanceList

/-! ## Whole configurations -/

namespace ProgramKey

/-- Both lists are well formed, and no name of a define begins with the bar that stands between
them. -/
structure WellFormed (key : ProgramKey) : Prop where
  defines : key.defines.WellFormed
  conformances : key.conformances.WellFormed
  barless : ∀ name ∈ key.defines.keys, name.toList.head? ≠ some '|'

def DefineAllowed (define : String × String) : Prop :=
  DefineList.FieldsClear define ∧ define.1.toList.head? ≠ some '|'

theorem WellFormed.define_allowed {key : ProgramKey} (wellFormed : key.WellFormed) :
    ∀ define ∈ key.defines.entries, DefineAllowed define := by
  intro define held
  exact ⟨wellFormed.defines define held,
    wellFormed.barless define.1 (List.mem_map_of_mem held)⟩

theorem define_delimits : Delimits DefineAllowed DefineList.record := by
  intro one other allowed otherAllowed
  exact DefineList.record_delimits one other allowed.1 otherAllowed.1

/-- A define starts with its name, or with the equals sign if the name is empty. -/
theorem bar_closes (tail : List UInt8) :
    Closes DefineAllowed DefineList.record ([124] ++ tail) := by
  intro define allowed rest same
  simp only [DefineList.record, List.append_assoc, List.singleton_append] at same
  cases bytes : Text.utf8 define.1 with
  | nil =>
      rw [bytes, List.nil_append] at same
      exact absurd (List.cons.inj same).1 (by decide)
  | cons first others =>
      rw [bytes, List.cons_append] at same
      rw [(List.cons.inj same).1] at bytes
      exact allowed.2 (Text.head_of_ascii_byte bytes (by decide) (by decide))

end ProgramKey

theorem DefineList.canonical_bytes_inj {left right : DefineList} (wellFormed : left.WellFormed)
    (otherWellFormed : right.WellFormed) (same : left.canonicalBytes = right.canonicalBytes) :
    left = right := by
  rw [canonical_bytes_eq, canonical_bytes_eq] at same
  apply SortedMap.eq_of_entries_eq
  exact flat_map_inj record_delimits end_closes wellFormed otherWellFormed same

theorem ConformanceList.canonical_bytes_inj {left right : ConformanceList}
    (wellFormed : left.WellFormed) (otherWellFormed : right.WellFormed)
    (same : left.canonicalBytes = right.canonicalBytes) : left = right := by
  rw [canonical_bytes_eq, canonical_bytes_eq] at same
  apply SortedMap.eq_of_entries_eq
  exact flat_map_inj record_delimits end_closes wellFormed otherWellFormed same

theorem ProgramKey.canonical_bytes_inj {left right : ProgramKey} (wellFormed : left.WellFormed)
    (otherWellFormed : right.WellFormed) (same : left.canonicalBytes = right.canonicalBytes) :
    left = right := by
  simp only [canonicalBytes, DefineList.canonical_bytes_eq, List.append_assoc] at same
  obtain ⟨entries, tails⟩ := items_inj define_delimits wellFormed.define_allowed
    otherWellFormed.define_allowed (bar_closes _) (bar_closes _) same
  have defines : left.defines = right.defines := SortedMap.eq_of_entries_eq entries
  have conformances : left.conformances = right.conformances :=
    ConformanceList.canonical_bytes_inj wellFormed.conformances otherWellFormed.conformances
      (List.append_cancel_left tails)
  cases left
  cases right
  rw [ProgramKey.mk.injEq]
  exact ⟨defines, conformances⟩

/-! ## Digests -/

/-- Different bytes with the same checksum. -/
def Crc64.Collide (bytes others : List UInt8) : Prop :=
  bytes ≠ others ∧ checksum bytes = checksum others

theorem Crc64.digest_eq_iff {bytes others : List UInt8} :
    digest bytes = digest others ↔ bytes = others ∨ Collide bytes others := by
  constructor
  · intro same
    by_cases equal : bytes = others
    · exact .inl equal
    · exact .inr ⟨equal, Text.hex64_inj same⟩
  · intro equal
    cases equal with
    | inl same => rw [same]
    | inr collide => rw [digest, digest, collide.2]

/-- Well-formed configurations are told apart by their bytes, and by their digests up to collisions
of the checksum. -/
def ToldApart {Configuration : Type} (wellFormed : Configuration → Prop)
    (bytes : Configuration → List UInt8) (digest : Configuration → String) : Prop :=
  ∀ left right, wellFormed left → wellFormed right →
    (bytes left = bytes right ↔ left = right) ∧
    (digest left = digest right ↔ left = right ∨ Crc64.Collide (bytes left) (bytes right))

theorem told_apart {Configuration : Type} {wellFormed : Configuration → Prop}
    {bytes : Configuration → List UInt8}
    (inj : ∀ {left right}, wellFormed left → wellFormed right → bytes left = bytes right →
      left = right) :
    ToldApart wellFormed bytes fun configuration => Crc64.digest (bytes configuration) := by
  intro left right leftWellFormed rightWellFormed
  have bytes_iff : bytes left = bytes right ↔ left = right :=
    ⟨inj leftWellFormed rightWellFormed, fun same => by rw [same]⟩
  refine ⟨bytes_iff, ?_⟩
  rw [Crc64.digest_eq_iff, bytes_iff]

/-- If names have no equals sign and values no line break, the bytes of two sets of defines are the
same only if the sets are. If types have no colon and interfaces no hash sign, so are those of two
lists of conformances, with any numbers. If names of defines do not begin with a bar either, so are
those of whole configurations. Digests are the same only if the configurations are, or if different
bytes have the same checksum. -/
theorem canonical_bytes_injective :
    ToldApart DefineList.WellFormed DefineList.canonicalBytes DefineList.digest ∧
    ToldApart ConformanceList.WellFormed ConformanceList.canonicalBytes ConformanceList.digest ∧
    ToldApart ProgramKey.WellFormed ProgramKey.canonicalBytes ProgramKey.digest :=
  ⟨told_apart DefineList.canonical_bytes_inj, told_apart ConformanceList.canonical_bytes_inj,
    told_apart ProgramKey.canonical_bytes_inj⟩

/-- The number of the conformance has a line break and a hash sign among its bytes, and the names
have bars and line breaks where the other configuration has the ends of its lists. -/
theorem canonical_bytes_of_lookalikes :
    let left : ProgramKey :=
      ⟨.ofList [("A", "1=|")], .ofTriples [("B=2\n|T", "I:", 0x0A23)]⟩
    let right : ProgramKey :=
      ⟨.ofList [("A", "1=|"), ("B", "2")], .ofTriples [("T", "I:", 0x0A23)]⟩
    left.WellFormed ∧ right.WellFormed ∧ left.canonicalBytes ≠ right.canonicalBytes := by
  intro left right
  have leftWellFormed : left.WellFormed := ⟨by decide, by decide, by decide⟩
  have rightWellFormed : right.WellFormed := ⟨by decide, by decide, by decide⟩
  have apart := canonical_bytes_injective.2.2 left right leftWellFormed rightWellFormed
  refine ⟨leftWellFormed, rightWellFormed, ?_⟩
  rw [ne_eq, apart.1]
  decide

/-- A name that begins with a bar can be taken for the end of the defines. -/
example :
    ProgramKey.canonicalBytes ⟨.ofList [("A", "1"), ("|B", "2")], .ofTriples [("T", "I", 3)]⟩ =
      ProgramKey.canonicalBytes ⟨.ofList [("A", "1")], .ofTriples [("B=2\n|T", "I", 3)]⟩ := by
  decide

end ShaderCache
