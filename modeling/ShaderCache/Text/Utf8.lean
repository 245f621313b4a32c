/-!
# Texts as UTF-8 bytes

Byte offsets, fingerprints and files speak of the UTF-8 bytes of a text. Two
texts with the same bytes are the same text.
-/

set_option autoImplicit false

namespace ShaderCache.Text

def utf8 (text : String) : List UInt8 :=
  text.toList.flatMap String.utf8EncodeChar

theorem utf8_append (left right : String) : utf8 (left ++ right) = utf8 left ++ utf8 right := by
  simp [utf8]

theorem utf8_eq_bytes (text : String) : (utf8 text).toByteArray = text.toByteArray := by
  rw [← String.utf8Encode_toList]
  simp [utf8, List.utf8Encode]

theorem utf8_injective {left right : String} (same : utf8 left = utf8 right) : left = right := by
  rw [← String.toByteArray_inj, ← utf8_eq_bytes, ← utf8_eq_bytes, same]

/-- The text with these bytes, unless they are not UTF-8. -/
def ofUtf8? (bytes : List UInt8) : Option String :=
  String.fromUTF8? bytes.toByteArray

theorem ofUtf8?_utf8 (text : String) : ofUtf8? (utf8 text) = some text := by
  rw [ofUtf8?, utf8_eq_bytes, String.fromUTF8?, dif_pos text.isValidUTF8]
  simp [String.fromUTF8]

end ShaderCache.Text
