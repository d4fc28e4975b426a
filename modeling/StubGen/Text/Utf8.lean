/-!
# Bytes of text

Files hold bytes, and text is written to them and read from them as UTF-8.
-/

namespace StubGen.Text

/-- The UTF-8 bytes of a text. -/
def utf8 (s : String) : List UInt8 := s.toList.flatMap String.utf8EncodeChar

/-- The text whose UTF-8 bytes these are, if they are well formed. -/
def ofUtf8? (bytes : List UInt8) : Option String := String.fromUTF8? ⟨bytes.toArray⟩

theorem utf8_append (s t : String) : utf8 (s ++ t) = utf8 s ++ utf8 t := by
  simp [utf8]

end StubGen.Text
