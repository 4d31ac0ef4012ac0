/-!
# Bytes and text

File names, class files and configuration files are sequences of bytes; names of
types and roles are texts. `utf8Bytes` spells a text in bytes and `utf8Text?`
reads it back, refusing bytes that spell no text. The two are inverse:

* `utf8Text?_utf8Bytes` — every text is read back;
* `utf8Bytes_of_utf8Text?` — whatever is read has that one spelling.
-/

namespace RoleWiring

/-- A sequence of bytes. -/
abbrev Bytes := List UInt8

/-- The UTF-8 spelling of a text. -/
def utf8Bytes (s : String) : Bytes :=
  s.toByteArray.data.toList

/-- The text that the bytes spell in UTF-8, if they spell one. -/
def utf8Text? (bs : Bytes) : Option String :=
  String.fromUTF8? ⟨bs.toArray⟩

theorem utf8Text?_utf8Bytes (s : String) : utf8Text? (utf8Bytes s) = some s := by
  have h : (⟨s.toByteArray.data.toList.toArray⟩ : ByteArray).IsValidUTF8 := s.isValidUTF8
  simp only [utf8Text?, utf8Bytes, String.fromUTF8?, h, ↓reduceDIte]
  rfl

theorem utf8Bytes_of_utf8Text? {bs : Bytes} {s : String} (h : utf8Text? bs = some s) :
    utf8Bytes s = bs := by
  simp only [utf8Text?, String.fromUTF8?] at h
  split at h
  · cases h
    simp [utf8Bytes, String.fromUTF8]
  · cases h

/-- Two texts with the same spelling are equal. -/
theorem utf8Bytes_inj {s t : String} (h : utf8Bytes s = utf8Bytes t) : s = t := by
  have hs := utf8Text?_utf8Bytes s
  rw [h, utf8Text?_utf8Bytes] at hs
  exact (Option.some.inj hs).symm

end RoleWiring
