import RoleWiring.Text.Utf8

/-!
# Showing bytes

Bytes are shown to a reader as the text that they spell. Where they spell none, each
character that is well-formed is shown, and the replacement character stands for
the rest: once for every sequence that begins like a character and breaks off, and
once for every byte that begins none.
-/

namespace RoleWiring

/-- The character that stands for what is not well-formed. -/
def replacementChar : Char := '\ufffd'

/-- The least and the greatest byte that may follow anywhere but at the second place. -/
def tailRange : UInt8 × UInt8 :=
  (0x80, 0xBF)

/-- The ranges of the bytes that must follow a first byte. The second byte is kept from
spelling what a shorter sequence spells, a surrogate, or more than the last code point. -/
def followers (b : UInt8) : List (UInt8 × UInt8) :=
  if b < 0xC2 then []
  else if b < 0xE0 then [tailRange]
  else if b = 0xE0 then [(0xA0, 0xBF), tailRange]
  else if b = 0xED then [(0x80, 0x9F), tailRange]
  else if b < 0xF0 then [tailRange, tailRange]
  else if b = 0xF0 then [(0x90, 0xBF), tailRange, tailRange]
  else if b < 0xF4 then [tailRange, tailRange, tailRange]
  else if b = 0xF4 then [(0x80, 0x8F), tailRange, tailRange]
  else []

/-- How many bytes in front are in the ranges, one after the other. -/
def matching : List (UInt8 × UInt8) → Bytes → Nat
  | range :: ranges, b :: bs => if range.1 ≤ b && b ≤ range.2 then matching ranges bs + 1 else 0
  | _, _ => 0

/-- The character at the front of the bytes, if a well-formed one is there. -/
def charInFront? (bs : Bytes) : Option Char :=
  ByteArray.utf8DecodeChar? ⟨(bs.take 4).toArray⟩ 0

/-- The characters that bytes are shown as. -/
def displayChars : Bytes → List Char
  | [] => []
  | b :: bs =>
    match charInFront? (b :: bs) with
    | some c => c :: displayChars (bs.drop (c.utf8Size - 1))
    | none => replacementChar :: displayChars (bs.drop (matching (followers b) bs))
termination_by bs => bs.length
decreasing_by all_goals (simp only [List.length_drop, List.length_cons]; omega)

/-- The text that shows the bytes to a reader. -/
def displayText (bs : Bytes) : String :=
  (utf8Text? bs).getD (String.ofList (displayChars bs))

/-- Bytes that spell a text are shown as that text. -/
theorem displayText_utf8Bytes (s : String) : displayText (utf8Bytes s) = s := by
  simp [displayText, utf8Text?_utf8Bytes]

end RoleWiring
