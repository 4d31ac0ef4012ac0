import RoleWiring.Text.Alphabetic
import RoleWiring.Text.Numeric

/-!
# Identifiers

One segment of a type name. It starts with a letter, an underscore or a dollar
sign and goes on with those and numbers; letters and numbers are those of all
scripts. Directory names such as `META-INF` and file stems such as `module-info`
are not identifiers, so nothing under them names a type.
-/

namespace RoleWiring

/-- A character that an identifier may start with. -/
def isIdentifierStart (c : Char) : Bool :=
  isAlphabetic c || c == '_' || c == '$'

/-- A character that an identifier may go on with. -/
def isIdentifierPart (c : Char) : Bool :=
  isAlphabetic c || isNumeric c || c == '_' || c == '$'

/-- The characters spell an identifier. -/
def isIdentifierChars : List Char → Bool
  | [] => false
  | c :: cs => isIdentifierStart c && cs.all isIdentifierPart

/-- The text is an identifier. -/
def isIdentifier (s : String) : Bool :=
  isIdentifierChars s.toList

/-- What may start an identifier may stand inside one. -/
theorem isIdentifierPart_of_start {c : Char} (h : isIdentifierStart c = true) :
    isIdentifierPart c = true := by
  simp only [isIdentifierStart, isIdentifierPart, Bool.or_eq_true] at *
  rcases h with (h | h) | h <;> simp [h]

/-- Every character of an identifier may stand inside one. -/
theorem all_isIdentifierPart {cs : List Char} (h : isIdentifierChars cs = true) :
    ∀ c ∈ cs, isIdentifierPart c = true := by
  cases cs with
  | nil => cases h
  | cons d ds =>
    simp only [isIdentifierChars, Bool.and_eq_true, List.all_eq_true] at h
    intro c hc
    rcases List.mem_cons.mp hc with rfl | hc
    · exact isIdentifierPart_of_start h.1
    · exact h.2 c hc

end RoleWiring
