import RoleWiring.Text.Surrogate

/-!
# JSON values

The values that a JSON text denotes, in the order of the text: the members of an
object are a list in which a name may stand twice. A text is a list of units, since
JSON can spell surrogates that belong to no character; `Units.toString?` gives the
string of those texts that are one.
-/

namespace RoleWiring

/-- One unit of a JSON text. -/
inductive TextUnit where
  /-- a character -/
  | char (c : Char)
  /-- one half of a surrogate pair, given by its code -/
  | surrogate (code : Nat)
deriving DecidableEq, Repr

/-- A JSON text, unit by unit. -/
abbrev Units := List TextUnit

namespace Units

/-- The units of a string. -/
def ofString (s : String) : Units :=
  s.toList.map .char

/-- The character that two surrogates stand for, if they are the halves of a pair. -/
def pair? (high low : Nat) : Option Char :=
  if isHighSurrogate high && isLowSurrogate low then some (pairedChar high low) else none

/-- The characters of the units, if every surrogate belongs to a pair. -/
def chars? : Units → Option (List Char)
  | [] => some []
  | .char c :: rest => (chars? rest).map (c :: ·)
  | .surrogate high :: .surrogate low :: rest =>
    match pair? high low with
    | some c => (chars? rest).map (c :: ·)
    | none => none
  | .surrogate _ :: _ => none

/-- The string of the units, if every surrogate belongs to a pair. -/
def toString? (u : Units) : Option String :=
  u.chars?.map String.ofList

theorem chars?_map_char (cs : List Char) : chars? (cs.map .char) = some cs := by
  induction cs with
  | nil => rfl
  | cons c cs ih => simp [chars?, ih]

/-- The units of a string give the string back. -/
theorem toString?_ofString (s : String) : (ofString s).toString? = some s := by
  simp [toString?, ofString, chars?_map_char]

end Units

/-- A decimal number as it is written: `significand · 10 ^ exponent`, negated or not. -/
structure Decimal where
  negative : Bool
  significand : Nat
  exponent : Int
deriving DecidableEq, Repr

/-- A JSON value. -/
inductive Json where
  | null
  | bool (b : Bool)
  | number (n : Decimal)
  | text (units : Units)
  | array (items : List Json)
  | object (members : List (Units × Json))
deriving Repr

namespace Json

/-- The text value of a string. -/
def ofString (s : String) : Json :=
  .text (Units.ofString s)

/-- The object with these members. -/
def ofMembers (members : List (String × Json)) : Json :=
  .object (members.map fun m => (Units.ofString m.1, m.2))

/-- The string of a text value. -/
def string? : Json → Option String
  | .text u => u.toString?
  | _ => none

/-- The strings of an array of text values. -/
def strings? : Json → Option (List String)
  | .array items => items.mapM string?
  | _ => none

end Json

end RoleWiring
