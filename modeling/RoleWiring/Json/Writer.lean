import RoleWiring.Json.Value

/-!
# Writing JSON

Two spellings of a value. The compact one has no white space at all. The pretty
one puts every item of an array and every member of an object on a line of its
own, two spaces deeper than the brackets, and a space after each colon; empty
brackets stay together. In both, quotes, backslashes and control characters are
escaped and everything else is written as it is.
-/

namespace RoleWiring.Json

/-- The lower-case hexadecimal digit of a number below sixteen. -/
def hexDigit (n : Nat) : Char :=
  if n < 10 then Char.ofNat (48 + n) else Char.ofNat (87 + n)

/-- The escape of a code by its four hexadecimal digits. -/
def hexEscape (code : Nat) : List Char :=
  ['\\', 'u', hexDigit (code / 4096 % 16), hexDigit (code / 256 % 16), hexDigit (code / 16 % 16),
    hexDigit (code % 16)]

/-- A character as it is written inside quotes. -/
def escapeChar (c : Char) : List Char :=
  if c = '"' then ['\\', '"']
  else if c = '\\' then ['\\', '\\']
  else if c = '\x08' then ['\\', 'b']
  else if c = '\x0c' then ['\\', 'f']
  else if c = '\n' then ['\\', 'n']
  else if c = '\r' then ['\\', 'r']
  else if c = '\t' then ['\\', 't']
  else if c.toNat < 0x20 then hexEscape c.toNat
  else [c]

/-- A unit as it is written inside quotes. -/
def escapeUnit : TextUnit → List Char
  | .char c => escapeChar c
  | .surrogate code => hexEscape code

/-- A text in quotes. -/
def quoted (u : Units) : List Char :=
  '"' :: (u.flatMap escapeUnit ++ ['"'])

/-- A number: its sign, its digits and, where it is not zero, its exponent. -/
def decimalChars (n : Decimal) : List Char :=
  (if n.negative then ['-'] else []) ++ (toString n.significand).toList ++
    (if n.exponent = 0 then [] else 'e' :: (toString n.exponent).toList)

/-- What stands between a bracket and an item `depth` brackets deep. -/
def lineBreak (pretty : Bool) (depth : Nat) : List Char :=
  if pretty then '\n' :: List.replicate (2 * depth) ' ' else []

/-- What stands between a name and its value. -/
def nameBreak (pretty : Bool) : List Char :=
  if pretty then [':', ' '] else [':']

mutual

/-- A value, `depth` brackets deep. -/
def render (pretty : Bool) (depth : Nat) : Json → List Char
  | .null => ['n', 'u', 'l', 'l']
  | .bool true => ['t', 'r', 'u', 'e']
  | .bool false => ['f', 'a', 'l', 's', 'e']
  | .number n => decimalChars n
  | .text u => quoted u
  | .array [] => ['[', ']']
  | .array (item :: items) =>
    '[' :: (lineBreak pretty (depth + 1) ++ render pretty (depth + 1) item ++
      renderItems pretty depth items)
  | .object [] => ['{', '}']
  | .object ((name, value) :: members) =>
    '{' :: (lineBreak pretty (depth + 1) ++ quoted name ++ nameBreak pretty ++
      render pretty (depth + 1) value ++ renderMembers pretty depth members)

/-- The items after the first, up to the closing bracket. -/
def renderItems (pretty : Bool) (depth : Nat) : List Json → List Char
  | [] => lineBreak pretty depth ++ [']']
  | item :: items =>
    ',' :: (lineBreak pretty (depth + 1) ++ render pretty (depth + 1) item ++
      renderItems pretty depth items)

/-- The members after the first, up to the closing bracket. -/
def renderMembers (pretty : Bool) (depth : Nat) : List (Units × Json) → List Char
  | [] => lineBreak pretty depth ++ ['}']
  | (name, value) :: members =>
    ',' :: (lineBreak pretty (depth + 1) ++ quoted name ++ nameBreak pretty ++
      render pretty (depth + 1) value ++ renderMembers pretty depth members)

end

/-- The compact spelling of a value. -/
def compact (j : Json) : String :=
  String.ofList (render false 0 j)

/-- The pretty spelling of a value. -/
def pretty (j : Json) : String :=
  String.ofList (render true 0 j)

end RoleWiring.Json
