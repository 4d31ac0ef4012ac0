import RoleWiring.Json.Lexer

/-!
# Reading JSON

The tokens of a text drive a machine with a stack of unfinished arrays and
objects. What the machine expects next is its *mode*; in particular a closing
bracket is accepted after an opening one and after a value, never after a comma.
A text is JSON when the machine has exactly one finished value at its end.
-/

namespace RoleWiring.Json

/-- An unfinished array or object, its finished parts last first. -/
inductive Frame where
  /-- an array with these items -/
  | array (items : List Json)
  /-- an object with these members, at the value of the name -/
  | member (members : List (Units × Json)) (name : Units)
deriving Repr

/-- What is expected next. -/
inductive Mode where
  /-- a value -/
  | value
  /-- a first item or the end of the array -/
  | firstItem
  /-- a first name or the end of the object -/
  | firstName
  /-- a name, after these members -/
  | name (members : List (Units × Json))
  /-- a colon, after this name -/
  | colon (members : List (Units × Json)) (name : Units)
  /-- what may follow a finished value -/
  | finished (value : Json)
deriving Repr

/-- The machine after a token where a value may start. -/
def startValue (stack : List Frame) : Token → Option (Mode × List Frame)
  | .scalar v => some (.finished v, stack)
  | .text u => some (.finished (.text u), stack)
  | .beginArray => some (.firstItem, .array [] :: stack)
  | .beginObject => some (.firstName, stack)
  | _ => none

/-- The machine after a finished value and a token. -/
def afterValue (value : Json) : List Frame → Token → Option (Mode × List Frame)
  | .array items :: stack, .comma => some (.value, .array (value :: items) :: stack)
  | .array items :: stack, .endArray => some (.finished (.array (value :: items).reverse), stack)
  | .member members name :: stack, .comma => some (.name ((name, value) :: members), stack)
  | .member members name :: stack, .endObject =>
    some (.finished (.object ((name, value) :: members).reverse), stack)
  | _, _ => none

/-- The machine after one more token. -/
def step (state : Mode × List Frame) (t : Token) : Option (Mode × List Frame) :=
  match state, t with
  | (.firstItem, .array [] :: stack), .endArray => some (.finished (.array []), stack)
  | (.firstItem, stack), t => startValue stack t
  | (.value, stack), t => startValue stack t
  | (.firstName, stack), .endObject => some (.finished (.object []), stack)
  | (.firstName, stack), .text u => some (.colon [] u, stack)
  | (.name members, stack), .text u => some (.colon members u, stack)
  | (.colon members u, stack), .colon => some (.value, .member members u :: stack)
  | (.finished v, stack), t => afterValue v stack t
  | _, _ => none

/-- The value that the tokens denote, if they denote one. -/
def ofTokens? (ts : List Token) : Option Json :=
  match ts.foldlM step (.value, []) with
  | some (.finished v, []) => some v
  | _ => none

/-- The value that a text denotes, if it is JSON. -/
def parse? (s : String) : Option Json :=
  tokens? s.toList >>= ofTokens?

end RoleWiring.Json
