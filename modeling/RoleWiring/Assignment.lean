import RoleWiring.Fault
import RoleWiring.Text.WhiteSpace

/-!
# Assignments

The form `KEY=VALUE` in which roles and selections are given on a command line.
The first equals sign divides the text; white space around the two halves does
not count, and neither half may be empty.
-/

namespace RoleWiring

/-- A role: a name for it and the type that its members must reach. In a selection the type
is the chosen member. -/
structure Role where
  /-- the name of the role -/
  name : String
  /-- the qualified name of the type -/
  type : String
deriving DecidableEq, Repr

/-- The characters before the first equals sign and those after it. -/
def splitAssignment? : List Char → Option (List Char × List Char)
  | [] => none
  | c :: cs =>
    if c = '=' then some ([], cs)
    else (splitAssignment? cs).map fun halves => (c :: halves.1, halves.2)

/-- The two halves of an assignment. -/
def readAssignment (s : String) : Except Fault (String × String) :=
  match splitAssignment? s.toList with
  | none => .error (.config (.notAssignment s))
  | some (left, right) =>
    let key := trimChars left
    let value := trimChars right
    if key = [] ∨ value = [] then .error (.config (.notAssignment s))
    else .ok (String.ofList key, String.ofList value)

/-- The role or selection that an assignment gives. -/
def Role.ofAssignment (s : String) : Except Fault Role := do
  let (name, type) ← readAssignment s
  return { name, type }

end RoleWiring
