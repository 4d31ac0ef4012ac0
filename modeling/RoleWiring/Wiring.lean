import RoleWiring.FileTree.Change
import RoleWiring.Json.Domain
import RoleWiring.Text.LowerCase

/-!
# Wirings

The services that the chosen classes provide, by role, and the service file that holds them: an
object with one entry for every role, which lists one service. A service has the class that
provides it and an identifier, the name of its role in lower case.
-/

namespace RoleWiring

/-- One provided service. -/
structure Service where
  /-- the name of the class -/
  className : String
  /-- the identifier -/
  id : String
deriving DecidableEq, Repr

/-- The services of every role. -/
abbrev Wiring := Roster (List Service)

/-- A service as an object. -/
def Service.toJson (s : Service) : Json :=
  .ofMembers [("class", .ofString s.className), ("id", .ofString s.id)]

namespace Wiring

/-- The services that the chosen classes provide. -/
def ofChosen (chosen : Roster String) : Wiring :=
  chosen.mapValues fun role type => [{ className := type, id := lowerCase role }]

/-- A wiring as an object. -/
def toJson (w : Wiring) : Json :=
  Roster.toJson (fun services => .array (services.map Service.toJson)) w

/-- The text of a wiring. -/
def text (w : Wiring) : String :=
  w.toJson.pretty

/-- Writes the service file of a wiring, making the directories above it where they are missing.
The tree is the one that is left, also after a failure. -/
def write (w : Wiring) (t : FileTree) (p : Path) : FileTree × Option Fault :=
  match t.createParents p with
  | (t, some e) => (t, some (.io e))
  | (t, none) =>
    match t.write p (utf8Bytes (w.text ++ "\n")) with
    | .error e => (t, some (.io e))
    | .ok t => (t, none)

end Wiring

end RoleWiring
