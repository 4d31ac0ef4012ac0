import RoleWiring.Assignment
import RoleWiring.Implementation
import RoleWiring.Json.Reader
import RoleWiring.Json.Record
import RoleWiring.Json.Writer

/-!
# The domain in JSON

How artifacts, kinds, declarations, roles and implementations are written as JSON
values and read back. Reading accepts more than what is written: the fields in
another order or as an array, further members, and a kind as the only member of an
object with the value null.
-/

namespace RoleWiring

open Json

/-- Reads a whole text as a value of some type. -/
def readJson (ofJson? : Json → Option α) (text : String) : Except Fault α :=
  match Json.parse? text >>= ofJson? with
  | some v => .ok v
  | none => .error .json

/-- A path as a text value. The paths of configurations and reports are made of texts, so they are
spelled in UTF-8. A path that is not ought to be refused, but is given by the text that is shown for
it. -/
def Path.toJson (p : Path) : Json :=
  .ofString p.display

/-- The path of a text value. -/
def Path.ofJson? (j : Json) : Option Path :=
  j.string?.map Path.ofString

namespace Kind

/-- The name of a kind in JSON. -/
def tag : Kind → String
  | concreteClass => "Class"
  | abstractClass => "AbstractClass"
  | interface => "Interface"
  | enum => "Enum"
  | annotationType => "Annotation"

/-- The kind of this name in JSON. -/
def ofTag? (s : String) : Option Kind :=
  [concreteClass, abstractClass, interface, enum, annotationType].find? fun k => k.tag == s

theorem ofTag?_tag (k : Kind) : ofTag? k.tag = some k := by
  cases k <;> decide

/-- A kind as a text value. -/
def toJson (k : Kind) : Json :=
  .ofString k.tag

/-- The kind of a text value, or of an object whose only member has its name and null. -/
def ofJson? : Json → Option Kind
  | .text u => u.toString? >>= ofTag?
  | .object [(u, .null)] => u.toString? >>= ofTag?
  | _ => none

end Kind

namespace Artifact

/-- A class as an object. -/
def toJson (c : Artifact) : Json :=
  .ofMembers [("fqn", .ofString c.name), ("path", c.path.toJson)]

/-- The class of an object or array. -/
def ofJson? (j : Json) : Option Artifact := do
  match ← fields? ["fqn", "path"] 2 j with
  | [some name, some path] => return { name := ← name.string?, path := ← Path.ofJson? path }
  | _ => none

end Artifact

namespace Declaration

/-- A declaration as an object. -/
def toJson (d : Declaration) : Json :=
  .ofMembers [
    ("fqn", .ofString d.name),
    ("kind", d.kind.toJson),
    ("super_class", match d.superClass with
      | none => .null
      | some s => .ofString s),
    ("interfaces", .array (d.interfaces.map .ofString))]

/-- The name of a superclass, where null stands for none. -/
def superClassOfJson? : Json → Option (Option String)
  | .null => some none
  | j => j.string?.map some

/-- The declaration of an object or array. In an object the superclass may be missing. -/
def ofJson? (j : Json) : Option Declaration := do
  match ← fields? ["fqn", "kind", "super_class", "interfaces"] 4 j with
  | [some name, some kind, superClass, some interfaces] =>
    return {
      name := ← name.string?
      kind := ← Kind.ofJson? kind
      superClass := ← superClassOfJson? (superClass.getD .null)
      interfaces := ← interfaces.strings? }
  | _ => none

end Declaration

namespace Role

/-- A role as an object. -/
def toJson (r : Role) : Json :=
  .ofMembers [("name", .ofString r.name), ("fqn", .ofString r.type)]

/-- The role of an object or array. -/
def ofJson? (j : Json) : Option Role := do
  match ← fields? ["name", "fqn"] 2 j with
  | [some name, some type] => return { name := ← name.string?, type := ← type.string? }
  | _ => none

end Role

namespace Implementation

/-- An implementation as an object, with the fields of its class beside the kind. -/
def toJson (i : Implementation) : Json :=
  .ofMembers [
    ("fqn", .ofString i.artifact.name),
    ("path", i.artifact.path.toJson),
    ("kind", i.kind.toJson)]

/-- The implementation of an object that stands `depth` brackets deep. All members but the
kind are set aside before the class is read from them. -/
def ofJsonAt? (depth : Nat) : Json → Option Implementation
  | .object members => do
    let members ← namedMembers? members
    let others := members.filter fun m => m.1 != "kind"
    if others.all fun m => canSetAside (maxDepth - depth) m.2 then
      let kind ← (← uniqueMember? members "kind")
      let name ← (← uniqueMember? others "fqn")
      let path ← (← uniqueMember? others "path")
      return {
        artifact := { name := ← name.string?, path := ← Path.ofJson? path }
        kind := ← Kind.ofJson? kind }
    else none
  | _ => none

/-- The implementation of an object that is a whole text. -/
def ofJson? (j : Json) : Option Implementation :=
  ofJsonAt? 1 j

end Implementation

namespace Implementations

/-- A set of implementations as an array. -/
def toJson (s : Implementations) : Json :=
  .array (s.members.map Implementation.toJson)

/-- The set of an array of implementations. -/
def ofJson? : Json → Option Implementations
  | .array items => (items.mapM (Implementation.ofJsonAt? 2)).map Implementations.mk
  | _ => none

end Implementations

namespace Roster

/-- A roster as an object, with its names in order. -/
def toJson (value : α → Json) (r : Roster α) : Json :=
  .ofMembers (r.entries.map fun entry => (entry.1, value entry.2))

/-- The roster of texts that an object gives. A name that stands twice keeps its first place
and its last value. -/
def ofJson? : Json → Option (Roster String)
  | .object members => do
    let entries ← members.mapM fun m => do return (← m.1.toString?, ← m.2.string?)
    return Roster.ofList entries
  | _ => none

end Roster

end RoleWiring
