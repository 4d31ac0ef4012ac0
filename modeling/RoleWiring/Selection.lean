import RoleWiring.Assignment
import RoleWiring.Implementation

/-!
# Choosing one implementation per role

A role is filled by the member that was last selected for it. Without a selection
it is filled by its only member, where members that cannot be instantiated do not
count. Everything else is refused: selections for unknown roles, selected types
that are no members or have no instances, roles with no or several members.
-/

namespace RoleWiring

/-- The type that the last selection for a role names. -/
def lastSelected? (selections : List Role) (role : String) : Option String :=
  (selections.reverse.find? fun s => s.name == role).map Role.type

/-- The member that fills a role, given the type that is selected for it. -/
def chooseMember (role : String) (set : Implementations) :
    Option String → Except Complaint String
  | some type =>
    if set.instantiable.has type then .ok type
    else
      match set.find? type with
      | some member => .error (.notInstantiable type member.kind set.instantiable.names)
      | none => .error (.notMember type role set.instantiable.names)
  | none =>
    match set.instantiable.names with
    | [type] => .ok type
    | [] => .error (.noCandidate role)
    | types => .error (.ambiguous role types)

/-- The type that fills the role of an entry of a report. -/
def chooseEntry (selections : List Role) (entry : String × Implementations) :
    Except Fault (String × String) :=
  match chooseMember entry.1 entry.2 (lastSelected? selections entry.1) with
  | .ok type => .ok (entry.1, type)
  | .error complaint => .error (.config complaint)

/-- The type that fills every role, in the order of the report. -/
def Report.choose (report : Report) (selections : List Role) :
    Except Fault (Roster String) :=
  match selections.find? fun s => (report.implementations.get? s.name).isNone with
  | some s => .error (.config (.unknownRole s.name))
  | none => do
    let chosen ← report.implementations.entries.mapM (chooseEntry selections)
    return Roster.ofList chosen

end RoleWiring
