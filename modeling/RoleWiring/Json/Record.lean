import RoleWiring.Json.Magnitude

/-!
# Records in JSON

A value with named fields is read from an object or from an array.

* In an object the fields may stand in any order, each at most once. Members with
  other names are passed over, whatever they hold; only their names have to be
  strings.
* In an array the fields stand in their fixed order, and only the last ones may be
  missing.
-/

namespace RoleWiring.Json

/-- The members of an object with their names as strings. -/
def namedMembers? (members : List (Units × Json)) : Option (List (String × Json)) :=
  members.mapM fun m => m.1.toString?.map fun name => (name, m.2)

/-- The member of this name, if there is exactly one; a second one makes the object unreadable. -/
def uniqueMember? (members : List (String × Json)) (name : String) : Option (Option Json) :=
  match members.filter fun m => m.1 == name with
  | [] => some none
  | [m] => some (some m.2)
  | _ => none

/-- The fields of a record by name, missing ones as `none`. An array must hold at least the
first `required` of them. -/
def fields? (names : List String) (required : Nat) : Json → Option (List (Option Json))
  | .object members => do
    let members ← namedMembers? members
    names.mapM (uniqueMember? members)
  | .array items =>
    if required ≤ items.length ∧ items.length ≤ names.length then
      some (items.map some ++ List.replicate (names.length - items.length) none)
    else none
  | _ => none

/-! ## Values that are set aside

Where fields of two records stand mixed in one object, members that do not belong to the
first one are set aside as whole values before the second one looks at them. A value can be
set aside if all its texts are strings, its numbers are finite and its brackets are not
nested too deeply. -/

/-- How deeply brackets may be nested where values are set aside. -/
def maxDepth : Nat := 127

mutual

/-- The value can be set aside where `room` more brackets may be nested. -/
def canSetAside (room : Nat) : Json → Bool
  | .null => true
  | .bool _ => true
  | .number n => Decimal.isFinite n
  | .text u => u.toString?.isSome
  | .array items => 0 < room && canSetAsideItems (room - 1) items
  | .object members => 0 < room && canSetAsideMembers (room - 1) members

/-- All items can be set aside. -/
def canSetAsideItems (room : Nat) : List Json → Bool
  | [] => true
  | item :: items => canSetAside room item && canSetAsideItems room items

/-- All members can be set aside, their names included. -/
def canSetAsideMembers (room : Nat) : List (Units × Json) → Bool
  | [] => true
  | (name, value) :: members =>
    name.toString?.isSome && canSetAside room value && canSetAsideMembers room members

end

end RoleWiring.Json
