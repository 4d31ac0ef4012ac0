import RoleWiring.Assignment
import RoleWiring.Implementation
import RoleWiring.Ascent

/-!
# Indexing classes by role

Every candidate class is entered under the roles whose type it is or has above
itself. All roles are in the report, also those without members, and candidates
keep their order.

* A role whose type is not on the class path stays empty and is warned about.
* A role whose type is malformed can still be reached by name. The type is warned
  about here unless it is a candidate itself.
* A candidate without a usable declaration is in no set and is warned about.
-/

namespace RoleWiring

/-- Takes the items in turn, each with the session that the one before it left. -/
def inTurn (step : α → Session → β × Session) : List α → Session → List β × Session
  | [], s => ([], s)
  | item :: items, s =>
    let (result, s) := step item s
    let (results, s) := inTurn step items s
    (result :: results, s)

/-- Whether a role can have members, and what is wrong with its type. -/
structure Activation where
  /-- the role can have members -/
  enabled : Bool
  /-- the fault to warn about -/
  warning : Option Fault
deriving DecidableEq, Repr

/-- What checking one candidate gave. -/
inductive Outcome where
  /-- the kind of the candidate, and for every role whether the candidate belongs to it -/
  | placed (kind : Kind) (memberOf : List Bool)
  /-- the candidate has no usable declaration -/
  | leftOut (fault : Fault)
deriving DecidableEq, Repr

namespace Outcome

/-- The kind of a candidate that belongs to the role with this number. -/
def kindIn? (role : Nat) : Outcome → Option Kind
  | placed kind memberOf => if memberOf[role]? = some true then some kind else none
  | leftOut _ => none

/-- The fault of a candidate without a usable declaration. -/
def fault? : Outcome → Option Fault
  | placed _ _ => none
  | leftOut fault => some fault

end Outcome

namespace RoleIndex

/-- Looks at the type of a role, where classes of the names `scanned` are candidates. -/
def activate (src : Source) (scanned : List String) (role : Role) (s : Session) :
    Activation × Session :=
  match s.lookUp src role.type with
  | (.ok _, s) => (⟨true, none⟩, s)
  | (.error (.typeMissing _), s) =>
    (⟨false, some (.roleTypeMissing role.name role.type)⟩, s)
  | (.error fault, s) => (⟨true, if role.type ∈ scanned then none else some fault⟩, s)

/-- Looks at whether a class belongs to a role, which needs to be enabled. -/
def belongs (src : Source) (name : String) (role : Role × Bool) (s : Session) :
    Bool × Session :=
  if role.2 then isSubtype src name role.1.type s else (false, s)

/-- Checks a candidate against all roles. -/
def examine (src : Source) (roles : List (Role × Bool)) (candidate : Artifact) (s : Session) :
    Outcome × Session :=
  match s.lookUp src candidate.name with
  | (.error fault, s) => (.leftOut fault, s)
  | (.ok d, s) =>
    let (memberOf, s) := inTurn (belongs src candidate.name) roles s
    (.placed d.kind memberOf, s)

/-- The members of the role with this number among the checked candidates. -/
def members (role : Nat) (checked : List (Artifact × Outcome)) : List Implementation :=
  checked.filterMap fun c => (c.2.kindIn? role).map fun kind => ⟨c.1, kind⟩

/-- The report that the activations of the roles and the outcomes of the candidates give. -/
def report (roles : List Role) (activations : List Activation)
    (checked : List (Artifact × Outcome)) : Report where
  implementations :=
    Roster.ofList (roles.zipIdx.map fun role => (role.1.name, ⟨members role.2 checked⟩))
  warnings :=
    activations.filterMap Activation.warning ++ checked.filterMap fun c => c.2.fault?

end RoleIndex

/-- Enters the candidates under the roles that they implement. -/
def indexRoles (src : Source) (roles : List Role) (candidates : List Artifact) (s : Session) :
    Report × Session :=
  let (activations, s) := inTurn (RoleIndex.activate src (candidates.map Artifact.name)) roles s
  let enabled := roles.zip (activations.map Activation.enabled)
  let (outcomes, s) := inTurn (RoleIndex.examine src enabled) candidates s
  (RoleIndex.report roles activations (candidates.zip outcomes), s)

end RoleWiring
