import RoleWiring.ClassFile.Refusal
import RoleWiring.Declaration
import RoleWiring.FileTree.OsError
import RoleWiring.Path

/-!
# Faults

Everything that can go wrong, by cause. Most faults concern one root, one role or
one type and are reported as warnings beside a result; the *fatal* ones end the
run. The wording of all of them is in this module.
-/

namespace RoleWiring

/-- What is wrong with a configuration, a command line or a selection. -/
inductive Complaint where
  /-- a text that is no `KEY=VALUE` -/
  | notAssignment (text : String)
  /-- a role of this type has a blank name -/
  | blankRoleName (type : String)
  /-- the role of this name has a blank type -/
  | blankRoleType (role : String)
  /-- a selection for a role that does not exist -/
  | unknownRole (role : String)
  /-- the selected member of a role is of a kind that has no instances -/
  | notInstantiable (type : String) (kind : Kind) (candidates : List String)
  /-- the selected type is no member of the role -/
  | notMember (type role : String) (candidates : List String)
  /-- no member of the role can be instantiated -/
  | noCandidate (role : String)
  /-- several members of the role can be instantiated and none is selected -/
  | ambiguous (role : String) (candidates : List String)
  /-- the file to be written is there already -/
  | alreadyExists (path : Path)
  /-- any other complaint, in words -/
  | other (text : String)
deriving DecidableEq, Repr

/-- Why an artifact that was found does not declare its type. -/
inductive Malformation where
  /-- the artifact cannot be read -/
  | unreadable (cause : OsError)
  /-- the artifact is no class file that can be used -/
  | refused (cause : Refusal)
  /-- the artifact declares a type of another name -/
  | declares (name : String)
  /-- any other reason, in words -/
  | other (text : String)
deriving DecidableEq, Repr

/-- Why a root that exists cannot be walked. -/
inductive Obstacle where
  /-- the operating system refuses it -/
  | system (cause : OsError)
  /-- it is something other than a directory -/
  | notDirectory
  /-- any other reason, in words -/
  | other (text : String)
deriving DecidableEq, Repr

/-- Something that went wrong. -/
inductive Fault where
  /-- a root of the class path does not exist -/
  | rootMissing (root : Path)
  /-- a root of the class path cannot be walked -/
  | rootUnusable (root : Path) (obstacle : Obstacle)
  /-- the artifact of a type does not declare it -/
  | typeMalformed (name : String) (artifact : Path) (malformation : Malformation)
  /-- no root holds an artifact of the type -/
  | typeMissing (name : String)
  /-- the type that defines a role is not on the class path -/
  | roleTypeMissing (role name : String)
  /-- the configuration names no root -/
  | noRoots
  /-- the configuration or the request is not usable -/
  | config (complaint : Complaint)
  /-- a file operation failed -/
  | io (cause : OsError)
  /-- a text is not the JSON that was expected -/
  | json
deriving DecidableEq, Repr

/-- Candidates as they are listed in a complaint. -/
def commaSeparated (names : List String) : String :=
  ", ".intercalate names

/-- The words for a complaint. -/
def Complaint.message : Complaint → String
  | notAssignment s => s!"expected KEY=VALUE, got '{s}'"
  | blankRoleName type => s!"role for {type} has an empty name"
  | blankRoleType role => s!"role {role} has an empty type name"
  | unknownRole role => s!"--select names unknown role {role}"
  | notInstantiable type kind candidates =>
    s!"{type} ({kind.display}) cannot be instantiated; candidates: {commaSeparated candidates}"
  | notMember type role candidates =>
    s!"{type} is not an implementation of {role}; candidates: {commaSeparated candidates}"
  | noCandidate role => s!"no instantiable implementation found for role {role}"
  | ambiguous role candidates =>
    s!"role {role} has {candidates.length} candidates, choose one with --select {role}=FQN: "
      ++ commaSeparated candidates
  | alreadyExists path => s!"{path.display} already exists, pass --force to overwrite"
  | other text => text

/-- The words for a malformation. -/
def Malformation.message : Malformation → String
  | unreadable cause => s!"cannot read: {cause.message}"
  | refused cause => cause.message
  | declares name => s!"declares {name} instead"
  | other text => text

/-- The words for an obstacle. -/
def Obstacle.message : Obstacle → String
  | system cause => cause.message
  | notDirectory => "not a directory"
  | other text => text

namespace Fault

/-- The words for a fault. -/
def message : Fault → String
  | rootMissing root => s!"classpath root not found: {root.display}"
  | rootUnusable root obstacle =>
    s!"classpath root unreadable: {root.display}: {obstacle.message}"
  | typeMalformed name artifact malformation =>
    s!"malformed type {name} at {artifact.display}: {malformation.message}"
  | typeMissing name => s!"type not found on classpath: {name}"
  | roleTypeMissing role name => s!"role {role} names {name}, which is not on the classpath"
  | noRoots => "no classpath roots configured"
  | config complaint => s!"configuration error: {complaint.message}"
  | io cause => s!"I/O error: {cause.message}"
  | json => "JSON serialization/deserialization error"

/-- The fault ends a run instead of being reported beside its result. -/
def endsRun : Fault → Bool
  | noRoots | config _ | io _ | json => true
  | _ => false

end Fault

end RoleWiring
