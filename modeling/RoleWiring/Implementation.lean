import RoleWiring.Declaration
import RoleWiring.Fault
import RoleWiring.Name.Qualified
import RoleWiring.Roster

/-!
# Implementations

The classes found on a class path, the ones among them that implement a role, and
the report of a whole run.
-/

namespace RoleWiring

/-- A class with the artifact that defines it. -/
structure Artifact where
  /-- the qualified name -/
  name : String
  /-- the path of the artifact, spelled from its root -/
  path : Path
deriving DecidableEq, Repr

/-- The name of a class without its packages. -/
def Artifact.shortName (c : Artifact) : String :=
  RoleWiring.shortName c.name

/-- A class that implements a role, with its kind. -/
structure Implementation where
  /-- the class -/
  artifact : Artifact
  /-- the kind of the class -/
  kind : Kind
deriving DecidableEq, Repr

/-- The qualified name of an implementation. -/
def Implementation.name (i : Implementation) : String :=
  i.artifact.name

/-- The implementations of one role in the order in which they were found. -/
structure Implementations where
  /-- the implementations -/
  members : List Implementation
deriving DecidableEq, Repr, Inhabited

namespace Implementations

/-- The first member of this name. -/
def find? (s : Implementations) (name : String) : Option Implementation :=
  s.members.find? fun m => m.name == name

/-- Some member has this name. -/
def has (s : Implementations) (name : String) : Bool :=
  (s.find? name).isSome

/-- The names of the members. -/
def names (s : Implementations) : List String :=
  s.members.map Implementation.name

/-- The members that the test keeps. -/
def keep (s : Implementations) (keep : Implementation → Bool) : Implementations :=
  ⟨s.members.filter keep⟩

/-- The members that can be instantiated. -/
def instantiable (s : Implementations) : Implementations :=
  s.keep fun m => m.kind.hasInstances

end Implementations

/-- The outcome of a run: the implementations of every role, in the order of the roles, and
what went wrong on the way. -/
structure Report where
  /-- the implementations by role -/
  implementations : Roster Implementations
  /-- the faults that did not end the run -/
  warnings : List Fault

/-- The report of a run that found no role. -/
def Report.empty : Report :=
  ⟨Roster.empty, []⟩

/-- The report with the members that can be instantiated. -/
def Report.instantiable (r : Report) : Report :=
  { r with implementations := r.implementations.mapValues fun _ set => set.instantiable }

end RoleWiring
