import RoleWiring.Path

/-!
# The log directory

Where logs are kept: the directory that the environment names, or else a fixed one
below the home directory.
-/

namespace RoleWiring

/-- A path from the environment, where an empty one counts as none. -/
def nonEmpty (p : Option Path) : Option Path :=
  p.filter fun p => p.bytes ≠ []

/-- The directory for logs: `override`, or else one below `home`. Without a home directory the
current one stands in. -/
def logDirectory (override home : Option Path) : Path :=
  match nonEmpty override with
  | some p => p
  | none =>
    (((nonEmpty home).getD (.ofString ".")).join (.ofString ".svcwire")).join (.ofString "logs")

end RoleWiring
