import RoleWiring.ClassPath
import RoleWiring.Configuration
import RoleWiring.RoleIndex

/-!
# Search

A run over a class path: scan it, then enter what was found under the roles. Only
valid configurations are run, and nothing that is on the class path can end a run;
what is wrong there is reported as a warning, the faults of the roots first.
-/

namespace RoleWiring

/-- A configuration that can be run. -/
structure Search where
  /-- the configuration -/
  config : Configuration
  /-- the configuration is valid -/
  valid : config.accept = .ok ()

namespace Search

/-- Refuses a configuration that is not valid. -/
def ofConfig (config : Configuration) : Except Fault Search :=
  match h : config.accept with
  | .ok () => .ok ⟨config, h⟩
  | .error fault => .error fault

/-- The class path of the configuration in a file tree. -/
def classPath (search : Search) (t : FileTree) : ClassPath :=
  ⟨t, search.config.classPath⟩

/-- The report of a run within a session, which other runs may share. -/
def runWithin (search : Search) (t : FileTree) (s : Session) : Report × Session :=
  let (candidates, warnings) := (search.classPath t).classes
  let (report, s) := indexRoles (search.classPath t).asSource search.config.roleList candidates s
  ({ report with warnings := warnings ++ report.warnings }, s)

/-- The report of a run of its own. -/
def run (search : Search) (t : FileTree) : Report :=
  (search.runWithin t .empty).1

end Search

end RoleWiring
