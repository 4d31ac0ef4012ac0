import RoleWiring.CommandLine.Usage
import RoleWiring.Search
import RoleWiring.Selection
import RoleWiring.Wiring
import RoleWiring.Table

/-!
# Running a command line

What the program does with a command line and a file tree: what it prints, how it
ends, and which tree it leaves. Results go to standard output and warnings to
standard error; a command that fails says why after its warnings.
-/

namespace RoleWiring

/-- What a command line did. -/
structure Response where
  /-- the exit code: 0 for success, 1 for failure, 2 for a command line not understood -/
  code : Nat
  /-- the text on standard output -/
  stdout : String
  /-- the text on standard error -/
  stderr : String
  /-- the files afterwards -/
  tree : FileTree

/-! ## Printing -/

/-- The lines that warn of faults. -/
def warningLines (faults : List Fault) : String :=
  String.join (faults.map fun fault => s!"\x1b[1;33mwarning\x1b[0m: {fault.message}\n")

/-- The line that ends a failed command. -/
def errorLine (fault : Fault) : String :=
  s!"Error: {fault.message}\n"

/-- The table of classes. -/
def classTable (classes : List Artifact) : Table 2 where
  header := #v["Class", "Location"]
  rows := classes.map fun c => #v[c.name, c.path.display]

/-- The name of the file of an artifact. -/
def artifactFileName (p : Path) : String :=
  ((p.fileName? >>= utf8Text?).getD "-")

/-- The rows of a role: one for every member, or one that says that there is none. -/
def roleRows (role : String) (set : Implementations) : List (Vector String 4) :=
  if set.members = [] then [#v[role, "-", "(none)", "-"]]
  else
    set.members.map fun m =>
      #v[role, m.kind.display, m.name, artifactFileName m.artifact.path]

/-- The table of implementations. -/
def implementationTable (report : Report) : Table 4 where
  header := #v["Role", "Kind", "Implementation", "Location"]
  rows := report.implementations.entries.flatMap fun entry => roleRows entry.1 entry.2

/-- The implementations as JSON. -/
def implementationsJson (report : Report) : Json :=
  report.implementations.toJson Implementations.toJson

namespace Response

/-- A command that succeeded, with warnings. -/
def success (t : FileTree) (stdout : String) (warnings : List Fault) : Response :=
  ⟨0, stdout, warningLines warnings, t⟩

/-- A command that failed, with warnings. -/
def failure (t : FileTree) (fault : Fault) (warnings : List Fault) : Response :=
  ⟨1, "", warningLines warnings ++ errorLine fault, t⟩

end Response

/-! ## Commands -/

/-- The configuration from a file, or the default one, with the overrides. It has to be valid
after them. -/
def SourceOptions.configuration (o : SourceOptions) (t : FileTree) :
    Except Fault Configuration := do
  let config ← Configuration.readOrPreset t o.config
  let config := (config.replaceRoots o.classPath).addRoles o.roles
  config.accept
  return config

/-- The tree with the default configuration at `output`. -/
def writePreset (t : FileTree) (output : Path) (force : Bool) : Except Fault FileTree :=
  if t.pathExists output && !force then .error (.config (.alreadyExists output))
  else Configuration.preset.write t output

/-- Writes the default configuration. -/
def runInit (t : FileTree) (output : Path) (force : Bool) : Response :=
  match writePreset t output force with
  | .ok t' => .success t' "" []
  | .error fault => .failure t fault []

/-- Shows all classes. -/
def runScan (t : FileTree) (source : SourceOptions) : Response :=
  match source.configuration t >>= Search.ofConfig with
  | .error fault => .failure t fault []
  | .ok search =>
    let (classes, warnings) := (search.classPath t).classes
    let text :=
      if classes = [] then "No classes found.\n"
      else s!"{(classTable classes).text}\n{classes.length} classes\n"
    .success t text warnings

/-- Shows the implementations of all roles. -/
def runList (t : FileTree) (source : SourceOptions) (concreteOnly json : Bool) : Response :=
  match source.configuration t >>= Search.ofConfig with
  | .error fault => .failure t fault []
  | .ok search =>
    let report := search.run t
    let report := if concreteOnly then report.instantiable else report
    let text :=
      if json then (implementationsJson report).pretty else (implementationTable report).text
    .success t (text ++ "\n") report.warnings

/-- Chooses an implementation for every role and writes the service file. -/
def runEmit (t : FileTree) (source : SourceOptions) (selections : List Role)
    (output : Option Path) : Response :=
  match source.configuration t >>= fun config => Search.ofConfig (config.replaceOutput output) with
  | .error fault => .failure t fault []
  | .ok search =>
    let report := search.run t
    match report.choose selections with
    | .error fault => .failure t fault report.warnings
    | .ok chosen =>
      match (Wiring.ofChosen chosen).write t search.config.output with
      | (t', none) => .success t' "" report.warnings
      | (t', some fault) => .failure t' fault report.warnings

/-- Carries out a command. -/
def Command.run (t : FileTree) : Command → Response
  | .init output force => runInit t output force
  | .scan source => runScan t source
  | .list source concreteOnly json => runList t source concreteOnly json
  | .emit source selections output => runEmit t source selections output

/-- Does what the arguments of the program ask for. -/
def runArguments (t : FileTree) (arguments : List String) : Response :=
  match Request.ofArguments arguments with
  | .error e => ⟨2, "", s!"error: {e.message}\n\n{helpText none}", t⟩
  | .ok .version => ⟨0, s!"{programName} {programVersion}\n", "", t⟩
  | .ok (.help name) => ⟨0, helpText name, "", t⟩
  | .ok (.run command) => command.run t

end RoleWiring
