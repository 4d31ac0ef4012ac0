import RoleWiring.FileTree.Change
import RoleWiring.Json.Domain

/-!
# Configurations

Which class path to search, which roles to fill and where to write the result. A
configuration is kept in a JSON file; a command line may override parts of it. It
is *valid* when it has a root and no role with a blank name or type.
-/

namespace RoleWiring

/-- What to search for, where, and where to write it. -/
structure Configuration where
  /-- the roots of the class path, in the order of the search -/
  classPath : List Path
  /-- the type of every role, in the order of presentation -/
  roles : Roster String
  /-- where the chosen services are written -/
  output : Path
deriving DecidableEq

namespace Configuration

/-- The usual name of a configuration file. -/
def presetFile : Path :=
  .ofString "svcwire.json"

/-- Where services are written if nothing else is said. -/
def presetOutput : Path :=
  .ofString "services.json"

/-- The configuration of those who have none. -/
def preset : Configuration where
  classPath := [.ofString "target/classes"]
  roles := .ofList [
    ("Parser", "com.framed.communicator.driver.parser.Parser"),
    ("Writer", "com.framed.communicator.io.Writer"),
    ("Protocol", "com.framed.communicator.driver.protocol.Protocol"),
    ("Dispatcher", "com.framed.streamer.dispatcher.Dispatcher")]
  output := presetOutput

instance : Inhabited Configuration := ⟨preset⟩

/-! ## Overriding -/

/-- Searches these roots instead, if there are any. -/
def replaceRoots (roots : List Path) (c : Configuration) : Configuration :=
  if roots = [] then c else { c with classPath := roots }

/-- Adds roles; one of a known name replaces the type in place. -/
def addRoles (roles : List Role) (c : Configuration) : Configuration :=
  { c with roles := c.roles.insertAll (roles.map fun r => (r.name, r.type)) }

/-- Writes there instead, if a path is given. -/
def replaceOutput (output : Option Path) (c : Configuration) : Configuration :=
  { c with output := output.getD c.output }

/-- The roles in order. -/
def roleList (c : Configuration) : List Role :=
  c.roles.entries.map fun entry => ⟨entry.1, entry.2⟩

/-! ## Validity -/

/-- What is wrong with a role. -/
def roleComplaint? (role : Role) : Option Complaint :=
  if isBlank role.name then some (.blankRoleName role.type)
  else if isBlank role.type then some (.blankRoleType role.name)
  else none

/-- Accepts a configuration with a root and with roles whose names and types are not blank. -/
def accept (c : Configuration) : Except Fault Unit :=
  if c.classPath = [] then .error .noRoots
  else
    match c.roleList.findSome? roleComplaint? with
    | some complaint => .error (.config complaint)
    | none => .ok ()

/-! ## The file -/

/-- A configuration as an object. -/
def toJson (c : Configuration) : Json :=
  .ofMembers [
    ("classpath", .array (c.classPath.map Path.toJson)),
    ("roles", c.roles.toJson .ofString),
    ("output", c.output.toJson)]

/-- The configuration of an object or array. The output may be missing. -/
def ofJson? (j : Json) : Option Configuration := do
  match ← Json.fields? ["classpath", "roles", "output"] 2 j with
  | [some classPath, some roles, output] =>
    return {
      classPath := (← classPath.strings?).map Path.ofString
      roles := ← Roster.ofJson? roles
      output := ← match output with
        | none => some presetOutput
        | some j => Path.ofJson? j }
  | _ => none

/-- Reads a configuration from a file. -/
def read (t : FileTree) (file : Path) : Except Fault Configuration :=
  match t.read file with
  | .error e => .error (.io e)
  | .ok content =>
    match utf8Text? content with
    | none => .error (.io .notText)
    | some text => readJson ofJson? text

/-- Reads a configuration from a file, where a missing file stands for the default one. -/
def readOrPreset (t : FileTree) (file : Path) : Except Fault Configuration :=
  match read t file with
  | .error (.io .notFound) => .ok preset
  | result => result

/-- The content of the file of a configuration. -/
def fileContent (c : Configuration) : Bytes :=
  utf8Bytes (c.toJson.pretty ++ "\n")

/-- Writes a configuration to a file. Its paths are taken to be spelled in UTF-8, as they are in
every configuration that is read from a file or given by arguments. -/
def write (c : Configuration) (t : FileTree) (file : Path) : Except Fault FileTree :=
  match t.write file c.fileContent with
  | .error e => .error (.io e)
  | .ok t => .ok t

end Configuration

end RoleWiring
