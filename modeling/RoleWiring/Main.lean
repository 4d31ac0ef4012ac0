import RoleWiring.CommandLine.Run
import RoleWiring.FileTree.Difference

/-!
# The program

The outermost layer: it takes a picture of the files that a command line may need,
lets the library decide what happens, prints what there is to print and writes what
has changed. Only this module touches the world.
-/

namespace RoleWiring.Main

/-- A place as the operating system spells it. -/
def spell (place : Location) : String :=
  "/" ++ "/".intercalate (place.map displayText)

/-- The place of a path that has no links and no dots in it. -/
def placeOf (path : String) : Location :=
  (Path.ofString path).segments.filter (· ≠ [])

/-- Directories cannot be deeper than this, since paths are shorter than twice as many bytes. -/
def maxDepth : Nat := 2048

/-- The kind of the entry at a place, without following it. -/
def kindAt? (place : Location) : IO (Option IO.FS.FileType) := do
  try
    let directory ← IO.FS.realPath (spell place.dropLast)
    let entry := directory / displayText (place.getLast?.getD [])
    return some (← entry.symlinkMetadata).type
  catch _ => return none

/-- Where the link at a place leads in the end. A link that leads nowhere has the empty path. -/
def linkTarget (place : Location) : IO Path := do
  try
    return .ofString (← IO.FS.realPath (spell place)).toString
  catch _ => return .ofString ""

/-- A picture of what is at a place, and of all that is below it. -/
def picture : Nat → Location → IO (Option Node)
  | 0, _ => return none
  | depth + 1, place => do
    match ← (if place = [] then pure (some .dir) else kindAt? place) with
    | some .file =>
      let content ← IO.FS.readBinFile (spell place)
      return some (.file content.data.toList)
    | some .symlink => return some (.link (← linkTarget place))
    | some .dir =>
      let directory ← IO.FS.realPath (spell place)
      let mut entries := []
      for entry in ← directory.readDir do
        let name := utf8Bytes entry.fileName
        if let some node ← picture depth (place ++ [name]) then
          entries := (name, node) :: entries
      return some (.dir entries)
    | _ => return none

/-- The targets of the links in a picture. -/
def linkTargets : Node → List Path
  | .file _ => []
  | .link target => [target]
  | .dir es =>
    (Node.dir es).names.flatMap fun name =>
      match _h : (Node.dir es).child? name with
      | none => []
      | some child => linkTargets child
termination_by node => sizeOf node
decreasing_by exact Node.sizeOf_child? _h

/-- Adds what the steps lead to, with `deep` also all that is below it. Gives the targets of the
links that were met. -/
def addSteps (deep : Bool) : FileTree → Location → List Step → IO (FileTree × List Path)
  | t, place, [] => do
    if deep then
      match ← picture maxDepth place with
      | some node => return (t.put place node, linkTargets node)
      | none => return (t, [])
    else return (if (t.top.at? place).isNone then t.put place (.dir []) else t, [])
  | t, place, .enter name :: rest => do
    let next := place ++ [name]
    match ← kindAt? next with
    | some .dir => addSteps deep t next rest
    | some .symlink =>
      let target ← linkTarget next
      let (t, targets) ← addSteps deep (t.put next (.link target)) (placeOf target.display) rest
      return (t, target :: targets)
    | some .file =>
      match ← picture 1 next with
      | some node => return (t.put next node, [])
      | none => return (t, [])
    | _ => return (if (t.top.at? place).isNone then t.put place (.dir []) else t, [])
  | t, place, .up :: rest => addSteps deep t place.dropLast rest
  | t, place, _ :: rest => addSteps deep t place rest

/-- Adds what the paths lead to, and what the links met on the way lead to. -/
def add (deep : Bool) (t : FileTree) (paths : List Path) : IO FileTree := do
  let mut t := t
  let mut paths := paths
  let mut done : List Path := []
  for _ in [0 : maxLinks + 1] do
    let mut met := []
    for p in paths do
      if p ∉ done then
        let (t', targets) ← addSteps deep t (p.start t.workingDir) p.steps
        t := t'
        done := p :: done
        met := met ++ targets
    paths := met
  return t

/-- The paths that a command looks at or writes to, and those below which it looks for classes. -/
def pathsOf (t : FileTree) : Command → List Path × List Path
  | .init output _ => ([output], [])
  | .scan source | .list source _ _ => ([source.config], rootsOf t source)
  | .emit source _ output =>
    ([source.config] ++ (output.toList ++ configured t source Configuration.output),
      rootsOf t source)
where
  configured {α : Type} (t : FileTree) (source : SourceOptions) (f : Configuration → α) : List α :=
    match source.configuration t with
    | .ok config => [f config]
    | .error _ => []
  rootsOf (t : FileTree) (source : SourceOptions) : List Path :=
    (configured t source Configuration.classPath).flatten

/-- A picture of the files that the arguments make the program look at. -/
def files (arguments : List String) : IO FileTree := do
  let here := placeOf (← IO.currentDir).toString
  let t : FileTree := ⟨.dir [], here⟩
  let t := t.put here (.dir [])
  match Request.ofArguments arguments with
  | .ok (.run command) =>
    let t ← add false t (pathsOf t command).1
    let (looked, roots) := pathsOf t command
    add false (← add true t roots) looked
  | _ => return t

/-- Writes what has changed. -/
def write (old new : FileTree) : IO Unit := do
  for (place, node) in Node.growth (some old.top) [] new.top do
    match node with
    | .file content => IO.FS.writeBinFile (spell place) ⟨content.toArray⟩
    | .dir _ => IO.FS.createDirAll (spell place)
    | .link _ => pure ()

end RoleWiring.Main

open RoleWiring in
/-- Carries out the command line. -/
def main (arguments : List String) : IO UInt32 := do
  let old ← Main.files arguments
  let response := runArguments old arguments
  IO.eprint response.stderr
  Main.write old response.tree
  IO.print response.stdout
  return response.code.toUInt32
