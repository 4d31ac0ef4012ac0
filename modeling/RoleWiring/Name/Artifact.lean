import RoleWiring.Name.Identifier
import RoleWiring.Name.Qualified
import RoleWiring.Path

/-!
# Artifacts

Where the artifact of a type lies below a root: `com.example.Foo` is defined by
`com/example/Foo.class`. `artifactPath?` goes from the name to the path and
`artifactName?` back; each refuses what the other never produces.
-/

namespace RoleWiring

/-- The extension of artifacts. -/
def classExtension : Bytes :=
  utf8Bytes "class"

/-- The path, below any root, of the artifact that defines the type. Names that are not
dotted identifiers have none, so the path never leaves the root. -/
def artifactPath? (name : String) : Option Path :=
  let segments := nameSegments name
  if segments.all isIdentifierChars then
    some ⟨[slash].intercalate (segments.map fun s => utf8Bytes (String.ofList s))
      ++ dot :: classExtension⟩
  else none

/-- The stem of a file name with the extension of artifacts. -/
def artifactStem? (fileName : Bytes) : Option Bytes :=
  match splitExtension? fileName with
  | some (stem, extension) => if extension = classExtension then some stem else none
  | none => none

/-- The identifier that a directory name or stem spells. -/
def identifier? (spelling : Bytes) : Option (List Char) :=
  match utf8Text? spelling with
  | some s => if isIdentifier s then some s.toList else none
  | none => none

/-- The name of the type defined by the artifact with these names below a root: directories
first, the file last. -/
def nameBelow? (names : List Bytes) : Option String :=
  match names.getLast? with
  | none => none
  | some file => do
    let stem ← artifactStem? file
    let segments ← (names.dropLast ++ [stem]).mapM identifier?
    some (qualifiedName segments)

/-- The components of `path` below `root`, if it lies there. -/
def componentsBelow? : List Component → List Component → Option (List Component)
  | [], path => some path
  | _ :: _, [] => none
  | r :: root, c :: path => if r = c then componentsBelow? root path else none

/-- The name of the type that `path` defines as an artifact below `root`. -/
def artifactName? (root path : Path) : Option String := do
  let below ← componentsBelow? root.components path.components
  let names ← below.mapM Component.name?
  nameBelow? names

end RoleWiring
