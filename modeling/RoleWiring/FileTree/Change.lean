import RoleWiring.FileTree.Walk

/-!
# Changing a file tree

Writing files, making directories and links, and removing entries. Each operation
gives the changed tree or the error that leaves the tree as it was; only
`createDirs` may have changed it before it fails.

A file is written where the path leads, through a symbolic link at its end even if
nothing is there yet. Everything else is made under the name that ends the path.
-/

namespace RoleWiring

namespace FileTree

/-- The tree with `node` at a place. -/
def put (t : FileTree) (place : Location) (node : Node) : FileTree :=
  { t with top := Node.put node place t.top }

/-! ## Files -/

/-- The place of the file that is written to when the steps are taken from `place`. It need
not exist, but its directory must. -/
def placeToWrite (t : FileTree) (links : Nat) (place : Location) :
    List Step → Except OsError Location
  | [] => .error .isDirectory
  | [.enter name] =>
    match t.entryAt place name with
    | .error e => .error e
    | .ok none => .ok (place ++ [name])
    | .ok (some (.file _)) => .ok (place ++ [name])
    | .ok (some (.dir _)) => .error .isDirectory
    | .ok (some (.link target)) =>
      if target.bytes = [] then .error .notFound
      else if 0 < links then t.placeToWrite (links - 1) (target.start place) target.steps
      else .error .tooManyLinks
  | [.enter _, .close] =>
    match t.dirAt place with
    | .error e => .error e
    | .ok _ => .error .isDirectory
  | step :: rest =>
    match _h : t.walk links place [step] with
    | .error e => .error e
    | .ok p => t.placeToWrite p.links p.place rest
termination_by steps => (links, steps.length)
decreasing_by
  · exact Prod.Lex.left _ _ (Nat.sub_lt ‹0 < links› Nat.zero_lt_one)
  · rcases Nat.lt_or_eq_of_le (walk_links_le _h) with hlt | heq
    · exact Prod.Lex.left _ _ hlt
    · rw [heq]
      exact Prod.Lex.right _ (Nat.lt_succ_self _)

/-- The tree in which the file that the path leads to has this content. -/
def write (t : FileTree) (p : Path) (content : Bytes) : Except OsError FileTree := do
  checkPath p
  let place ← t.placeToWrite maxLinks (p.start t.workingDir) p.steps
  return t.put place (.file content)

/-! ## Directories and links -/

/-- The tree with a new entry, which must not be there yet, under the name that ends the
path. -/
def create (t : FileTree) (p : Path) (node : Node) : Except OsError FileTree := do
  checkPath p
  let steps := p.steps.filter (· ≠ .close)
  let parent ← t.walk maxLinks (p.start t.workingDir) steps.dropLast
  match steps.getLast? with
  | some (.enter name) =>
    match ← t.entryAt parent.place name with
    | none => return t.put (parent.place ++ [name]) node
    | some _ => throw .alreadyExists
  | _ => do
    let _ ← t.dirAt parent.place
    throw .alreadyExists

/-- The tree with a new directory. -/
def createDir (t : FileTree) (p : Path) : Except OsError FileTree :=
  t.create p (.dir [])

/-- The tree with a new symbolic link. No command makes one, but the trees that commands find have
them. -/
def createLink (t : FileTree) (p target : Path) : Except OsError FileTree :=
  t.create p (.link target)

/-- What becomes of a failure to make a directory: none, if a directory is there. -/
def acceptDir (t : FileTree) (p : Path) (e : OsError) : Option OsError :=
  if t.isDir p then none else some e

/-- Makes the directory and the missing ones above it. The tree is the one that is left, also
after a failure. -/
def createDirs (t : FileTree) (p : Path) : FileTree × Option OsError :=
  if p.bytes = [] then (t, none)
  else
    match t.createDir p with
    | .ok t' => (t', none)
    | .error .notFound =>
      match _h : p.parent? with
      | none => (t, some (.other "failed to create whole tree"))
      | some parent =>
        match t.createDirs parent with
        | (t', some e) => (t', some e)
        | (t', none) =>
          match t'.createDir p with
          | .ok t'' => (t'', none)
          | .error e => (t', t'.acceptDir p e)
    | .error e => (t, t.acceptDir p e)
termination_by p.bytes.length
decreasing_by exact Path.length_parent? _h

/-- Makes the missing directories above a path. The tree is the one that is left, also after a
failure. -/
def createParents (t : FileTree) (p : Path) : FileTree × Option OsError :=
  match p.parent? with
  | none => (t, none)
  | some parent => t.createDirs parent

/-! ## Removal -/

/-- The tree without the entry of the name that ends the path, and without all below it. No command
removes anything, but a file may be gone when a class path is used again. -/
def remove (t : FileTree) (p : Path) : Except OsError FileTree := do
  checkPath p
  let steps := p.steps.filter (· ≠ .close)
  let parent ← t.walk maxLinks (p.start t.workingDir) steps.dropLast
  match steps.getLast? with
  | some (.enter name) =>
    match ← t.entryAt parent.place name with
    | none => throw .notFound
    | some _ => return { t with top := Node.remove (parent.place ++ [name]) t.top }
  | _ => throw .isDirectory

end FileTree

end RoleWiring
