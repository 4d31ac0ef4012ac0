import RoleWiring.FileTree.Node
import RoleWiring.FileTree.OsError

/-!
# Following paths

What a path leads to in a file tree. A path is a list of *steps*; each is taken in
a directory. A step into a symbolic link goes on with the steps of its target, and
only so many links may be followed for one path, so a path through a cycle of links
ends with an error.

* `walk_append` — a path is followed by following its parts in turn;
* `walk_links_le` — following never gains links.
-/

namespace RoleWiring

/-- One step of a path. -/
inductive Step where
  /-- stay in the directory -/
  | stay
  /-- go to the enclosing directory; the top directory encloses itself -/
  | up
  /-- go to the entry of that name -/
  | enter (name : Bytes)
  /-- the slash at the end of a path: it has led to a directory -/
  | close
deriving DecidableEq, Repr

/-- The step that a segment between slashes asks for. Empty segments ask for none. -/
def Step.ofSegment? (segment : Bytes) : Option Step :=
  if segment = [] then none
  else if segment = [dot] then some .stay
  else if segment = [dot, dot] then some .up
  else some (.enter segment)

/-- The steps of a path. -/
def Path.steps (p : Path) : List Step :=
  p.segments.filterMap Step.ofSegment? ++ if p.bytes.getLast? = some slash then [.close] else []

/-- Where the steps of a path begin, for someone in the directory `here`. -/
def Path.start (p : Path) (here : Location) : Location :=
  if p.isAbsolute then [] else here

/-- A tree of files and the directory in it where relative paths begin. -/
structure FileTree where
  /-- the top directory -/
  top : Node
  /-- where relative paths begin -/
  workingDir : Location

/-- How many symbolic links may be followed for one path. -/
def maxLinks : Nat := 40

/-- Paths have to be shorter than this, in bytes. -/
def maxPathLength : Nat := 4096

/-- Where a walk has come to. -/
structure Position where
  /-- how many more symbolic links may be followed -/
  links : Nat
  /-- the place -/
  place : Location
deriving DecidableEq, Repr

namespace FileTree

/-- The directory at a place. -/
def dirAt (t : FileTree) (place : Location) : Except OsError Node :=
  match t.top.at? place with
  | some (.dir es) => .ok (.dir es)
  | some _ => .error .notDirectory
  | none => .error .notFound

/-- The entry of this name, if there is one, in the directory at a place. -/
def entryAt (t : FileTree) (place : Location) (name : Bytes) : Except OsError (Option Node) :=
  match t.dirAt place with
  | .error e => .error e
  | .ok node =>
    if isEntryName name then .ok (node.child? name)
    else if maxNameLength < name.length then .error .nameTooLong
    else .error .nulInPath

/-- Takes the steps in turn, starting at `place` with `links` links to spend. -/
def walk (t : FileTree) (links : Nat) (place : Location) : List Step → Except OsError Position
  | [] => .ok ⟨links, place⟩
  | .enter name :: rest =>
    match t.entryAt place name with
    | .error e => .error e
    | .ok none => .error .notFound
    | .ok (some (.link target)) =>
      if target.bytes = [] then .error .notFound
      else if 0 < links then t.walk (links - 1) (target.start place) (target.steps ++ rest)
      else .error .tooManyLinks
    | .ok (some _) => t.walk links (place ++ [name]) rest
  | .up :: rest =>
    match t.dirAt place with
    | .error e => .error e
    | .ok _ => t.walk links place.dropLast rest
  | _ :: rest =>
    match t.dirAt place with
    | .error e => .error e
    | .ok _ => t.walk links place rest
termination_by steps => (links, steps.length)

/-- Following never gains links. -/
theorem walk_links_le {t : FileTree} {links : Nat} {place : Location} {steps : List Step}
    {p : Position} (h : t.walk links place steps = .ok p) : p.links ≤ links := by
  fun_induction walk t links place steps with
  | case1 => cases h; exact Nat.le_refl _
  | case5 links place name rest target he hne hl ih => exact Nat.le_trans (ih h) (Nat.sub_le _ _)
  | case7 links place name rest node he hl ih => exact ih h
  | case9 links place rest node hd ih => exact ih h
  | case11 links place step rest h1 h2 node hd ih => exact ih h
  | _ => cases h

/-- A path is followed by following its parts in turn. -/
theorem walk_append (t : FileTree) (links : Nat) (place : Location) (first second : List Step) :
    t.walk links place (first ++ second) =
      t.walk links place first >>= fun p => t.walk p.links p.place second := by
  fun_induction walk t links place first with
  | case1 => rfl
  | case2 links place name rest e he => simp only [List.cons_append, walk, he]; rfl
  | case3 links place name rest he => simp only [List.cons_append, walk, he]; rfl
  | case4 links place name rest target he hnil =>
    simp only [List.cons_append, walk, he, hnil, if_true]; rfl
  | case5 links place name rest target he hne hl ih =>
    simp only [List.cons_append, walk, he, hne, hl, if_false, if_true]
    rw [← List.append_assoc]
    exact ih
  | case6 links place name rest target he hne hl =>
    simp only [List.cons_append, walk, he, hne, hl, if_false]; rfl
  | case7 links place name rest node hlink he ih =>
    cases node with
    | link target => exact absurd rfl (hlink target)
    | _ => simp only [List.cons_append, walk, he]; exact ih
  | case8 links place rest e hd => simp only [List.cons_append, walk, hd]; rfl
  | case9 links place rest node hd ih => simp only [List.cons_append, walk, hd]; exact ih
  | case10 links place step rest h1 h2 e hd =>
    cases step <;> simp_all [walk] <;> rfl
  | case11 links place step rest h1 h2 node hd ih =>
    cases step <;> simp_all [walk]

/-- The path can be followed at all. -/
def checkPath (p : Path) : Except OsError Unit :=
  if 0 ∈ p.bytes then .error .nulInPath
  else if maxPathLength ≤ p.bytes.length then .error .nameTooLong
  else if p.bytes = [] then .error .notFound
  else .ok ()

/-- Where a path leads, with the links that may be followed from there on. -/
def follow (t : FileTree) (p : Path) : Except OsError Position := do
  checkPath p
  t.walk maxLinks (p.start t.workingDir) p.steps

/-- What a path leads to. -/
def status (t : FileTree) (p : Path) : Except OsError Node :=
  match t.follow p with
  | .error e => .error e
  | .ok position =>
    match t.top.at? position.place with
    | some node => .ok node
    | none => .error .notFound

/-- The path leads to a regular file. -/
def isFile (t : FileTree) (p : Path) : Bool :=
  match t.status p with
  | .ok (.file _) => true
  | _ => false

/-- The path leads to a directory. -/
def isDir (t : FileTree) (p : Path) : Bool :=
  match t.status p with
  | .ok (.dir _) => true
  | _ => false

/-- The path leads somewhere. -/
def pathExists (t : FileTree) (p : Path) : Bool :=
  match t.status p with
  | .ok _ => true
  | .error _ => false

/-- The content of the file that a path leads to. -/
def read (t : FileTree) (p : Path) : Except OsError Bytes :=
  match t.status p with
  | .error e => .error e
  | .ok (.file content) => .ok content
  | .ok _ => .error .isDirectory

end FileTree

end RoleWiring
