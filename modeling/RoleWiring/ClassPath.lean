import RoleWiring.ClassFile.Declared
import RoleWiring.Scan
import RoleWiring.Session

/-!
# Class paths

The roots of a class path in a file tree, as a place where types are found. The
artifact of a type is looked for below one root after the other; the first file
counts, whether or not it can be used. An artifact that declares a type of another
name is malformed, so only finitely many types can be found in a tree.
-/

namespace RoleWiring

/-- The content of every file in a tree. -/
def Node.contents : Node → List Bytes
  | .file content => [content]
  | .link _ => []
  | .dir es =>
    (Node.dir es).names.flatMap fun name =>
      match _h : (Node.dir es).child? name with
      | none => []
      | some child => child.contents
termination_by node => sizeOf node
decreasing_by exact Node.sizeOf_child? _h

/-- A file that is somewhere in a tree is among its contents. -/
theorem Node.mem_contents {node : Node} {place : Location} {content : Bytes}
    (h : node.at? place = some (.file content)) : content ∈ node.contents := by
  induction place generalizing node with
  | nil =>
    cases h
    simp [contents]
  | cons name rest ih =>
    rw [at?] at h
    split at h
    · next child hchild =>
      cases node with
      | dir es =>
        rw [contents, List.mem_flatMap]
        refine ⟨name, mem_names.mpr (by rw [hchild]; rfl), ?_⟩
        split
        · next hnone => rw [hchild] at hnone; cases hnone
        · next child' hchild' =>
          rw [hchild] at hchild'
          cases hchild'
          exact ih h
      | _ => simp [child?, entries] at hchild
    · cases h

/-- What is read from a tree is among its contents. -/
theorem FileTree.mem_contents_of_read {t : FileTree} {p : Path} {content : Bytes}
    (h : t.read p = .ok content) : content ∈ t.top.contents := by
  unfold read at h
  split at h
  · cases h
  · next c hstatus =>
    cases h
    unfold status at hstatus
    split at hstatus
    · cases hstatus
    · next position _ =>
      split at hstatus
      · next node hat =>
        cases hstatus
        exact Node.mem_contents hat
      · cases hstatus
  · cases h

/-- A class path in a file tree. -/
structure ClassPath where
  /-- the files -/
  tree : FileTree
  /-- the directories that hold classes, in the order of the search -/
  roots : List Path

namespace ClassPath

/-- The artifact of the type of this name, below the first root that has one. -/
def find? (cp : ClassPath) (name : String) : Option Path := do
  let below ← artifactPath? name
  (cp.roots.map (·.join below)).find? cp.tree.isFile

/-- The declaration of the type of this name, read from its artifact. -/
def lookUp (cp : ClassPath) (name : String) : Except Fault Declaration :=
  match cp.find? name with
  | none => .error (.typeMissing name)
  | some artifact =>
    match cp.tree.read artifact with
    | .error e => .error (.typeMalformed name artifact (.unreadable e))
    | .ok content =>
      match Declaration.ofBytes content with
      | .error refusal => .error (.typeMalformed name artifact (.refused refusal))
      | .ok d =>
        if d.name = name then .ok d
        else .error (.typeMalformed name artifact (.declares d.name))

/-- A type that is found was read from its artifact. -/
theorem exists_read_of_lookUp {cp : ClassPath} {name : String} {d : Declaration}
    (h : cp.lookUp name = .ok d) :
    ∃ artifact content, cp.find? name = some artifact ∧ cp.tree.read artifact = .ok content ∧
      Declaration.ofBytes content = .ok d ∧ d.name = name := by
  unfold lookUp at h
  split at h
  · cases h
  · next artifact hfind =>
    split at h
    · cases h
    · next content hread =>
      split at h
      · cases h
      · next d' hparse =>
        split at h
        · next hname =>
          cases h
          exact ⟨artifact, content, hfind, hread, hparse, hname⟩
        · cases h

/-- What is found was declared by some content of the tree. -/
theorem exists_content_of_lookUp {cp : ClassPath} {name : String} {d : Declaration}
    (h : cp.lookUp name = .ok d) :
    d.name = name ∧ ∃ content ∈ cp.tree.top.contents, Declaration.ofBytes content = .ok d := by
  obtain ⟨artifact, content, -, hread, hparse, hname⟩ := exists_read_of_lookUp h
  exact ⟨hname, content, FileTree.mem_contents_of_read hread, hparse⟩

/-- The class path as a source of declarations. -/
def asSource (cp : ClassPath) : Source where
  lookUp := cp.lookUp
  finite := by
    refine ⟨cp.tree.top.contents.filterMap fun content =>
      match Declaration.ofBytes content with
      | .ok d => some d.name
      | .error _ => none, fun name d h => ?_⟩
    obtain ⟨hname, content, hmem, hparse⟩ := exists_content_of_lookUp h
    exact List.mem_filterMap.mpr ⟨content, hmem, by rw [hparse, ← hname]⟩

/-- The classes on the class path, with the faults of its roots. -/
def classes (cp : ClassPath) : List Artifact × List Fault :=
  (Scan.start cp.roots).drain cp.tree

/-- The artifact of a type is read when the type is looked up: it is there and has a content. -/
def isRead (cp : ClassPath) (name : String) : Bool :=
  match cp.find? name with
  | none => false
  | some artifact =>
    match cp.tree.read artifact with
    | .ok _ => true
    | .error _ => false

end ClassPath

end RoleWiring
