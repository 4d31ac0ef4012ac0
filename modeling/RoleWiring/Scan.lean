import RoleWiring.FileTree.Walk
import RoleWiring.Implementation
import RoleWiring.Name.Artifact

/-!
# Scanning a class path

The classes below the roots of a class path: the roots in the order given, and
below one root the files in the order of their names. Links are followed, so a
scan sees what reading sees; a link that leads nowhere is passed over, and so is
one that leads back to a directory that is being descended. A name that was found
before, below an earlier root, shadows later artifacts of that name.

A scan can be stopped after any class and taken up again: `Scan` is all that it
has to remember.
-/

namespace RoleWiring

/-! ## The files below a directory -/

namespace FileTree

/-- The files below the directory `node`, each as the list of names that leads to it. The
directory is at `place`, reached by `path` with `links` more links to follow, inside of the
directories `above`. Directories too deep for a path to name them are passed over. -/
def filesBelow (t : FileTree) (path : Path) (links : Nat) (place : Location)
    (above : List Location) (node : Node) : List (List Bytes) :=
  node.names.flatMap fun name =>
    match _child : node.child? name with
    | none => []
    | some (.file _) => [[name]]
    | some (.dir es) =>
      if maxPathLength ≤ (path.child name).bytes.length then []
      else
        (t.filesBelow (path.child name) links (place ++ [name]) (place :: above) (.dir es)).map
          (name :: ·)
    | some (.link target) =>
      if maxPathLength ≤ (path.child name).bytes.length ∨ target.bytes = [] then []
      else if 0 < links then
        match _walk : t.walk (links - 1) (target.start place) target.steps with
        | .error _ => []
        | .ok p =>
          match t.top.at? p.place with
          | some (.file _) => [[name]]
          | some (.dir es) =>
            if p.place ∈ place :: above then []
            else
              (t.filesBelow (path.child name) p.links p.place (place :: above) (.dir es)).map
                (name :: ·)
          | _ => []
      else []
termination_by (links, sizeOf node)
decreasing_by
  · exact Prod.Lex.right _ (Node.sizeOf_child? _child)
  · exact Prod.Lex.left _ _
      (Nat.lt_of_le_of_lt (walk_links_le _walk) (Nat.sub_lt ‹0 < links› Nat.zero_lt_one))

end FileTree

/-! ## Roots -/

/-- The artifacts below a root that is a directory, with the names of their types. -/
def artifactsBelow (t : FileTree) (root : Path) (position : Position) : List Artifact :=
  match t.top.at? position.place with
  | none => []
  | some node =>
    (t.filesBelow root position.links position.place [] node).filterMap fun names =>
      (artifactName? root (root.descend names)).map fun name =>
        { name, path := root.descend names }

/-- The position that a root leads to, or the fault that keeps it from being walked. -/
def enterRoot (t : FileTree) (root : Path) : Except Fault Position :=
  match t.follow root with
  | .error .notFound => .error (.rootMissing root)
  | .error e => .error (.rootUnusable root (.system e))
  | .ok position =>
    match t.top.at? position.place with
    | some (.dir _) => .ok position
    | _ => .error (.rootUnusable root .notDirectory)

/-! ## Scans -/

/-- A scan between two classes. -/
structure Scan where
  /-- the roots that were not opened yet -/
  roots : List Path
  /-- the artifacts of the open root that were not looked at yet -/
  ahead : List Artifact
  /-- the names that were found -/
  seen : List String
  /-- the faults of the roots opened so far, in order -/
  warnings : List Fault

namespace Scan

/-- The scan of these roots before its first class. -/
def start (roots : List Path) : Scan :=
  ⟨roots, [], [], []⟩

/-- Goes on to the next class that is not shadowed. -/
def next (t : FileTree) (s : Scan) : Option Artifact × Scan :=
  match _ahead : s.ahead with
  | c :: rest =>
    if c.name ∈ s.seen then next t { s with ahead := rest }
    else (some c, { s with ahead := rest, seen := c.name :: s.seen })
  | [] =>
    match _roots : s.roots with
    | [] => (none, s)
    | root :: rest =>
      match enterRoot t root with
      | .error fault => next t { s with roots := rest, warnings := s.warnings ++ [fault] }
      | .ok position => next t { s with roots := rest, ahead := artifactsBelow t root position }
termination_by (s.roots.length, s.ahead.length)
decreasing_by
  · rw [_ahead]
    exact Prod.Lex.right _ (Nat.lt_succ_self _)
  · rw [_roots]
    exact Prod.Lex.left _ _ (Nat.lt_succ_self _)
  · rw [_roots]
    exact Prod.Lex.left _ _ (Nat.lt_succ_self _)

/-- What is left to do: the roots to open, then the artifacts to look at. -/
def Less (s' s : Scan) : Prop :=
  s'.roots.length < s.roots.length ∨
    s'.roots.length = s.roots.length ∧ s'.ahead.length < s.ahead.length

/-- With every class less is left to do. -/
theorem next_less {t : FileTree} {s s' : Scan} {c : Artifact} (h : s.next t = (some c, s')) :
    Less s' s := by
  fun_induction next t s with
  | case1 s c' rest hahead hseen ih =>
    have := ih h
    simp only [Less, hahead, List.length_cons] at this ⊢
    omega
  | case2 s c' rest hahead hseen =>
    cases h
    exact Or.inr ⟨rfl, by simp [hahead]⟩
  | case3 => cases h
  | case4 s hahead root rest hroots fault hopen ih =>
    have := ih h
    simp only [Less, hroots, List.length_cons] at this ⊢
    omega
  | case5 s hahead root rest hroots position hopen ih =>
    have := ih h
    simp only [Less, hroots, List.length_cons] at this ⊢
    omega

/-- The remaining classes with all warnings. -/
def drain (t : FileTree) (s : Scan) : List Artifact × List Fault :=
  match _h : s.next t with
  | (none, s') => ([], s'.warnings)
  | (some c, s') =>
    let (classes, warnings) := drain t s'
    (c :: classes, warnings)
termination_by (s.roots.length, s.ahead.length)
decreasing_by
  rcases next_less _h with h | ⟨h, h'⟩
  · exact Prod.Lex.left _ _ h
  · rw [h]
    exact Prod.Lex.right _ h'

end Scan

end RoleWiring
