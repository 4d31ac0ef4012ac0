import RoleWiring.Entries
import RoleWiring.Path

/-!
# File trees

A file tree holds files, symbolic links and directories below one top directory.
Entries with names that no directory can hold are not there, and of two entries
with one name only the first is, so every tree is a well-formed one. Places in a
tree are given by the names on the way down; links are not followed here.

* `mem_names` — a directory lists exactly the entries that can be looked up;
* `names_sorted` — it lists them in the order of their bytes, each once.
-/

namespace RoleWiring

/-- An entry of a file tree, with all below it. -/
inductive Node where
  /-- a regular file -/
  | file (content : Bytes)
  /-- a symbolic link -/
  | link (target : Path)
  /-- a directory -/
  | dir (entries : List (Bytes × Node))

/-- The names on the way from the top of a tree down to a place in it. -/
abbrev Location := List Bytes

/-- The longest name an entry can have, in bytes. -/
def maxNameLength : Nat := 255

/-- A directory can hold an entry of this name. -/
def isEntryName (name : Bytes) : Bool :=
  name ≠ [] && name ≠ [dot] && name ≠ [dot, dot] && slash ∉ name && 0 ∉ name
    && name.length ≤ maxNameLength

/-! ## Sorted names -/

/-- The sorted names with one more, unless it is there. -/
def insertName (name : Bytes) : List Bytes → List Bytes
  | [] => [name]
  | other :: rest =>
    if name < other then name :: other :: rest
    else if name = other then other :: rest
    else other :: insertName name rest

theorem mem_insertName {n name : Bytes} {names : List Bytes} :
    n ∈ insertName name names ↔ n = name ∨ n ∈ names := by
  induction names with
  | nil => simp [insertName]
  | cons other rest ih =>
    simp only [insertName]
    split
    · simp
    · split
      · next h => subst h; simp
      · simp [ih, or_left_comm]

theorem insertName_sorted {name : Bytes} {names : List Bytes}
    (h : names.Pairwise (· < ·)) : (insertName name names).Pairwise (· < ·) := by
  induction names with
  | nil => simp [insertName]
  | cons other rest ih =>
    obtain ⟨hother, hrest⟩ := List.pairwise_cons.mp h
    simp only [insertName]
    split
    · next hlt =>
      refine List.pairwise_cons.mpr ⟨fun n hn => ?_, h⟩
      rcases List.mem_cons.mp hn with rfl | hn
      · exact hlt
      · exact List.lt_trans hlt (hother n hn)
    · next hlt =>
      split
      · exact h
      · next hne =>
        refine List.pairwise_cons.mpr ⟨fun n hn => ?_, ih hrest⟩
        rcases mem_insertName.mp hn with rfl | hn
        · rcases List.le_iff_lt_or_eq.mp (List.not_lt.mp hlt) with hlt | heq
          · exact hlt
          · exact absurd heq.symm hne
        · exact hother n hn

namespace Node

/-- The entries of a directory as they are stored. -/
def entries : Node → List (Bytes × Node)
  | dir es => es
  | _ => []

/-- The entry is a directory. -/
def isDir : Node → Bool
  | dir _ => true
  | _ => false

/-- The entry is a regular file. -/
def isFile : Node → Bool
  | file _ => true
  | _ => false

/-- The entry of this name in a directory. -/
def child? (node : Node) (name : Bytes) : Option Node :=
  if isEntryName name then node.entries.lookup name else none

/-- The names of the entries of a directory, in the order of their bytes. -/
def names (node : Node) : List Bytes :=
  ((node.entries.map Prod.fst).filter isEntryName).foldr insertName []

theorem names_sorted (node : Node) : node.names.Pairwise (· < ·) := by
  unfold names
  induction (node.entries.map Prod.fst).filter isEntryName with
  | nil => simp
  | cons n ns ih => exact insertName_sorted ih

theorem mem_foldr_insertName {n : Bytes} {ns : List Bytes} :
    n ∈ ns.foldr insertName [] ↔ n ∈ ns := by
  induction ns with
  | nil => simp
  | cons m ns ih => simp [mem_insertName, ih]

theorem mem_names {node : Node} {n : Bytes} : n ∈ node.names ↔ (node.child? n).isSome := by
  rw [names, mem_foldr_insertName, List.mem_filter, child?]
  by_cases h : isEntryName n = true
  · simp only [h, and_true, if_true, lookup_isSome_iff]
  · simp [h]

/-- Only names that entries can have are found in a directory. -/
theorem isEntryName_of_child? {node child : Node} {name : Bytes}
    (h : node.child? name = some child) : isEntryName name = true :=
  (Option.ite_none_right_eq_some.mp h).1

/-- What is looked up in a directory is smaller than the directory. -/
theorem sizeOf_child? {node child : Node} {name : Bytes} (h : node.child? name = some child) :
    sizeOf child < sizeOf node := by
  unfold child? at h
  split at h
  · cases node with
    | dir es =>
      have key : ∀ es : List (Bytes × Node), es.lookup name = some child →
          sizeOf child < sizeOf es := by
        intro es
        induction es with
        | nil => simp
        | cons e es ih =>
          intro h
          rw [List.lookup_cons] at h
          split at h
          · cases e
            cases h
            simp only [List.cons.sizeOf_spec, Prod.mk.sizeOf_spec]
            omega
          · have := ih h
            simp only [List.cons.sizeOf_spec]
            omega
      have := key es h
      simp only [dir.sizeOf_spec]
      omega
    | _ => simp [entries] at h
  · cases h

/-! ## Places -/

/-- What is at a place. -/
def at? : Node → Location → Option Node
  | node, [] => some node
  | node, name :: rest =>
    match node.child? name with
    | some child => child.at? rest
    | none => none

theorem at?_append (node : Node) (place rest : Location) :
    node.at? (place ++ rest) = (node.at? place).bind (·.at? rest) := by
  induction place generalizing node with
  | nil => rfl
  | cons name place ih =>
    simp only [List.cons_append, at?]
    split <;> simp [ih]

/-- The entries with one of them replaced where it stands, or added at the end. -/
def setEntry (name : Bytes) (node : Node) : List (Bytes × Node) → List (Bytes × Node)
  | [] => [(name, node)]
  | e :: es => if e.1 = name then (name, node) :: es else e :: setEntry name node es

/-- The tree with `new` at the place. Directories on the way that are not there are made;
where a file or a link is in the way nothing changes. -/
def put (new : Node) : Location → Node → Node
  | [], _ => new
  | name :: rest, dir es =>
    dir (setEntry name (put new rest (((dir es).child? name).getD (dir []))) es)
  | _, node => node

/-- The tree without what is at the place. -/
def remove : Location → Node → Node
  | [name], dir es => dir (es.filter fun e => e.1 ≠ name)
  | name :: rest, dir es =>
    match (dir es).child? name with
    | some child => dir (setEntry name (remove rest child) es)
    | none => dir es
  | _, node => node

theorem lookup_setEntry (name n : Bytes) (node : Node) (es : List (Bytes × Node)) :
    (setEntry name node es).lookup n = if n = name then some node else es.lookup n := by
  induction es with
  | nil => simp only [setEntry, lookup_entry_cons, List.lookup_nil]
  | cons e es ih =>
    obtain ⟨m, old⟩ := e
    by_cases hm : m = name
    · subst hm
      by_cases h : n = m <;> simp [setEntry, lookup_entry_cons, h]
    · by_cases h : n = m
      · subst h
        simp [setEntry, hm]
      · simp [setEntry, lookup_entry_cons, hm, h, ih]

theorem child?_setEntry {name : Bytes} (n : Bytes) (node : Node) (es : List (Bytes × Node))
    (h : isEntryName name = true) :
    (dir (setEntry name node es)).child? n = if n = name then some node else (dir es).child? n := by
  unfold child?
  by_cases hn : n = name
  · subst hn
    simp [h, entries, lookup_setEntry]
  · simp [hn, entries, lookup_setEntry]

end Node

end RoleWiring
