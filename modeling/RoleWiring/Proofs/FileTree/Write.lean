import RoleWiring.FileTree.Change
import RoleWiring.Proofs.Except

/-!
# Writing a file

What is to be seen in a tree are files, links and directories at their places.
Following a path depends on nothing else, and writing a file changes what is to be seen
at one place only, where there was a file before or nothing. So every path that could
be followed before still leads to the same place.

* `sightAt_put` — what is to be seen after something was put somewhere;
* `Grows.walk` — paths are followed as before;
* `read_write` — what was written is read back.
-/

namespace RoleWiring

/-- What is to be seen of a node without looking into directories. -/
inductive Sight where
  /-- a file with its content -/
  | file (content : Bytes)
  /-- a link with its target -/
  | link (target : Path)
  /-- a directory -/
  | dir
deriving DecidableEq

/-! ## What is to be seen -/

namespace Node

/-- What is to be seen of a node. -/
def sight : Node → Sight
  | file content => .file content
  | link target => .link target
  | dir _ => .dir

theorem sight_eq_dir {node : Node} : node.sight = .dir ↔ ∃ es, node = dir es := by
  cases node <;> simp [sight]

theorem sight_eq_link {node : Node} {target : Path} :
    node.sight = .link target ↔ node = link target := by
  cases node <;> simp [sight]

theorem sight_eq_file {node : Node} {content : Bytes} :
    node.sight = .file content ↔ node = file content := by
  cases node <;> simp [sight]

/-- Nothing is below the node. -/
def IsLeaf (node : Node) : Prop :=
  ∀ name rest, node.at? (name :: rest) = none

theorem isLeaf_file (content : Bytes) : (file content).IsLeaf := by
  intro name rest
  rw [at?]
  simp [child?, entries]

/-- What is put into a directory, where there was nothing of this name or nothing below it, is to be
seen there, and everything else is as it was. -/
theorem sight_at?_put {node new : Node} {place : Location} {name : Bytes}
    {es : List (Bytes × Node)} (hdir : node.at? place = some (dir es))
    (hname : isEntryName name = true) (hnew : new.IsLeaf)
    (hold : ∀ old, (dir es).child? name = some old → old.IsLeaf) (l : Location) :
    ((put new (place ++ [name]) node).at? l).map sight =
      if l = place ++ [name] then some new.sight else (node.at? l).map sight := by
  induction place generalizing node l with
  | nil =>
    cases hdir
    cases l with
    | nil => rfl
    | cons m ls =>
      simp only [List.nil_append, put, at?, child?_setEntry _ _ _ hname]
      by_cases hm : m = name
      · -- below the entry nothing is to be seen, neither in what is new nor in what it replaces
        subst hm
        cases ls with
        | nil => simp [at?]
        | cons k ks =>
          rw [if_pos rfl, if_neg (by simp)]
          dsimp only
          rw [hnew]
          cases hchild : (dir es).child? m with
          | none => rfl
          | some old =>
            dsimp only
            rw [hold old hchild]
      · have hne : ¬ m :: ls = [name] := fun h => hm (List.cons.inj h).1
        rw [if_neg hm, if_neg hne]
  | cons first rest ih =>
    simp only [at?] at hdir
    split at hdir
    · next child hchild =>
      have hfirst := isEntryName_of_child? hchild
      cases node with
      | file c => simp [child?, entries] at hchild
      | link target => simp [child?, entries] at hchild
      | dir es' =>
        cases l with
        | nil => rfl
        | cons m ls =>
          simp only [List.cons_append, put, hchild, Option.getD_some, at?,
            child?_setEntry _ _ _ hfirst]
          by_cases hm : m = first
          · subst hm
            rw [if_pos rfl, hchild]
            dsimp only
            rw [ih hdir]
            simp
          · have hne : ¬ m :: ls = first :: (rest ++ [name]) := fun h => hm (List.cons.inj h).1
            rw [if_neg hm, if_neg hne]
    · cases hdir

end Node

namespace FileTree

variable {t : FileTree}

/-- What is to be seen at a place. -/
def sightAt (t : FileTree) (place : Location) : Option Sight :=
  (t.top.at? place).map Node.sight

theorem dirAt_eq_ok_iff {place : Location} :
    (∃ node, t.dirAt place = .ok node) ↔ t.sightAt place = some .dir := by
  unfold dirAt sightAt
  rcases t.top.at? place with _ | (_ | _ | es)
  · simp
  · simp [Node.sight]
  · simp [Node.sight]
  · simp [Node.sight]

/-- A place where a file can be written: an entry of a directory that is a file or not there. -/
structure Writable (t : FileTree) (place : Location) (name : Bytes) : Prop where
  /-- the place is a directory -/
  dir : t.sightAt place = some .dir
  /-- entries can have the name -/
  isEntryName : isEntryName name = true
  /-- under this name there is no link and no directory -/
  free : ∀ sight, t.sightAt (place ++ [name]) = some sight → ∃ content, sight = .file content

/-- What is to be seen after something without anything below it was put somewhere. -/
theorem sightAt_put {place : Location} {name : Bytes} {node : Node} (h : t.Writable place name)
    (hnode : node.IsLeaf) (l : Location) :
    (t.put (place ++ [name]) node).sightAt l =
      if l = place ++ [name] then some node.sight else t.sightAt l := by
  obtain ⟨hdir, hname, hfree⟩ := h
  obtain ⟨top, hat, hsight⟩ := Option.map_eq_some_iff.mp hdir
  obtain ⟨es, rfl⟩ := Node.sight_eq_dir.mp hsight
  refine Node.sight_at?_put hat hname hnode (fun old hold => ?_) l
  have hplace : t.top.at? (place ++ [name]) = some old := by
    rw [Node.at?_append, hat]
    show (Node.dir es).at? [name] = some old
    rw [Node.at?, hold]
    rfl
  obtain ⟨c, hc⟩ := hfree old.sight (by unfold sightAt; rw [hplace]; rfl)
  rw [Node.sight_eq_file.mp hc]
  exact Node.isLeaf_file c

/-- What is to be seen after a file was put somewhere. -/
theorem sightAt_put_file {place : Location} {name : Bytes} (h : t.Writable place name)
    (content : Bytes) (l : Location) :
    (t.put (place ++ [name]) (.file content)).sightAt l =
      if l = place ++ [name] then some (.file content) else t.sightAt l :=
  sightAt_put h (Node.isLeaf_file content) l

/-! ## Paths in a tree that has grown -/

/-- Looking up an entry is seeing what is in the directory. -/
theorem entryAt_eq_ok_iff {place : Location} {name : Bytes} {entry : Option Node} :
    t.entryAt place name = .ok entry ↔
      t.sightAt place = some .dir ∧ isEntryName name = true ∧
        t.top.at? (place ++ [name]) = entry := by
  have hat : ∀ es, t.top.at? place = some (.dir es) →
      t.top.at? (place ++ [name]) = (Node.dir es).child? name := by
    intro es hes
    rw [Node.at?_append, hes]
    show (Node.dir es).at? [name] = _
    rw [Node.at?]
    cases (Node.dir es).child? name <;> rfl
  unfold entryAt
  refine ⟨?_, ?_⟩
  · intro h
    split at h
    · cases h
    · next node hdirAt =>
      have hdir := dirAt_eq_ok_iff.mp ⟨node, hdirAt⟩
      obtain ⟨node', hnode, hsight⟩ := Option.map_eq_some_iff.mp hdir
      obtain ⟨es, rfl⟩ := Node.sight_eq_dir.mp hsight
      unfold dirAt at hdirAt
      rw [hnode] at hdirAt
      cases hdirAt
      split at h
      · next hname =>
        cases h
        exact ⟨hdir, hname, hat es hnode⟩
      · split at h <;> cases h
  · rintro ⟨hdir, hname, hentry⟩
    obtain ⟨node, hnode, hsight⟩ := Option.map_eq_some_iff.mp hdir
    obtain ⟨es, rfl⟩ := Node.sight_eq_dir.mp hsight
    unfold dirAt
    rw [hnode]
    dsimp only
    rw [if_pos hname, ← hat es hnode, hentry]

/-- Everything that is in the first tree is in the second one too, files perhaps with another
content. -/
structure Grows (t t' : FileTree) : Prop where
  /-- relative paths begin at the same place -/
  workingDir : t'.workingDir = t.workingDir
  /-- directories are kept -/
  dir : ∀ l, t.sightAt l = some .dir → t'.sightAt l = some .dir
  /-- links are kept -/
  link : ∀ l target, t.sightAt l = some (.link target) → t'.sightAt l = some (.link target)
  /-- files are kept -/
  file : ∀ l content, t.sightAt l = some (.file content) →
    ∃ content', t'.sightAt l = some (.file content')

theorem Grows.refl (t : FileTree) : Grows t t :=
  ⟨rfl, fun _ => id, fun _ _ => id, fun _ content h => ⟨content, h⟩⟩

/-- A tree grows when a file is put somewhere. -/
theorem grows_put {place : Location} {name : Bytes} (h : t.Writable place name) (content : Bytes) :
    Grows t (t.put (place ++ [name]) (.file content)) where
  workingDir := rfl
  dir := by
    intro l hl
    rw [sightAt_put_file h]
    split
    · next heq =>
      obtain ⟨c, hc⟩ := h.free _ (heq ▸ hl)
      cases hc
    · exact hl
  link := by
    intro l target hl
    rw [sightAt_put_file h]
    split
    · next heq =>
      obtain ⟨c, hc⟩ := h.free _ (heq ▸ hl)
      cases hc
    · exact hl
  file := by
    intro l c hl
    rw [sightAt_put_file h]
    split
    · exact ⟨content, rfl⟩
    · exact ⟨c, hl⟩

section Growth

variable {t' : FileTree}

theorem Grows.dirAt (h : Grows t t') {place : Location} {node : Node}
    (hdir : t.dirAt place = .ok node) : ∃ node', t'.dirAt place = .ok node' :=
  dirAt_eq_ok_iff.mpr (h.dir place (dirAt_eq_ok_iff.mp ⟨node, hdir⟩))

/-- An entry is of the same sort in a tree that has grown. -/
theorem Grows.entryAt (h : Grows t t') {place : Location} {name : Bytes} {node : Node}
    (hentry : t.entryAt place name = .ok (some node)) :
    ∃ node', t'.entryAt place name = .ok (some node') ∧
      ∀ target, node' = .link target ↔ node = .link target := by
  obtain ⟨hdir, hname, hnode⟩ := entryAt_eq_ok_iff.mp hentry
  have hsight : t.sightAt (place ++ [name]) = some node.sight := by
    unfold sightAt
    rw [hnode]
    rfl
  have hlift : ∀ sight, t'.sightAt (place ++ [name]) = some sight →
      ∃ node', t'.entryAt place name = .ok (some node') ∧ node'.sight = sight := by
    intro sight hs
    obtain ⟨node', hnode', hs'⟩ := Option.map_eq_some_iff.mp hs
    exact ⟨node', entryAt_eq_ok_iff.mpr ⟨h.dir place hdir, hname, hnode'⟩, hs'⟩
  cases node with
  | dir es =>
    obtain ⟨node', hentry', hs⟩ := hlift _ (h.dir _ hsight)
    obtain ⟨es', rfl⟩ := Node.sight_eq_dir.mp hs
    exact ⟨_, hentry', fun target => iff_of_false nofun nofun⟩
  | link target =>
    obtain ⟨node', hentry', hs⟩ := hlift _ (h.link _ _ hsight)
    cases Node.sight_eq_link.mp hs
    exact ⟨_, hentry', fun target => Iff.rfl⟩
  | file content =>
    obtain ⟨content', hs'⟩ := h.file _ _ hsight
    obtain ⟨node', hentry', hs⟩ := hlift _ hs'
    cases Node.sight_eq_file.mp hs
    exact ⟨_, hentry', fun target => iff_of_false nofun nofun⟩

/-- In a tree that has grown paths are followed as before. -/
theorem Grows.walk (h : Grows t t') {links : Nat} {place : Location} {steps : List Step}
    {p : Position} (hwalk : t.walk links place steps = .ok p) :
    t'.walk links place steps = .ok p := by
  fun_induction FileTree.walk t links place steps with
  | case1 =>
    rw [FileTree.walk]
    exact hwalk
  | case5 links place name rest target hentry htarget hlinks ih =>
    -- a link is the same link in the tree that has grown
    obtain ⟨node', hentry', hsame⟩ := h.entryAt hentry
    cases (hsame target).mpr rfl
    rw [FileTree.walk, hentry']
    dsimp only
    rw [if_neg htarget, if_pos hlinks]
    exact ih hwalk
  | case7 links place name rest node hlink hentry ih =>
    obtain ⟨node', hentry', hsame⟩ := h.entryAt hentry
    rw [FileTree.walk, hentry']
    cases node' with
    | link target => exact absurd ((hsame target).mp rfl) (hlink target)
    | file content => exact ih hwalk
    | dir es => exact ih hwalk
  | case9 links place rest node hdir ih =>
    obtain ⟨node', hdir'⟩ := h.dirAt hdir
    rw [FileTree.walk, hdir']
    exact ih hwalk
  | case11 links place step rest hname hup node hdir ih =>
    obtain ⟨node', hdir'⟩ := h.dirAt hdir
    rw [FileTree.walk, hdir']
    · exact ih hwalk
    · exact hname
    · exact hup
  | _ => cases hwalk

end Growth

/-! ## Where a file is written -/

/-- A step into a file leads to it. -/
theorem walk_enter_of_file {links : Nat} {place : Location} {name : Bytes} {content : Bytes}
    (hdir : t.sightAt place = some .dir) (hname : isEntryName name = true)
    (hfile : t.sightAt (place ++ [name]) = some (.file content)) :
    t.walk links place [.enter name] = .ok ⟨links, place ++ [name]⟩ := by
  obtain ⟨node, hnode, hsight⟩ := Option.map_eq_some_iff.mp hfile
  cases Node.sight_eq_file.mp hsight
  rw [walk, entryAt_eq_ok_iff.mpr ⟨hdir, hname, hnode⟩]
  dsimp only
  rw [walk]

/-- A file is written at a writable place, and once a file is there, the steps lead to it. -/
theorem writable_of_placeToWrite {links : Nat} {here place : Location} {steps : List Step}
    (hplace : t.placeToWrite links here steps = .ok place) :
    ∃ dir name, place = dir ++ [name] ∧ t.Writable dir name ∧
      ∀ t' content, Grows t t' → t'.sightAt place = some (.file content) →
        ∃ links', t'.walk links here steps = .ok ⟨links', place⟩ := by
  fun_induction placeToWrite t links here steps with
  | case3 links here name hentry =>
    -- the last step, and nothing is there yet
    cases hplace
    obtain ⟨hdir, hname, hnone⟩ := entryAt_eq_ok_iff.mp hentry
    refine ⟨here, name, rfl, ⟨hdir, hname, fun sight hs => ?_⟩, fun t' content hgrows hfile => ?_⟩
    · unfold sightAt at hs
      rw [hnone] at hs
      cases hs
    · exact ⟨links, walk_enter_of_file (hgrows.dir here hdir) hname hfile⟩
  | case4 links here name old hentry =>
    -- the last step, and a file is there already
    cases hplace
    obtain ⟨hdir, hname, hold⟩ := entryAt_eq_ok_iff.mp hentry
    refine ⟨here, name, rfl, ⟨hdir, hname, fun sight hs => ?_⟩, fun t' content hgrows hfile => ?_⟩
    · unfold sightAt at hs
      rw [hold] at hs
      cases hs
      exact ⟨old, rfl⟩
    · exact ⟨links, walk_enter_of_file (hgrows.dir here hdir) hname hfile⟩
  | case7 links here name target hentry htarget hlinks ih =>
    -- the last step is into a link, whose target says where to write
    obtain ⟨dir, last, rfl, hwritable, hleads⟩ := ih hplace
    refine ⟨dir, last, rfl, hwritable, fun t' content hgrows hfile => ?_⟩
    obtain ⟨links', hwalk⟩ := hleads t' content hgrows hfile
    obtain ⟨node', hentry', hsame⟩ := hgrows.entryAt hentry
    cases (hsame target).mpr rfl
    refine ⟨links', ?_⟩
    rw [walk, hentry']
    dsimp only
    rw [if_neg htarget, if_pos hlinks, List.append_nil]
    exact hwalk
  | case12 links here step rest _ _ p hstep ih =>
    -- a step that is not the last one is taken in the tree that has grown, too
    obtain ⟨dir, last, rfl, hwritable, hleads⟩ := ih hplace
    refine ⟨dir, last, rfl, hwritable, fun t' content hgrows hfile => ?_⟩
    obtain ⟨links', hwalk⟩ := hleads t' content hgrows hfile
    refine ⟨links', ?_⟩
    rw [← List.singleton_append, walk_append, hgrows.walk hstep]
    exact hwalk
  | _ => cases hplace

/-- The path leads to the place. -/
def LeadsTo (t : FileTree) (p : Path) (place : Location) : Prop :=
  ∃ links, t.follow p = .ok ⟨links, place⟩

/-- A write puts the content at a writable place. Once a file is there, the path leads to it. -/
theorem exists_put_of_write {t' : FileTree} {p : Path} {content : Bytes}
    (h : t.write p content = .ok t') :
    ∃ dir name, t.Writable dir name ∧ t' = t.put (dir ++ [name]) (.file content) ∧
      ∀ t'' c, Grows t t'' → t''.sightAt (dir ++ [name]) = some (.file c) →
        t''.LeadsTo p (dir ++ [name]) := by
  unfold write at h
  obtain ⟨u, hcheck, hrest⟩ := bind_eq_ok.mp h
  obtain ⟨place, hplace, hput⟩ := bind_eq_ok.mp hrest
  cases hput
  obtain ⟨dir, name, rfl, hwritable, hleads⟩ := writable_of_placeToWrite hplace
  refine ⟨dir, name, hwritable, rfl, fun t'' c hgrows hfile => ?_⟩
  obtain ⟨links, hwalk⟩ := hleads t'' c hgrows hfile
  refine ⟨links, ?_⟩
  rw [follow, hgrows.workingDir]
  exact bind_eq_ok.mpr ⟨u, hcheck, hwalk⟩

/-- A file is written under a name that nothing has in the directory where its path begins. -/
theorem exists_write_of_entryAt {p : Path} {name : Bytes} (hcheck : checkPath p = .ok ())
    (hsteps : p.steps = [.enter name])
    (hentry : t.entryAt (p.start t.workingDir) name = .ok none) (content : Bytes) :
    ∃ t', t.write p content = .ok t' := by
  rw [write, hcheck, hsteps, placeToWrite, hentry]
  exact ⟨_, rfl⟩

/-- Whether a file can be written does not depend on what is written. -/
theorem exists_write {t' : FileTree} {p : Path} {content : Bytes}
    (h : t.write p content = .ok t') (other : Bytes) : ∃ t'', t.write p other = .ok t'' := by
  rw [write, bind_eq_ok] at h
  obtain ⟨u, hcheck, hrest⟩ := h
  obtain ⟨place, hplace, -⟩ := bind_eq_ok.mp hrest
  exact ⟨_, bind_eq_ok.mpr ⟨u, hcheck, bind_eq_ok.mpr ⟨place, hplace, rfl⟩⟩⟩

/-- What was written is read back. -/
theorem read_write {t' : FileTree} {p : Path} {content : Bytes}
    (h : t.write p content = .ok t') : t'.read p = .ok content := by
  obtain ⟨dir, name, hwritable, rfl, hleads⟩ := exists_put_of_write h
  have hfile := sightAt_put_file hwritable content (dir ++ [name])
  rw [if_pos rfl] at hfile
  obtain ⟨links, hfollow⟩ := hleads _ content (grows_put hwritable content) hfile
  obtain ⟨node, hnode, hsight⟩ := Option.map_eq_some_iff.mp hfile
  cases Node.sight_eq_file.mp hsight
  unfold read status
  rw [hfollow]
  dsimp only
  rw [hnode]

/-! ## What a write changes -/

theorem grows_of_write {t' : FileTree} {p : Path} {content : Bytes}
    (h : t.write p content = .ok t') : Grows t t' := by
  obtain ⟨dir, name, hwritable, rfl, -⟩ := exists_put_of_write h
  exact grows_put hwritable content

/-- At the place is a file to which the path leads, where there was a file before or nothing. -/
structure FileWritten (t t' : FileTree) (p : Path) (place : Location) : Prop where
  /-- a file was there or nothing -/
  before : ∀ sight, t.sightAt place = some sight → ∃ content, sight = .file content
  /-- a file is there -/
  after : ∃ content, t'.sightAt place = some (.file content)
  /-- the path leads to it -/
  leads : t'.LeadsTo p place

/-- A path that leads to something exists. -/
theorem pathExists_of_leadsTo {p : Path} {place : Location} {sight : Sight}
    (hleads : t.LeadsTo p place) (hsight : t.sightAt place = some sight) :
    t.pathExists p = true := by
  obtain ⟨links, hfollow⟩ := hleads
  obtain ⟨node, hnode, -⟩ := Option.map_eq_some_iff.mp hsight
  simp [pathExists, status, hfollow, hnode]

/-- A write changes what is to be seen at one place at most. If the path did not exist, nothing was
there. -/
theorem same_or_fileWritten {t' : FileTree} {p : Path} {content : Bytes}
    (h : t.write p content = .ok t') (place : Location) :
    t'.sightAt place = t.sightAt place ∨
      t.FileWritten t' p place ∧ (t.pathExists p = false → t.sightAt place = none) := by
  obtain ⟨dir, name, hwritable, rfl, hleads⟩ := exists_put_of_write h
  have hsame := sightAt_put_file hwritable content
  have hnew := hsame (dir ++ [name])
  rw [if_pos rfl] at hnew
  by_cases hplace : place = dir ++ [name]
  · subst hplace
    refine .inr ⟨⟨hwritable.free, ⟨content, hnew⟩, ?_⟩, fun hexists => ?_⟩
    · exact hleads _ content (grows_put hwritable content) hnew
    · -- a file at the place would be one to which the path leads
      cases hold : t.sightAt (dir ++ [name]) with
      | none => rfl
      | some sight =>
        obtain ⟨c, rfl⟩ := hwritable.free sight hold
        have hold' := hleads t c (.refl t) hold
        rw [pathExists_of_leadsTo hold' hold] at hexists
        cases hexists
  · exact .inl ((hsame place).trans (if_neg hplace))

end FileTree

end RoleWiring
