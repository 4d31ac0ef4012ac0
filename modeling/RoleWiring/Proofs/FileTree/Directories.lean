import Mathlib.Logic.Relation
import RoleWiring.Proofs.FileTree.Descent

/-!
# Making directories

What may be different in a tree after directories were made: where there was nothing, there may be a
directory to which a path leads, one of those that were asked for. All else is as it was, so paths
are followed as before and files are read as before.

* `AddsDirs` — a tree differs from another one in this way;
* `addsDirs_createDirs` — what is made for a path, also if that fails;
* `isDir_createDirs` — what is there if it does not fail;
* `AddsDirs.read` — files are read as before.
-/

namespace RoleWiring

/-- The second path is the first one or a path above it. -/
def Path.Within : Path → Path → Prop :=
  Relation.ReflTransGen fun p q => p.parent? = some q

/-- The second path is above the first one. -/
def Path.Inside : Path → Path → Prop :=
  Relation.TransGen fun p q => p.parent? = some q

namespace FileTree

variable {t t' t'' : FileTree} {p : Path} {place : Location} {paths : Path → Prop}

/-! ## Trees with more directories -/

/-- At the place is a directory where nothing was, and one of the paths leads to it. -/
structure DirMade (t t' : FileTree) (paths : Path → Prop) (place : Location) : Prop where
  /-- nothing was there -/
  before : t.sightAt place = none
  /-- a directory is there -/
  after : t'.sightAt place = some .dir
  /-- a path leads to it -/
  leads : ∃ p, paths p ∧ t'.LeadsTo p place

/-- The second tree differs from the first one by directories to which the paths lead. -/
structure AddsDirs (t t' : FileTree) (paths : Path → Prop) : Prop where
  /-- relative paths begin at the same place -/
  workingDir : t'.workingDir = t.workingDir
  /-- what is to be seen elsewhere is what was -/
  same : ∀ place, t'.sightAt place = t.sightAt place ∨ t.DirMade t' paths place

theorem AddsDirs.refl (t : FileTree) (paths : Path → Prop) : AddsDirs t t paths where
  workingDir := rfl
  same := fun _ => .inl rfl

theorem AddsDirs.mono (h : AddsDirs t t' paths) {more : Path → Prop}
    (hmore : ∀ p, paths p → more p) : AddsDirs t t' more where
  workingDir := h.workingDir
  same := fun place => (h.same place).imp_right fun ⟨hbefore, hafter, p, hp, hleads⟩ =>
    ⟨hbefore, hafter, p, hmore p hp, hleads⟩

/-- What was there is there. -/
theorem AddsDirs.sightAt (h : AddsDirs t t' paths) {sight : Sight}
    (hsight : t.sightAt place = some sight) : t'.sightAt place = some sight := by
  rcases h.same place with hsame | hmade
  · exact hsame.trans hsight
  · cases hmade.before.symm.trans hsight

/-- No file is new. -/
theorem AddsDirs.sightAt_file_iff (h : AddsDirs t t' paths) {content : Bytes} :
    t'.sightAt place = some (.file content) ↔ t.sightAt place = some (.file content) := by
  refine ⟨fun hfile => ?_, h.sightAt⟩
  rcases h.same place with hsame | hmade
  · exact hsame.symm.trans hfile
  · cases hmade.after.symm.trans hfile

theorem AddsDirs.grows (h : AddsDirs t t' paths) : Grows t t' where
  workingDir := h.workingDir
  dir := fun _ => h.sightAt
  link := fun _ _ => h.sightAt
  file := fun _ content hfile => ⟨content, h.sightAt hfile⟩

theorem Grows.leadsTo (h : Grows t t') (hleads : t.LeadsTo p place) : t'.LeadsTo p place :=
  hleads.imp fun _ hfollow => h.follow hfollow

theorem AddsDirs.trans (h : AddsDirs t t' paths) (h' : AddsDirs t' t'' paths) :
    AddsDirs t t'' paths where
  workingDir := h'.workingDir.trans h.workingDir
  same := by
    intro place
    rcases h'.same place with hsame' | hmade'
    · rcases h.same place with hsame | ⟨hbefore, hafter, p, hp, hleads⟩
      · exact .inl (hsame'.trans hsame)
      · exact .inr ⟨hbefore, hsame'.trans hafter, p, hp, h'.grows.leadsTo hleads⟩
    · rcases h.same place with hsame | hmade
      · exact .inr ⟨hsame.symm.trans hmade'.before, hmade'.after, hmade'.leads⟩
      · cases hmade'.before.symm.trans hmade.after

theorem isDir_eq_true_iff :
    t.isDir p = true ↔ ∃ place, t.LeadsTo p place ∧ t.sightAt place = some .dir := by
  unfold isDir status LeadsTo
  constructor
  · intro h
    cases hfollow : t.follow p with
    | error e => simp [hfollow] at h
    | ok position =>
      rcases hat : t.top.at? position.place with _ | (_ | _ | es)
      · simp [hfollow, hat] at h
      · simp [hfollow, hat] at h
      · simp [hfollow, hat] at h
      · exact ⟨position.place, ⟨position.links, rfl⟩, sightAt_eq_dir.mpr ⟨es, hat⟩⟩
  · rintro ⟨place, ⟨links, hfollow⟩, hdir⟩
    obtain ⟨es, hat⟩ := sightAt_eq_dir.mp hdir
    simp [hfollow, hat]

theorem Grows.isDir (h : Grows t t') (hdir : t.isDir p = true) : t'.isDir p = true := by
  obtain ⟨place, hleads, hsight⟩ := isDir_eq_true_iff.mp hdir
  exact isDir_eq_true_iff.mpr ⟨place, h.leadsTo hleads, h.dir place hsight⟩

theorem read_eq_ok_iff {content : Bytes} :
    t.read p = .ok content ↔
      ∃ place, t.LeadsTo p place ∧ t.sightAt place = some (.file content) := by
  unfold read status LeadsTo
  constructor
  · intro h
    cases hfollow : t.follow p with
    | error e => simp [hfollow] at h
    | ok position =>
      rcases hat : t.top.at? position.place with _ | (c | _ | _)
      · simp [hfollow, hat] at h
      · simp only [hfollow, hat, Except.ok.injEq] at h
        subst h
        exact ⟨position.place, ⟨position.links, rfl⟩, sightAt_eq_file.mpr hat⟩
      · simp [hfollow, hat] at h
      · simp [hfollow, hat] at h
  · rintro ⟨place, ⟨links, hfollow⟩, hfile⟩
    simp [hfollow, sightAt_eq_file.mp hfile]

/-- The file that was written is there. -/
theorem isFile_of_write {content : Bytes} (h : t.write p content = .ok t') :
    t'.isFile p = true := by
  obtain ⟨place, ⟨links, hfollow⟩, hfile⟩ := read_eq_ok_iff.mp (read_write h)
  exact isFile_eq_true_iff.mpr ⟨_, _, hfollow, sightAt_eq_file.mp hfile⟩

/-- Files are read as before. -/
theorem AddsDirs.read (h : AddsDirs t t' paths) {content : Bytes} (hread : t.read p = .ok content) :
    t'.read p = .ok content := by
  obtain ⟨place, hleads, hfile⟩ := read_eq_ok_iff.mp hread
  exact read_eq_ok_iff.mpr ⟨place, h.grows.leadsTo hleads, h.sightAt hfile⟩

/-! ## Making one directory -/

theorem isLeaf_dir : (Node.dir []).IsLeaf := by
  intro name rest
  rw [Node.at?]
  simp [Node.child?, Node.entries]

/-- No step but one for a slash at the end closes a path. -/
theorem filter_steps (p : Path) : p.steps.filter (· ≠ .close) = p.bareSteps := by
  have hopen : ∀ segment step, Step.ofSegment? segment = some step → step ≠ .close := by
    intro segment step hstep hclose
    subst hclose
    unfold Step.ofSegment? at hstep
    split_ifs at hstep <;> cases hstep
  have hkept : p.bareSteps.filter (· ≠ .close) = p.bareSteps := by
    refine List.filter_eq_self.mpr fun step hstep => ?_
    obtain ⟨segment, -, hsegment⟩ := List.mem_filterMap.mp hstep
    exact decide_eq_true (hopen segment step hsegment)
  have hsteps : p.steps =
      p.bareSteps ++ if p.bytes.getLast? = some slash then [.close] else [] := rfl
  rw [hsteps, List.filter_append, hkept]
  split <;> simp

/-- What is created is put where nothing is, in a directory to which the path without its last name
leads. -/
theorem exists_put_of_create {node : Node} (h : t.create p node = .ok t') :
    ∃ dir name links, t.sightAt dir = some .dir ∧ isEntryName name = true ∧
      t.sightAt (dir ++ [name]) = none ∧ t' = t.put (dir ++ [name]) node ∧
      checkPath p = .ok () ∧ p.bareSteps = p.bareSteps.dropLast ++ [.enter name] ∧
      t.walk maxLinks (p.start t.workingDir) p.bareSteps.dropLast = .ok ⟨links, dir⟩ := by
  unfold create at h
  rw [filter_steps] at h
  obtain ⟨⟨⟩, hcheck, hrest⟩ := bind_eq_ok.mp h
  obtain ⟨⟨links, dir⟩, hwalk, hrest⟩ := bind_eq_ok.mp hrest
  split at hrest
  · next name hlast =>
    obtain ⟨entry, hentry, hput⟩ := bind_eq_ok.mp hrest
    cases entry with
    | some old => cases hput
    | none =>
      cases hput
      obtain ⟨hdir, hname, hnone⟩ := entryAt_eq_ok_iff.mp hentry
      refine ⟨dir, name, links, hdir, hname, ?_, rfl, hcheck, ?_, hwalk⟩
      · rw [sightAt, hnone]
        rfl
      · exact (List.dropLast_append_getLast? _ hlast).symm
  · obtain ⟨_, -, hthrow⟩ := bind_eq_ok.mp hrest
    cases hthrow

theorem writable_of_none {dir : Location} {name : Bytes} (hdir : t.sightAt dir = some .dir)
    (hname : isEntryName name = true) (hnone : t.sightAt (dir ++ [name]) = none) :
    t.Writable dir name := by
  refine ⟨hdir, hname, fun sight hsight => ?_⟩
  cases hnone.symm.trans hsight

/-- A tree grows by whatever is put where nothing was. -/
theorem grows_put_of_none {dir : Location} {name : Bytes} {node : Node}
    (hdir : t.sightAt dir = some .dir) (hname : isEntryName name = true)
    (hnone : t.sightAt (dir ++ [name]) = none) (hleaf : node.IsLeaf) :
    Grows t (t.put (dir ++ [name]) node) := by
  have hkept : ∀ l sight, t.sightAt l = some sight →
      (t.put (dir ++ [name]) node).sightAt l = some sight := by
    intro l sight hl
    rw [sightAt_put (writable_of_none hdir hname hnone) hleaf, if_neg, hl]
    rintro rfl
    cases hnone.symm.trans hl
  exact ⟨rfl, fun l => hkept l _, fun l target => hkept l _,
    fun l content hl => ⟨content, hkept l _ hl⟩⟩

/-- A new directory is where nothing was, and its path leads to it. -/
theorem addsDirs_createDir (h : t.createDir p = .ok t') :
    AddsDirs t t' (· = p) ∧ t'.isDir p = true := by
  obtain ⟨dir, name, links, hdir, hname, hnone, rfl, hcheck, hsteps, hwalk⟩ :=
    exists_put_of_create h
  have hsame := sightAt_put (writable_of_none hdir hname hnone) isLeaf_dir
  have hnew := hsame (dir ++ [name])
  rw [if_pos rfl] at hnew
  have hgrows := grows_put_of_none hdir hname hnone isLeaf_dir
  have hleads : (t.put (dir ++ [name]) (.dir [])).LeadsTo p (dir ++ [name]) := by
    obtain ⟨es, node, hat, hchild, hsight⟩ := exists_child_of_sightAt hnew
    obtain ⟨es', rfl⟩ := Node.sight_eq_dir.mp hsight
    refine ⟨links, follow_eq_ok.mpr ⟨hcheck, ?_⟩⟩
    rw [walk_steps_of_dir (at?_child hat hchild), hsteps, walk_append]
    exact bind_eq_ok.mpr ⟨_, hgrows.walk hwalk, walk_enter_of_dir hat hchild⟩
  refine ⟨⟨rfl, fun place => ?_⟩, isDir_eq_true_iff.mpr ⟨_, hleads, hnew⟩⟩
  by_cases hplace : place = dir ++ [name]
  · subst hplace
    exact .inr ⟨hnone, hnew, p, rfl, hleads⟩
  · exact .inl ((hsame place).trans (if_neg hplace))

/-! ## Making all that is missing -/

theorem acceptDir_eq_none {e : OsError} (h : t.acceptDir p e = none) : t.isDir p = true := by
  unfold acceptDir at h
  split at h
  · assumption
  · cases h

/-- Only directories are made for a path, and the path or paths above it lead to them. -/
theorem addsDirs_createDirs (t : FileTree) (p : Path) :
    AddsDirs t (t.createDirs p).1 p.Within := by
  have hself : ∀ (p q : Path), q = p → p.Within q := by
    rintro p q rfl
    exact .refl
  fun_induction createDirs t p with
  | case1 p hnil => exact .refl t _
  | case2 p hnil t' hcreate => exact (addsDirs_createDir hcreate).1.mono (hself p)
  | case3 p hnil hcreate hparent => exact .refl t _
  | case4 p hnil hcreate parent hparent t' e hrest ih =>
    rw [hrest] at ih
    exact ih.mono fun q hq => .head hparent hq
  | case5 p hnil hcreate parent hparent t' hrest t'' hagain ih =>
    rw [hrest] at ih
    exact (ih.mono fun q hq => .head hparent hq).trans
      ((addsDirs_createDir hagain).1.mono (hself p))
  | case6 p hnil hcreate parent hparent t' hrest e hagain ih =>
    rw [hrest] at ih
    exact ih.mono fun q hq => .head hparent hq
  | case7 p hnil e hne hcreate => exact .refl t _

/-- If nothing failed, the path leads to a directory. -/
theorem isDir_createDirs (hp : p.bytes ≠ []) (h : (t.createDirs p).2 = none) :
    (t.createDirs p).1.isDir p = true := by
  revert h
  fun_cases createDirs t p with
  | case1 hnil => exact absurd hnil hp
  | case2 hnil t' hcreate => exact fun _ => (addsDirs_createDir hcreate).2
  | case3 hnil hcreate hparent => exact nofun
  | case4 hnil hcreate parent hparent t' e hrest => exact nofun
  | case5 hnil hcreate parent hparent t' hrest t'' hagain =>
    exact fun _ => (addsDirs_createDir hagain).2
  | case6 hnil hcreate parent hparent t' hrest e hagain => exact acceptDir_eq_none
  | case7 hnil e hne hcreate => exact acceptDir_eq_none

/-- Only directories are made above a path, and the paths above it lead to them. -/
theorem addsDirs_createParents (t : FileTree) (p : Path) :
    AddsDirs t (t.createParents p).1 p.Inside := by
  unfold createParents
  cases hparent : p.parent? with
  | none => exact .refl t _
  | some parent => exact (addsDirs_createDirs t parent).mono fun q hq => .head' hparent hq

end FileTree

end RoleWiring
