import Mathlib.Data.List.Nodup
import RoleWiring.Proofs.FileTree.Descent
import RoleWiring.Proofs.Scan

/-!
# What a scan lists, and in which order

The classes of a class path are those below its roots, the roots in the order given, each
less the names that an earlier root yielded. Below one root they are the files that lie
there under names made of identifiers, in the order of these names (`FoundBelow`). That says
all: the tree enters only through what is to be seen at its places.

* `foundBelow_segmentsUnder` — the artifacts below a root, exactly and in order;
* `FoundBelow.eq` — there is one such list;
* `append_unshadowed_flatMap` — roots that are taken in turn;
* `classes_listing` — the scan is one list of this form, without a repeated name, and the same
  wherever the same is to be seen.
-/

namespace RoleWiring

/-! ## Types and the names below a root -/

/-- The segments of the type that is defined by the artifact with these names below a root. -/
def typeBelow? (names : List Bytes) : Option (List (List Char)) :=
  (nameBelow? names).bind typeSegments?

theorem typeBelow?_eq_some {names : List Bytes} {segments : List (List Char)} :
    typeBelow? names = some segments ↔
      (segments ≠ [] ∧ ∀ s ∈ segments, isIdentifierChars s = true) ∧
        names = artifactNames segments := by
  rw [typeBelow?, Option.bind_eq_some_iff]
  constructor
  · rintro ⟨name, hname, hsegments⟩
    obtain ⟨other, hother, hnames⟩ := nameBelow?_eq_some.mp hname
    have hspells := typeSegments?_eq_some.mp hsegments
    obtain rfl := hother.unique hspells
    exact ⟨⟨hspells.ne_nil, hspells.identifiers⟩, hnames⟩
  · rintro ⟨⟨hne, hids⟩, hnames⟩
    have hspells : Spells segments (qualifiedName segments) := ⟨hne, hids, rfl⟩
    exact ⟨_, nameBelow?_eq_some.mpr ⟨segments, hspells, hnames⟩, typeSegments?_eq_some.mpr hspells⟩

/-- The name of a type is made of its segments. -/
theorem nameBelow?_eq (names : List Bytes) :
    nameBelow? names = (typeBelow? names).map qualifiedName := by
  refine Option.ext fun name => ?_
  simp only [nameBelow?_eq_some, Option.map_eq_some_iff, typeBelow?_eq_some]
  constructor
  · rintro ⟨segments, ⟨hne, hids, rfl⟩, hnames⟩
    exact ⟨segments, ⟨⟨hne, hids⟩, hnames⟩, rfl⟩
  · rintro ⟨segments, ⟨⟨hne, hids⟩, hnames⟩, rfl⟩
    exact ⟨segments, ⟨hne, hids, rfl⟩, hnames⟩

/-! ## Below one root -/

/-- The types whose artifacts lie below a root, given by the segments of their names, in the order
of the names that lead to the artifacts. A directory is descended if its path `opens`. -/
structure FoundBelow (t : FileTree) (opens : Path → Prop) (root : Path)
    (found : List (List (List Char))) : Prop where
  /-- the segments are identifiers, and names made of them lead from the root down to a file -/
  mem_iff : ∀ segments, segments ∈ found ↔
    (segments ≠ [] ∧ ∀ s ∈ segments, isIdentifierChars s = true) ∧
      ∃ position, enterRoot t root = .ok position ∧
        t.LiesBelow opens root [] position.place [] (artifactNames segments)
  /-- directory by directory, the names are in the order of their bytes -/
  sorted : (found.map artifactNames).Pairwise (· < ·)

/-- The artifact below a root that defines the type with these segments. -/
def artifactOf (root : Path) (segments : List (List Char)) : Artifact :=
  ⟨qualifiedName segments, root.descend (artifactNames segments)⟩

/-- The files below a root, each as the list of names that leads to it. -/
def filesUnder (t : FileTree) (root : Path) : List (List Bytes) :=
  match enterRoot t root with
  | .error _ => []
  | .ok position =>
    match t.top.at? position.place with
    | none => []
    | some node => t.filesBelow root position.links position.place [] node

/-- The segments of the types whose artifacts a scan finds below a root. -/
def segmentsUnder (t : FileTree) (root : Path) : List (List (List Char)) :=
  (filesUnder t root).filterMap typeBelow?

section Root

variable {t : FileTree} {opens : Path → Prop} {root : Path}

theorem mem_filesUnder {names : List Bytes} :
    names ∈ filesUnder t root ↔
      ∃ position, enterRoot t root = .ok position ∧
        t.LiesBelow Path.Short root [] position.place [] names := by
  rw [filesUnder]
  cases henter : enterRoot t root with
  | error fault => simp
  | ok position =>
    obtain ⟨-, es, hat⟩ := FileTree.enterRoot_eq_ok.mp henter
    simp only [hat, Except.ok.injEq, exists_eq_left']
    exact FileTree.mem_filesBelow_iff (FileTree.reached_of_enterRoot henter) hat

theorem filesUnder_sorted (t : FileTree) (root : Path) :
    (filesUnder t root).Pairwise (· < ·) := by
  rw [filesUnder]
  split
  · exact .nil
  · split
    · exact .nil
    · exact FileTree.filesBelow_sorted ..

/-- A scan finds below a root the artifacts that lie below it, in the order of their names. -/
theorem foundBelow_segmentsUnder (t : FileTree) (root : Path) :
    FoundBelow t Path.Short root (segmentsUnder t root) where
  mem_iff := by
    intro segments
    simp only [segmentsUnder, List.mem_filterMap, typeBelow?_eq_some]
    constructor
    · rintro ⟨names, hmem, htype, rfl⟩
      exact ⟨htype, mem_filesUnder.mp hmem⟩
    · rintro ⟨htype, hbelow⟩
      exact ⟨_, mem_filesUnder.mpr hbelow, htype, rfl⟩
  sorted := by
    rw [segmentsUnder, List.pairwise_map, List.pairwise_filterMap]
    apply (filesUnder_sorted t root).imp
    intro first second hlt segments hsegments segments' hsegments'
    obtain ⟨-, rfl⟩ := typeBelow?_eq_some.mp hsegments
    obtain ⟨-, rfl⟩ := typeBelow?_eq_some.mp hsegments'
    exact hlt

/-- The artifacts that a scan finds are those of the types that it finds. -/
theorem artifactsUnder_eq (t : FileTree) (root : Path) :
    artifactsUnder t root = (segmentsUnder t root).map (artifactOf root) := by
  rw [artifactsUnder, segmentsUnder, filesUnder]
  cases henter : enterRoot t root with
  | error fault => rfl
  | ok position =>
    obtain ⟨-, es, hat⟩ := FileTree.enterRoot_eq_ok.mp henter
    simp only [artifactsBelow, hat, List.map_filterMap]
    apply List.filterMap_congr
    intro names hnames
    have hplain : ∀ n ∈ names, Plain n := fun n hn =>
      plain_of_isEntryName (FileTree.isEntryName_of_mem_filesBelow hnames n hn)
    rw [artifactName?_descend root hplain, nameBelow?_eq, Option.map_map]
    cases htype : typeBelow? names with
    | none => rfl
    | some segments =>
      obtain ⟨-, rfl⟩ := typeBelow?_eq_some.mp htype
      rfl

namespace FoundBelow

variable {found found' : List (List (List Char))}

/-- No type is found twice. -/
theorem nodup (h : FoundBelow t opens root found) : found.Nodup := by
  apply (List.pairwise_map.mp h.sorted).imp
  rintro first second hlt rfl
  exact List.lt_irrefl _ hlt

/-- Only one list is as it has to be. -/
theorem eq (h : FoundBelow t opens root found) (h' : FoundBelow t opens root found') :
    found = found' := by
  have hperm : found.Perm found' := by
    rw [List.perm_ext_iff_of_nodup h.nodup h'.nodup]
    intro segments
    rw [h.mem_iff, h'.mem_iff]
  refine hperm.eq_of_pairwise (fun first second _ _ hlt hgt => ?_)
    (List.pairwise_map.mp h.sorted) (List.pairwise_map.mp h'.sorted)
  exact absurd hgt (List.lt_asymm hlt)

/-- No name is found twice. -/
theorem nodup_names (h : FoundBelow t opens root found) :
    ((found.map (artifactOf root)).map Artifact.name).Nodup := by
  rw [List.map_map]
  refine List.Nodup.map_on (fun first hfirst second hsecond hname => ?_) h.nodup
  have hsegments : ∀ segments ∈ found,
      nameSegments (artifactOf root segments).name = segments := by
    intro segments hmem
    obtain ⟨⟨hne, hids⟩, -⟩ := (h.mem_iff segments).mp hmem
    exact nameSegments_qualifiedName hne fun s hs => dot_not_mem_identifier (hids s hs)
  rw [← hsegments first hfirst, ← hsegments second hsecond]
  exact congrArg nameSegments hname

/-- What is found depends on the tree only by what is to be seen there. -/
theorem of_grows {t' : FileTree} (h : FoundBelow t opens root found) (hgrows : t.Grows t')
    (hback : t'.Grows t) : FoundBelow t' opens root found where
  mem_iff := by
    intro segments
    rw [h.mem_iff]
    apply and_congr_right
    intro _
    constructor
    · rintro ⟨position, henter, hbelow⟩
      exact ⟨position, hgrows.enterRoot henter, hgrows.liesBelow hbelow⟩
    · rintro ⟨position, henter, hbelow⟩
      exact ⟨position, hback.enterRoot henter, hback.liesBelow hbelow⟩
  sorted := h.sorted

end FoundBelow

end Root

/-! ## One root after the other -/

/-- What was yielded, and then what was found below a root, less the names that were yielded. -/
def yieldAfter (found : Path → List Artifact) (yielded : List Artifact) (root : Path) :
    List Artifact :=
  yielded ++ (found root).filter fun c => c.name ∉ yielded.map Artifact.name

/-- What the roots yield in turn. -/
def yieldInTurn (found : Path → List Artifact) (roots : List Path) : List Artifact :=
  roots.foldl (yieldAfter found) []

/-- Where no root holds a name twice, the artifacts that are not shadowed are those that the roots
yield in turn. -/
theorem append_unshadowed_flatMap {found : Path → List Artifact} {roots : List Path}
    (h : ∀ root ∈ roots, ((found root).map Artifact.name).Nodup) (yielded : List Artifact) :
    yielded ++ unshadowed (yielded.reverse.map Artifact.name) (roots.flatMap found) =
      roots.foldl (yieldAfter found) yielded := by
  induction roots generalizing yielded with
  | nil => exact List.append_nil _
  | cons root roots ih =>
    obtain ⟨hroot, hroots⟩ := List.forall_mem_cons.mp h
    have hfirst : yielded ++ unshadowed (yielded.reverse.map Artifact.name) (found root) =
        yieldAfter found yielded root := by
      rw [unshadowed_of_nodup _ hroot, yieldAfter]
      simp
    rw [List.flatMap_cons, List.foldl_cons, ← ih hroots, unshadowed_append, ← List.append_assoc,
      ← List.map_append, ← List.reverse_append, hfirst]

/-- The classes of a class path are what its roots yield in turn. -/
theorem classes_eq_yieldInTurn (cp : ClassPath) :
    cp.classes.1 =
      yieldInTurn (fun root => (segmentsUnder cp.tree root).map (artifactOf root)) cp.roots := by
  have hnodup : ∀ root ∈ cp.roots,
      (((segmentsUnder cp.tree root).map (artifactOf root)).map Artifact.name).Nodup :=
    fun root _ => (foundBelow_segmentsUnder cp.tree root).nodup_names
  rw [classes_fst, yieldInTurn, ← append_unshadowed_flatMap hnodup, List.nil_append]
  exact congrArg (unshadowed [] <| cp.roots.flatMap ·) (funext (artifactsUnder_eq cp.tree))

/-- A scan of any class path in any tree yields, root by root, the artifacts that lie below the
root in the order of their names, less the names that an earlier root yielded. No name comes twice,
and nothing else of the tree matters: where the same is to be seen at every place, in whatever order
the entries stand, the scan is the same. -/
theorem classes_listing (cp : ClassPath) :
    (∃ found : Path → List (List (List Char)),
      (∀ root, FoundBelow cp.tree Path.Short root (found root)) ∧
        cp.classes.1 = yieldInTurn (fun root => (found root).map (artifactOf root)) cp.roots) ∧
      (cp.classes.1.map Artifact.name).Nodup ∧
      ∀ t' : FileTree, t'.workingDir = cp.tree.workingDir →
        (∀ place, t'.sightAt place = cp.tree.sightAt place) →
          (⟨t', cp.roots⟩ : ClassPath).classes.1 = cp.classes.1 := by
  refine ⟨⟨segmentsUnder cp.tree, foundBelow_segmentsUnder cp.tree, classes_eq_yieldInTurn cp⟩,
    ?_, ?_⟩
  · rw [classes_fst]
    exact nodup_unshadowed [] _
  · intro t' hworkingDir hsight
    have hgrows : cp.tree.Grows t' := FileTree.grows_of_sightAt hworkingDir hsight
    have hback : t'.Grows cp.tree :=
      FileTree.grows_of_sightAt hworkingDir.symm fun place => (hsight place).symm
    have hsame : segmentsUnder t' = segmentsUnder cp.tree := by
      funext root
      exact ((foundBelow_segmentsUnder t' root).of_grows hback hgrows).eq
        (foundBelow_segmentsUnder cp.tree root)
    rw [classes_eq_yieldInTurn, classes_eq_yieldInTurn]
    dsimp only
    rw [hsame]

/-! ## A directory too deep to be descended -/

/-- A tree with one artifact, `d/s/B.class`. -/
def deepTree : FileTree :=
  ⟨.dir [(utf8Bytes "d", .dir [(utf8Bytes "s", .dir [(utf8Bytes "B.class", .file [])])])], []⟩

/-- The directory `d` with as many slashes as its path can hold. -/
def longRoot : Path :=
  ⟨utf8Bytes "d" ++ List.replicate 4094 slash⟩

theorem at?_deepTree :
    deepTree.top.at? [utf8Bytes "d"] =
      some (.dir [(utf8Bytes "s", .dir [(utf8Bytes "B.class", .file [])])]) := by
  rfl

theorem bytes_longRoot_ne_nil : longRoot.bytes ≠ [] :=
  List.append_ne_nil_of_left_ne_nil (by decide) _

theorem length_bytes_longRoot : longRoot.bytes.length = 4095 := by
  rw [longRoot, List.length_append, List.length_replicate]
  rfl

theorem enterRoot_longRoot : enterRoot deepTree longRoot = .ok ⟨40, [utf8Bytes "d"]⟩ := by
  have hcheck : FileTree.checkPath longRoot = .ok () := by
    refine FileTree.checkPath_eq_ok.mpr ⟨?_, ?_, bytes_longRoot_ne_nil⟩
    · intro h
      rcases List.mem_append.mp h with h | h
      · exact absurd h (by decide)
      · exact absurd (List.eq_of_mem_replicate h) (by decide)
    · rw [length_bytes_longRoot]
      decide
  have hstart : longRoot.start deepTree.workingDir = [] := by
    rw [Path.start]
    split <;> rfl
  have hsteps : (⟨utf8Bytes "d"⟩ : Path).bareSteps = [.enter (utf8Bytes "d")] := by
    decide +kernel
  refine FileTree.enterRoot_eq_ok.mpr ⟨FileTree.follow_eq_ok.mpr ⟨hcheck, ?_⟩, _, at?_deepTree⟩
  rw [FileTree.walk_steps_of_dir at?_deepTree, hstart, longRoot, Path.bareSteps_append_slashes,
    hsteps]
  have htop : deepTree.top.at? [] = some deepTree.top := rfl
  exact FileTree.walk_enter_of_dir htop rfl

/-- Below the directory the path is too long for the next one. -/
theorem not_liesBelow_longRoot (names : List Bytes) :
    ¬ deepTree.LiesBelow Path.Short longRoot [] [utf8Bytes "d"] [] names := by
  cases names with
  | nil => exact nofun
  | cons n rest =>
    rw [FileTree.LiesBelow.cons_iff, FileTree.sightAt_child at?_deepTree]
    by_cases hn : n = utf8Bytes "s"
    · subst hn
      rintro ⟨hshort, -⟩
      have hplain : Plain (utf8Bytes "s") := plain_of_isEntryName (by decide)
      have hlonger := Path.length_lt_child bytes_longRoot_ne_nil hplain
      rw [length_bytes_longRoot] at hlonger
      rw [Path.Short, Path.descend_concat, Path.descend, List.foldl_nil, maxPathLength] at hshort
      omega
    · have hchild : (Node.dir [(utf8Bytes "s", .dir [(utf8Bytes "B.class", .file [])])]).child? n =
          none := by
        simp [Node.child?, Node.entries, lookup_entry_cons, hn]
      rw [hchild]
      exact id

/-- The scan does not yield all that lies below its roots where every directory counts as one that
can be descended. -/
theorem not_listing_longRoot :
    ¬ ∃ found : Path → List (List (List Char)),
      (∀ root, FoundBelow deepTree (fun _ => True) root (found root)) ∧
        (⟨deepTree, [longRoot]⟩ : ClassPath).classes.1 =
          yieldInTurn (fun root => (found root).map (artifactOf root)) [longRoot] := by
  rintro ⟨found, hfound, hclasses⟩
  -- no class is yielded
  have hnone : segmentsUnder deepTree longRoot = [] := by
    rw [List.eq_nil_iff_forall_not_mem]
    intro segments hmem
    obtain ⟨-, position, henter, hbelow⟩ :=
      ((foundBelow_segmentsUnder deepTree longRoot).mem_iff segments).mp hmem
    cases enterRoot_longRoot.symm.trans henter
    exact not_liesBelow_longRoot _ hbelow
  -- though there is one below the root
  have hmem : [['s'], ['B']] ∈ found longRoot := by
    have hnames : artifactNames [['s'], ['B']] = [utf8Bytes "s", utf8Bytes "B.class"] := by
      decide +kernel
    rw [(hfound longRoot).mem_iff, hnames]
    exact ⟨by decide +kernel, _, enterRoot_longRoot, .dir rfl trivial (.file rfl)⟩
  have hempty : found longRoot = [] := by
    rw [classes_eq_yieldInTurn] at hclasses
    simpa [yieldInTurn, yieldAfter, hnone] using hclasses
  rw [hempty] at hmem
  cases hmem

end RoleWiring
