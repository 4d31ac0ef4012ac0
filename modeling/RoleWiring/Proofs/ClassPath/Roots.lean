import Mathlib.Data.List.Find
import RoleWiring.Proofs.RoleIndex.Exact
import RoleWiring.Proofs.Scan

/-!
# Class paths with other roots

A look-up tries the roots one after the other, and what it finds is all that it takes from
them. So the roots of a class path can be changed where no look-up sees the change: a root
that the scan rejects can be left out, unless its path is empty, and further roots at the
end redirect nothing that was found before.

* `isFile_join_of_rootFault?` — below a root that cannot be walked no look-up finds a file;
* `find?_filter`, `classes_filter` — look-ups and scans with roots left out;
* `find?_append`, `classes_append` — and with more of them;
* `lookUp_congr`, `lookUp_of_declares` — what is found decides what is declared;
* `Source.Extends` — a source that declares all that another one does.
-/

namespace RoleWiring

/-! ## Roots that are rejected -/

/-- The path that is looked up goes through the root by plain names. -/
theorem join_eq_descend (root : Path) {below : Path} {name : String}
    (hbelow : artifactPath? name = some below) :
    ∃ names, (∀ n ∈ names, Plain n) ∧ names ≠ [] ∧ root.join below = root.descend names := by
  obtain ⟨segments, hspells, rfl⟩ := artifactPath?_eq_some.mp hbelow
  exact ⟨_, hspells.plain, hspells.names_ne_nil, hspells.join root⟩

/-- Below a root that cannot be walked no look-up finds a file, unless the root is the empty
path. -/
theorem isFile_join_of_rootFault? {t : FileTree} {root below : Path} {name : String} {fault : Fault}
    (hroot : root.bytes ≠ []) (hfault : rootFault? t root = some fault)
    (hbelow : artifactPath? name = some below) : t.isFile (root.join below) = false := by
  obtain ⟨names, hplain, hnames, hjoin⟩ := join_eq_descend root hbelow
  rw [hjoin, Bool.eq_false_iff]
  intro hfile
  obtain ⟨-, position, henter, -⟩ := FileTree.of_isFile_descend hroot hplain hnames hfile
  rw [rootFault?, henter] at hfault
  cases hfault

/-- A root that cannot be walked has no artifacts below it. -/
theorem artifactsUnder_of_rootFault? {t : FileTree} {root : Path} {fault : Fault}
    (hfault : rootFault? t root = some fault) : artifactsUnder t root = [] := by
  rw [artifactsUnder]
  cases henter : enterRoot t root with
  | error e => rfl
  | ok position =>
    rw [rootFault?, henter] at hfault
    cases hfault

/-- The root that a fault is about. -/
def Fault.root? : Fault → Option Path
  | .rootMissing root => some root
  | .rootUnusable root _ => some root
  | _ => none

theorem root?_of_rootFault? {t : FileTree} {root : Path} {fault : Fault}
    (h : rootFault? t root = some fault) : fault.root? = some root := by
  rw [rootFault?, enterRoot] at h
  cases hfollow : t.follow root with
  | error e =>
    rw [hfollow] at h
    cases e <;> cases h <;> rfl
  | ok position =>
    rw [hfollow] at h
    rcases hat : t.top.at? position.place with _ | (_ | _ | es)
    all_goals
      simp only [hat] at h
      cases h
      try rfl

namespace ClassPath

variable {cp cp' : ClassPath} {name : String} {path : Path}

/-- The scan reports the root as missing or unusable. -/
def rejects (cp : ClassPath) (root : Path) : Bool :=
  cp.classes.2.any fun fault => fault.root? = some root

/-- The roots that are reported are those that cannot be walked. -/
theorem rejects_eq (cp : ClassPath) (root : Path) :
    cp.rejects root = (cp.roots.contains root && (rootFault? cp.tree root).isSome) := by
  rw [Bool.eq_iff_iff, Bool.and_eq_true, List.contains_iff_mem, Option.isSome_iff_exists]
  simp only [rejects, List.any_eq_true, classes_snd, List.mem_filterMap, decide_eq_true_eq]
  constructor
  · rintro ⟨fault, ⟨other, hmem, hfault⟩, hroot⟩
    cases (root?_of_rootFault? hfault).symm.trans hroot
    exact ⟨hmem, fault, hfault⟩
  · rintro ⟨hmem, fault, hfault⟩
    exact ⟨fault, ⟨root, hmem, hfault⟩, root?_of_rootFault? hfault⟩

/-! ## What is found -/

/-- Roots below which there is no file can be left out. -/
theorem find?_filter {t : FileTree} {roots : List Path} {kept : Path → Bool}
    (h : ∀ root ∈ roots, kept root = false →
      ∀ below, artifactPath? name = some below → t.isFile (root.join below) = false) :
    (⟨t, roots.filter kept⟩ : ClassPath).find? name = (⟨t, roots⟩ : ClassPath).find? name := by
  rw [find?, find?]
  cases hbelow : artifactPath? name with
  | none => rfl
  | some below =>
    show ((roots.filter kept).map (·.join below)).find? t.isFile =
      (roots.map (·.join below)).find? t.isFile
    rw [List.find?_map, List.find?_map, List.find?_filter]
    congr 1
    refine List.find?_congr fun root hroot => ?_
    cases hkept : kept root with
    | true => simp
    | false => simp [h root hroot hkept below hbelow]

/-- Roots below which there are no artifacts can be left out of a scan. -/
theorem classes_filter {t : FileTree} {roots : List Path} {kept : Path → Bool}
    (h : ∀ root ∈ roots, kept root = false → artifactsUnder t root = []) :
    (⟨t, roots.filter kept⟩ : ClassPath).classes.1 = (⟨t, roots⟩ : ClassPath).classes.1 := by
  rw [classes_fst, classes_fst]
  refine congrArg (unshadowed []) ?_
  show (roots.filter kept).flatMap (artifactsUnder t) = roots.flatMap (artifactsUnder t)
  induction roots with
  | nil => rfl
  | cons root roots ih =>
    obtain ⟨hroot, hroots⟩ := List.forall_mem_cons.mp h
    rw [List.filter_cons, List.flatMap_cons]
    cases hkept : kept root with
    | true =>
      rw [if_pos rfl, List.flatMap_cons, ih hroots]
    | false =>
      rw [if_neg Bool.false_ne_true, hroot hkept, ih hroots]
      rfl

/-- The first root is tried first. -/
theorem find?_cons_of_read {t : FileTree} {root below : Path} (roots : List Path) {content : Bytes}
    (hbelow : artifactPath? name = some below) (hread : t.read (root.join below) = .ok content) :
    (⟨t, root :: roots⟩ : ClassPath).find? name = some (root.join below) := by
  rw [find?, hbelow]
  exact List.find?_cons_of_pos (FileTree.isFile_of_read hread)

/-- Where it has nothing the others are tried. -/
theorem find?_cons_of_not_isFile {t : FileTree} {root below : Path} (roots : List Path)
    (hbelow : artifactPath? name = some below) (hnot : t.isFile (root.join below) = false) :
    (⟨t, root :: roots⟩ : ClassPath).find? name = (⟨t, roots⟩ : ClassPath).find? name := by
  rw [find?, find?, hbelow]
  exact List.find?_cons_of_neg (Bool.eq_false_iff.mp hnot)

/-- Further roots at the end are tried where the others have nothing. -/
theorem find?_append (t : FileTree) (roots more : List Path) (name : String) :
    (⟨t, roots ++ more⟩ : ClassPath).find? name =
      ((⟨t, roots⟩ : ClassPath).find? name).or ((⟨t, more⟩ : ClassPath).find? name) := by
  rw [find?, find?, find?]
  cases artifactPath? name with
  | none => rfl
  | some below =>
    show ((roots ++ more).map (·.join below)).find? t.isFile = _
    rw [List.map_append, List.find?_append]
    rfl

/-- With further roots at the end a scan begins as it did without them. -/
theorem classes_append (t : FileTree) (roots more : List Path) :
    (⟨t, roots⟩ : ClassPath).classes.1 <+: (⟨t, roots ++ more⟩ : ClassPath).classes.1 := by
  rw [classes_fst, classes_fst]
  show unshadowed [] (roots.flatMap (artifactsUnder t)) <+:
    unshadowed [] ((roots ++ more).flatMap (artifactsUnder t))
  rw [List.flatMap_append, unshadowed_append]
  exact List.prefix_append _ _

/-- What is found of a type decides what is declared. -/
theorem lookUp_congr (hfind : cp'.find? name = cp.find? name) (htree : cp'.tree = cp.tree) :
    cp'.lookUp name = cp.lookUp name := by
  rw [lookUp, lookUp, hfind, htree]

/-- A look-up that finds a usable artifact succeeds if that declares a type of this name. -/
theorem lookUp_of_declares {content : Bytes} {d : Declaration}
    (hread : cp.tree.read path = .ok content) (hparse : Declaration.ofBytes content = .ok d)
    (hfind : cp.find? name = some path) :
    cp.lookUp name = if d.name = name then .ok d
      else .error (.typeMalformed name path (.declares d.name)) := by
  simp only [lookUp, hfind, hread, hparse]

/-- Class paths on which every look-up finds the same are the same source. -/
theorem asSource_congr (hfind : ∀ name, cp'.find? name = cp.find? name)
    (htree : cp'.tree = cp.tree) :
    cp'.asSource = cp.asSource :=
  Source.ext (funext fun name => lookUp_congr (hfind name) htree)

/-- A type is not on the class path exactly if no artifact of it is found. -/
theorem lacks_iff : cp.asSource.Lacks name ↔ cp.find? name = none := by
  show (∃ n, cp.lookUp name = .error (.typeMissing n)) ↔ _
  rw [lookUp]
  cases hfind : cp.find? name with
  | none => simp
  | some artifact =>
    dsimp only
    cases cp.tree.read artifact with
    | error e => simp
    | ok content =>
      dsimp only
      cases Declaration.ofBytes content with
      | error refusal => simp
      | ok d =>
        dsimp only
        split <;> simp

end ClassPath

/-! ## Sources that declare more -/

/-- Whatever the first source declares the second one declares alike, and it lacks nothing that the
first one has. -/
structure Source.Extends (src src' : Source) : Prop where
  /-- declarations are kept -/
  lookUp : ∀ name d, src.lookUp name = .ok d → src'.lookUp name = .ok d
  /-- what is there stays there -/
  lacks : ∀ name, src'.Lacks name → src.Lacks name

namespace Source.Extends

variable {src src' : Source}

/-- What is above a type stays above it. -/
theorem above (h : src.Extends src') {x y : String} (habove : src.Above x y) : src'.Above x y := by
  induction habove with
  | refl => exact .refl
  | tail _ hbelow ih =>
    obtain ⟨d, hd, hy⟩ := hbelow
    exact ih.tail ⟨d, h.lookUp _ d hd, hy⟩

/-- A candidate that implements a type still does, and is of the same kind. -/
theorem implementationOf?_eq_some (h : src.Extends src') {type : String} {c : Artifact}
    {i : Implementation} (hi : implementationOf? src type c = some i) :
    implementationOf? src' type c = some i := by
  obtain ⟨d, hlookUp, habove, rfl⟩ := RoleWiring.implementationOf?_eq_some.mp hi
  exact RoleWiring.implementationOf?_eq_some.mpr ⟨d, h.lookUp c.name d hlookUp, h.above habove, rfl⟩

/-- Of more candidates, with a source that declares more, more implement a role: those that did
before are among them, in the same order. -/
theorem sublist_implementationsOf (h : src.Extends src') {candidates candidates' : List Artifact}
    (hcandidates : candidates.Sublist candidates') (role : Role) :
    (implementationsOf src candidates role).members.Sublist
      (implementationsOf src' candidates' role).members := by
  have hmore : ∀ l : List Artifact, (l.filterMap (implementationOf? src role.type)).Sublist
      (l.filterMap (implementationOf? src' role.type)) := by
    intro l
    induction l with
    | nil => exact List.Sublist.refl _
    | cons c rest ih =>
      cases hc : implementationOf? src role.type c with
      | none =>
        rw [List.filterMap_cons_none hc]
        exact ih.trans ((List.sublist_cons_self c rest).filterMap _)
      | some i =>
        rw [List.filterMap_cons_some hc,
          List.filterMap_cons_some (h.implementationOf?_eq_some hc)]
        exact ih.cons_cons i
  rw [implementationsOf, implementationsOf]
  split
  · exact List.nil_sublist _
  · next hlacks =>
    rw [if_neg (mt (h.lacks role.type) hlacks)]
    exact (hmore candidates).trans (hcandidates.filterMap _)

end Source.Extends

/-- Further roots at the end leave everything that was declared as it was. -/
theorem ClassPath.extends_append (t : FileTree) (roots more : List Path) :
    (⟨t, roots⟩ : ClassPath).asSource.Extends (⟨t, roots ++ more⟩ : ClassPath).asSource where
  lookUp := by
    intro name d h
    obtain ⟨artifact, content, hfind, -⟩ := exists_read_of_lookUp h
    have hsame : (⟨t, roots ++ more⟩ : ClassPath).find? name =
        (⟨t, roots⟩ : ClassPath).find? name := by
      rw [find?_append, hfind]
      rfl
    exact (lookUp_congr hsame rfl).trans h
  lacks := by
    intro name h
    rw [lacks_iff] at h ⊢
    rw [find?_append, Option.or_eq_none_iff] at h
    exact h.1

end RoleWiring
