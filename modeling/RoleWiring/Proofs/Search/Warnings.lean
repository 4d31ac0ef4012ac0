import RoleWiring.Proofs.ClassPath.Roots
import RoleWiring.Proofs.FileTree.Descent
import RoleWiring.Proofs.RoleIndex.Reports
import RoleWiring.Proofs.Search

/-!
# Warnings

What a run warns about, and in which order: the roots that cannot be walked, then the roles
whose types cannot be used, then the classes that were left out. No class gets lost. Where
paths are short enough to be followed, every class that was scanned is found again under
its name, so it has a declaration or is reported as malformed, once, although it may be the
type of roles as well.

* `exists_find?_of_mem_classes` — what was scanned is found again;
* `lookUp_eq_error` — the two reasons why a type has no declaration;
* `warnings_run` — all warnings in their order;
* `run_warnings` — no class is lost, and none is reported twice.
-/

namespace RoleWiring

/-! ## What was scanned is found again -/

/-- An artifact below a root whose path can be followed is where a look-up looks for it. -/
theorem isFile_of_mem_artifactsUnder {t : FileTree} {root : Path} {c : Artifact}
    (hc : c ∈ artifactsUnder t root) (hfit : c.path.bytes.length < maxPathLength) :
    ∃ below, artifactPath? c.name = some below ∧ t.isFile (root.join below) = true := by
  obtain ⟨position, es, names, henter, hat, hnames, hpath, hname⟩ := mem_artifactsUnder_iff.mp hc
  have hreached := FileTree.reached_of_enterRoot henter
  -- a link that leads back may have been passed over, but what was found can be reached
  have hleads := ((FileTree.mem_filesBelow_iff hreached hat).mp hnames).leadsToFile hreached
  rw [hpath] at hfit
  obtain ⟨below, hbelow, hjoin, hfile⟩ := isFile_join_of_leadsToFile hreached.root_ne henter
    (FileTree.isEntryName_of_mem_filesBelow hnames) hfit hleads hname
  exact ⟨below, hbelow, hjoin ▸ hfile⟩

namespace ClassPath

variable {cp : ClassPath} {name : String} {fault : Fault}

/-- Every class that was scanned is found under its name. -/
theorem exists_find?_of_mem_classes (hfit : ∀ root ∈ cp.roots, PathsFit cp.tree root) {c : Artifact}
    (hc : c ∈ cp.classes.1) : ∃ path, cp.find? c.name = some path := by
  rw [classes_fst, mem_unshadowed] at hc
  obtain ⟨root, hroot, hmem⟩ := List.mem_flatMap.mp (List.mem_of_find?_eq_some hc.2)
  obtain ⟨below, hbelow, hfile⟩ := isFile_of_mem_artifactsUnder hmem (hfit root hroot c hmem)
  have hsome : ((cp.roots.map (·.join below)).find? cp.tree.isFile).isSome := by
    rw [List.find?_isSome]
    exact ⟨_, List.mem_map_of_mem hroot, hfile⟩
  rw [find?, hbelow]
  exact Option.isSome_iff_exists.mp hsome

/-- A type has no declaration because no artifact of it is found, or because the one that is found
is malformed. -/
theorem lookUp_eq_error (h : cp.lookUp name = .error fault) :
    cp.find? name = none ∧ fault = .typeMissing name ∨
      ∃ artifact malformation, cp.find? name = some artifact ∧
        fault = .typeMalformed name artifact malformation := by
  rw [lookUp] at h
  cases hfind : cp.find? name with
  | none =>
    rw [hfind] at h
    cases h
    exact .inl ⟨rfl, rfl⟩
  | some artifact =>
    refine .inr ⟨artifact, ?_⟩
    rw [hfind] at h
    dsimp only at h
    split at h
    · cases h
      exact ⟨_, rfl, rfl⟩
    · split at h
      · cases h
        exact ⟨_, rfl, rfl⟩
      · split at h
        · cases h
        · cases h
          exact ⟨_, rfl, rfl⟩

/-- What is wrong with the type of a role. A type that was scanned is left to the classes. -/
def roleFault? (cp : ClassPath) (role : Role) : Option Fault :=
  match cp.lookUp role.type with
  | .ok _ => none
  | .error (.typeMissing _) => some (.roleTypeMissing role.name role.type)
  | .error fault => if role.type ∈ cp.classes.1.map Artifact.name then none else some fault

/-- Why a class is left out, if it is. -/
def exclusion? (cp : ClassPath) (c : Artifact) : Option Fault :=
  match cp.lookUp c.name with
  | .ok _ => none
  | .error fault => some fault

theorem exclusion?_eq_some {c : Artifact} :
    cp.exclusion? c = some fault ↔ cp.lookUp c.name = .error fault := by
  rw [exclusion?]
  cases cp.lookUp c.name <;> simp

/-- A role is warned about because its type is not there, or because it is malformed and was not
scanned. -/
theorem roleFault?_eq_some {role : Role} (h : cp.roleFault? role = some fault) :
    fault = .roleTypeMissing role.name role.type ∨
      role.type ∉ cp.classes.1.map Artifact.name ∧
        ∃ artifact malformation, fault = .typeMalformed role.type artifact malformation := by
  rw [roleFault?] at h
  cases hlookUp : cp.lookUp role.type with
  | ok d =>
    rw [hlookUp] at h
    cases h
  | error cause =>
    rw [hlookUp] at h
    rcases lookUp_eq_error hlookUp with ⟨-, rfl⟩ | ⟨artifact, malformation, -, rfl⟩
    · cases h
      exact .inl rfl
    · obtain ⟨hscanned, hfault⟩ := Option.ite_none_left_eq_some.mp h
      cases hfault
      exact .inr ⟨hscanned, artifact, malformation, rfl⟩

/-- A class that was scanned is left out because it is malformed. -/
theorem exclusion?_eq_typeMalformed (hfit : ∀ root ∈ cp.roots, PathsFit cp.tree root) {c : Artifact}
    (hc : c ∈ cp.classes.1) (h : cp.exclusion? c = some fault) :
    ∃ artifact malformation, fault = .typeMalformed c.name artifact malformation := by
  obtain ⟨path, hfind⟩ := exists_find?_of_mem_classes hfit hc
  have hlookUp := exclusion?_eq_some.mp h
  rcases lookUp_eq_error hlookUp with ⟨hnone, -⟩ | ⟨artifact, malformation, -, rfl⟩
  · cases hnone.symm.trans hfind
  · exact ⟨artifact, malformation, rfl⟩

end ClassPath

/-! ## Faults that are reported -/

namespace Fault

/-- The fault is of a sort that a run reports: of a root, of the type of a role, or of a malformed
type. -/
def isReported : Fault → Bool
  | rootMissing _ | rootUnusable _ _ | roleTypeMissing _ _ | typeMalformed _ _ _ => true
  | _ => false

/-- The fault says that the type of this name is malformed. -/
def isMalformed (name : String) : Fault → Bool
  | typeMalformed n _ _ => n = name
  | _ => false

end Fault

/-- What keeps a root from being walked is a fault of the root. -/
theorem rootFault?_eq_some {t : FileTree} {root : Path} {fault : Fault}
    (h : rootFault? t root = some fault) :
    fault = .rootMissing root ∨ ∃ obstacle, fault = .rootUnusable root obstacle := by
  have hroot := root?_of_rootFault? h
  cases fault with
  | rootMissing r =>
    cases hroot
    exact .inl rfl
  | rootUnusable r obstacle =>
    cases hroot
    exact .inr ⟨obstacle, rfl⟩
  | _ => cases hroot

/-! ## The warnings of a run -/

namespace Search

/-- The warnings of a run: the roots that cannot be walked, each time that they are listed, then the
roles whose types cannot be used, then the classes that are left out, each in their order. -/
theorem warnings_run (search : Search) (t : FileTree) :
    (search.run t).warnings =
      search.config.classPath.filterMap (rootFault? t) ++
        (search.config.roleList.filterMap (search.classPath t).roleFault? ++
          (search.classPath t).classes.1.filterMap (search.classPath t).exclusion?) := by
  have hroles : ∀ role ∈ search.config.roleList,
      (RoleIndex.activateDirect (search.classPath t).asSource
        ((search.classPath t).classes.1.map Artifact.name) role).warning =
        (search.classPath t).roleFault? role := by
    intro role _
    rw [RoleIndex.activateDirect, ClassPath.roleFault?]
    show (match (search.classPath t).lookUp role.type with
      | .ok _ => _
      | .error (.typeMissing _) => _
      | .error _ => _ : Activation).warning = _
    rcases (search.classPath t).lookUp role.type with fault | d
    · cases fault <;> rfl
    · rfl
  rw [run_eq]
  dsimp only
  rw [warnings_indexDirect, classes_snd, List.filterMap_congr hroles]
  rfl

end Search

/-- Of classes without a repeated name, one that alone gives something gives all of it. -/
theorem filterMap_eq_toList {classes : List Artifact} {c : Artifact} {f : Artifact → Option β}
    (hnodup : (classes.map Artifact.name).Nodup) (hc : c ∈ classes)
    (hnone : ∀ d ∈ classes, d.name ≠ c.name → f d = none) :
    classes.filterMap f = (f c).toList := by
  induction classes with
  | nil => cases hc
  | cons d rest ih =>
    obtain ⟨hd, hrest⟩ := List.nodup_cons.mp hnodup
    obtain ⟨hfirst, hothers⟩ := List.forall_mem_cons.mp hnone
    rcases List.mem_cons.mp hc with rfl | hc
    · have hnil : rest.filterMap f = [] := by
        rw [List.filterMap_eq_nil_iff]
        intro e he
        apply hothers e he
        intro heq
        exact hd (heq ▸ List.mem_map_of_mem he)
      rw [List.filterMap_cons, hnil]
      cases f c <;> rfl
    · have hne : d.name ≠ c.name := by
        intro heq
        exact hd (heq ▸ List.mem_map_of_mem hc)
      rw [List.filterMap_cons_none (hfirst hne)]
      exact ih hrest hc hothers

namespace Search

variable {search : Search} {t : FileTree} {c : Artifact}

/-- The warnings that a scanned class is malformed are those of its exclusion. -/
theorem filter_isMalformed_run (hfit : ∀ root ∈ search.config.classPath, PathsFit t root)
    (hc : c ∈ (search.classPath t).classes.1) :
    (search.run t).warnings.filter (Fault.isMalformed c.name) =
      ((search.classPath t).exclusion? c).toList := by
  have hroots : (search.config.classPath.filterMap (rootFault? t)).filter
      (Fault.isMalformed c.name) = [] := by
    rw [List.filter_eq_nil_iff]
    intro fault hmem
    obtain ⟨root, -, hfault⟩ := List.mem_filterMap.mp hmem
    rcases rootFault?_eq_some hfault with rfl | ⟨obstacle, rfl⟩
    · exact Bool.false_ne_true
    · exact Bool.false_ne_true
  have hroles : (search.config.roleList.filterMap (search.classPath t).roleFault?).filter
      (Fault.isMalformed c.name) = [] := by
    rw [List.filter_eq_nil_iff]
    intro fault hmem hmalformed
    obtain ⟨role, -, hfault⟩ := List.mem_filterMap.mp hmem
    rcases ClassPath.roleFault?_eq_some hfault with rfl | ⟨hscanned, artifact, malformation, rfl⟩
    · cases hmalformed
    · -- the role would have to be that of the class, but then it is left to the class
      have hname : role.type = c.name := of_decide_eq_true hmalformed
      exact hscanned (hname ▸ List.mem_map_of_mem hc)
  have hnodup : ((search.classPath t).classes.1.map Artifact.name).Nodup := by
    rw [classes_fst]
    exact nodup_unshadowed [] _
  have hmalformed : ∀ d ∈ (search.classPath t).classes.1, ∀ fault,
      (search.classPath t).exclusion? d = some fault →
        fault.isMalformed c.name = decide (d.name = c.name) := by
    intro d hd fault hfault
    obtain ⟨artifact, malformation, rfl⟩ :=
      ClassPath.exclusion?_eq_typeMalformed hfit hd hfault
    rfl
  rw [warnings_run, List.filter_append, List.filter_append, hroots, hroles, List.nil_append,
    List.nil_append, List.filter_filterMap, filterMap_eq_toList hnodup hc]
  · cases hfault : (search.classPath t).exclusion? c with
    | none => rfl
    | some fault => simp [hmalformed c hc fault hfault]
  · intro d hd hne
    cases hfault : (search.classPath t).exclusion? d with
    | none => rfl
    | some fault => simp [hmalformed d hd fault hfault, hne]

/-- Whatever is on the class path, and links that lead in circles are allowed, a run warns about
roots, about types of roles and about malformed types, in this order and each in their own, and ends
with a report. Where paths are short enough to be followed, a class that was scanned has a
declaration, and no warning says that it is malformed, or it has none, and then exactly one warning
says so and it is in no set, whether or not it is the type of roles. -/
theorem run_warnings (search : Search) (t : FileTree)
    (hfit : ∀ root ∈ search.config.classPath, PathsFit t root) :
    (search.run t).warnings =
        search.config.classPath.filterMap (rootFault? t) ++
          (search.config.roleList.filterMap (search.classPath t).roleFault? ++
            (search.classPath t).classes.1.filterMap (search.classPath t).exclusion?) ∧
      (∀ fault ∈ (search.run t).warnings, fault.isReported = true ∧ fault.endsRun = false) ∧
      ∀ c ∈ (search.classPath t).classes.1,
        (∃ d, (search.classPath t).lookUp c.name = .ok d ∧
          (search.run t).warnings.filter (Fault.isMalformed c.name) = []) ∨
        ∃ artifact malformation,
          (search.classPath t).lookUp c.name =
              .error (.typeMalformed c.name artifact malformation) ∧
            (search.run t).warnings.filter (Fault.isMalformed c.name) =
              [.typeMalformed c.name artifact malformation] ∧
            ∀ role set, (search.run t).implementations.get? role = some set →
              c.name ∉ set.names := by
  refine ⟨warnings_run search t, ?_, ?_⟩
  · intro fault hmem
    rw [warnings_run] at hmem
    rcases List.mem_append.mp hmem with hroot | hmem
    · obtain ⟨root, -, hfault⟩ := List.mem_filterMap.mp hroot
      rcases rootFault?_eq_some hfault with rfl | ⟨obstacle, rfl⟩
      · exact ⟨rfl, rfl⟩
      · exact ⟨rfl, rfl⟩
    rcases List.mem_append.mp hmem with hrole | hclass
    · obtain ⟨role, -, hfault⟩ := List.mem_filterMap.mp hrole
      rcases ClassPath.roleFault?_eq_some hfault with rfl | ⟨-, artifact, malformation, rfl⟩
      · exact ⟨rfl, rfl⟩
      · exact ⟨rfl, rfl⟩
    · obtain ⟨d, hd, hfault⟩ := List.mem_filterMap.mp hclass
      obtain ⟨artifact, malformation, rfl⟩ :=
        ClassPath.exclusion?_eq_typeMalformed hfit hd hfault
      exact ⟨rfl, rfl⟩
  · intro c hc
    rw [filter_isMalformed_run hfit hc]
    cases hlookUp : (search.classPath t).lookUp c.name with
    | ok d =>
      refine .inl ⟨d, rfl, ?_⟩
      rw [ClassPath.exclusion?, hlookUp]
      rfl
    | error fault =>
      have hexclusion := ClassPath.exclusion?_eq_some.mpr hlookUp
      obtain ⟨artifact, malformation, rfl⟩ :=
        ClassPath.exclusion?_eq_typeMalformed hfit hc hexclusion
      refine .inr ⟨artifact, malformation, rfl, ?_, ?_⟩
      · rw [hexclusion]
        rfl
      · -- a member of a set has a declaration
        intro role set hset hmem
        obtain ⟨type, -, rfl⟩ := eq_implementationsOf_of_get? hset
        obtain ⟨i, hi, hname⟩ := List.mem_map.mp hmem
        obtain ⟨-, -, d, hd, -, -⟩ := mem_implementationsOf.mp hi
        rw [hname] at hd
        cases hd.symm.trans hlookUp

/-- A directory with an empty artifact and a link that leads back to the directory. -/
def loopTree : FileTree :=
  ⟨.dir [(utf8Bytes "cp", .dir [(utf8Bytes "X.class", .file []),
    (utf8Bytes "loop", .link (.ofString "."))])], []⟩

/-- A search over a root that is not there and the directory, with two roles of the type of the
artifact. -/
def loopSearch : Search where
  config := ⟨[.ofString "gone", .ofString "cp"], .ofList [("A", "X"), ("B", "X"), ("C", "Y")],
    .ofString "services.json"⟩
  valid := by rfl

theorem artifactsUnder_loopTree :
    artifactsUnder loopTree (.ofString "cp") = [⟨"X", .ofString "cp/X.class"⟩] := by
  have henter : enterRoot loopTree (.ofString "cp") = .ok ⟨maxLinks, [utf8Bytes "cp"]⟩ :=
    FileTree.enterRoot_of_at? [utf8Bytes "cp"] rfl rfl rfl
  have hat : loopTree.top.at? [utf8Bytes "cp"] =
      some (.dir [(utf8Bytes "X.class", .file []), (utf8Bytes "loop", .link (.ofString "."))]) :=
    rfl
  have hwalk : loopTree.walk 39 [utf8Bytes "cp"] [.stay] = .ok ⟨39, [utf8Bytes "cp"]⟩ := by
    rw [FileTree.walk, FileTree.dirAt_of_at? hat]
    · dsimp only
      rw [FileTree.walk]
    · intro name h
      cases h
    · intro h
      cases h
  have hloop : loopTree.entryFiles (.ofString "cp") maxLinks [utf8Bytes "cp"] []
      (.dir [(utf8Bytes "X.class", .file []), (utf8Bytes "loop", .link (.ofString "."))])
      (utf8Bytes "loop") = [] :=
    FileTree.entryFiles_of_link_back rfl hwalk hat (List.mem_singleton_self _)
  have hfiles : loopTree.filesBelow (.ofString "cp") maxLinks [utf8Bytes "cp"] []
      (.dir [(utf8Bytes "X.class", .file []), (utf8Bytes "loop", .link (.ofString "."))]) =
      [[utf8Bytes "X.class"]] := by
    rw [FileTree.filesBelow_eq]
    show [utf8Bytes "X.class"] :: (loopTree.entryFiles _ _ _ _ _ (utf8Bytes "loop") ++ []) = _
    rw [hloop]
    rfl
  exact artifactsUnder_of_enterRoot henter hat hfiles

theorem artifactsUnder_gone_loopTree : artifactsUnder loopTree (.ofString "gone") = [] :=
  artifactsUnder_of_follow_error (FileTree.follow_of_none [] rfl rfl rfl rfl rfl)

theorem pathsFit_loopTree :
    ∀ root ∈ loopSearch.config.classPath, PathsFit loopTree root := by
  refine List.forall_mem_cons.mpr ⟨?_, List.forall_mem_singleton.mpr ?_⟩
  · intro c hc
    rw [artifactsUnder_gone_loopTree] at hc
    cases hc
  · intro c hc
    rw [artifactsUnder_loopTree] at hc
    cases List.mem_singleton.mp hc
    decide

/-- The artifact is reported once, for the class and not for the roles. -/
theorem run_warnings_loopTree :
    (loopSearch.run loopTree).warnings.filter (Fault.isMalformed "X") =
      [.typeMalformed "X" (.ofString "cp/X.class") (.refused (.truncatedHeader 0))] := by
  have hmem : ⟨"X", .ofString "cp/X.class"⟩ ∈ (loopSearch.classPath loopTree).classes.1 := by
    rw [classes_fst]
    show _ ∈ unshadowed [] ([.ofString "gone", .ofString "cp"].flatMap (artifactsUnder loopTree))
    rw [List.flatMap_cons, List.flatMap_cons, artifactsUnder_gone_loopTree, artifactsUnder_loopTree]
    exact List.mem_singleton_self _
  have hlookUp : (loopSearch.classPath loopTree).lookUp "X" =
      .error (.typeMalformed "X" (.ofString "cp/X.class") (.refused (.truncatedHeader 0))) := by
    have hbelow : artifactPath? "X" = some (.ofString "X.class") := by decide
    have hread : (loopSearch.classPath loopTree).tree.read (.ofString "cp/X.class") = .ok [] :=
      FileTree.read_of_at? [utf8Bytes "cp", utf8Bytes "X.class"] rfl rfl rfl
    have hmissing : loopTree.isFile (.ofString "gone/X.class") = false :=
      FileTree.isFile_of_follow_error (FileTree.follow_of_none [] rfl rfl rfl rfl rfl)
    have hfind : (loopSearch.classPath loopTree).find? "X" = some (.ofString "cp/X.class") :=
      (ClassPath.find?_cons_of_not_isFile _ hbelow hmissing).trans
        (ClassPath.find?_cons_of_read [] hbelow hread)
    rw [ClassPath.lookUp, hfind]
    dsimp only
    rw [hread]
    rfl
  rcases (run_warnings loopSearch loopTree pathsFit_loopTree).2.2 _ hmem with
    ⟨d, hd, -⟩ | ⟨artifact, malformation, hfault, honce, -⟩
  · cases hlookUp.symm.trans hd
  · cases hlookUp.symm.trans hfault
    exact honce

end Search

end RoleWiring
