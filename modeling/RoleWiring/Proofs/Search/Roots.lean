import RoleWiring.Proofs.ClassPath.Roots
import RoleWiring.Proofs.Search

/-!
# Searches over other roots

What a run reports when the roots of its class path change. A root that the scan rejects
has no part in the report, so it makes no difference if it is left out; only the empty
path is rejected by the scan and yet searched by look-ups, which take it for the working
directory. A further root at the end adds to the report and takes nothing away.

* `run_sparedRoots` — rejected roots are left out;
* `run_addRoot` — a root is added at the end.
-/

namespace RoleWiring

namespace Search

/-- The search over other roots. -/
def withRoots (search : Search) (roots : List Path) (h : roots ≠ []) : Search where
  config := { search.config with classPath := roots }
  valid := by
    have hvalid := search.valid
    rw [Configuration.accept] at hvalid ⊢
    split at hvalid
    · cases hvalid
    · rw [if_neg h]
      exact hvalid

/-! ## Roots that are left out -/

/-- The roots that the scan does not reject, and the empty path. -/
def sparedRoots (search : Search) (t : FileTree) : List Path :=
  search.config.classPath.filter fun root =>
    root.bytes = [] || !(search.classPath t).rejects root

/-- What is not spared cannot be walked and is spelled out. -/
theorem rootFault?_of_not_spared {search : Search} {t : FileTree} {root : Path}
    (h : (root.bytes = [] || !(search.classPath t).rejects root) = false) :
    root.bytes ≠ [] ∧ ∃ fault, rootFault? t root = some fault := by
  rw [Bool.or_eq_false_iff, decide_eq_false_iff_not, Bool.not_eq_false', ClassPath.rejects_eq,
    Bool.and_eq_true, Option.isSome_iff_exists] at h
  exact ⟨h.1, h.2.2⟩

/-- Roots that the scan rejects can be left out, apart from the empty path: every look-up finds
what it found before, and a run reports the same implementations. -/
theorem run_sparedRoots (search : Search) (t : FileTree) (h : search.sparedRoots t ≠ []) :
    (∀ name, ((search.withRoots (search.sparedRoots t) h).classPath t).find? name =
        (search.classPath t).find? name) ∧
      ((search.withRoots (search.sparedRoots t) h).run t).implementations =
        (search.run t).implementations := by
  have hfind : ∀ name, ((search.withRoots (search.sparedRoots t) h).classPath t).find? name =
      (search.classPath t).find? name := by
    intro name
    refine ClassPath.find?_filter fun root _ hnot below hbelow => ?_
    obtain ⟨hroot, fault, hfault⟩ := rootFault?_of_not_spared hnot
    exact isFile_join_of_rootFault? hroot hfault hbelow
  have hclasses : ((search.withRoots (search.sparedRoots t) h).classPath t).classes.1 =
      (search.classPath t).classes.1 := by
    refine ClassPath.classes_filter fun root _ hnot => ?_
    obtain ⟨-, fault, hfault⟩ := rootFault?_of_not_spared hnot
    exact artifactsUnder_of_rootFault? hfault
  refine ⟨hfind, Roster.ext ?_⟩
  rw [entries_run, entries_run, hclasses, ClassPath.asSource_congr hfind rfl]
  rfl

/-- Files with an artifact in the working directory and an empty directory. -/
def workingDirTree : FileTree :=
  ⟨.dir [(utf8Bytes "X.class", .file []), (utf8Bytes "cp", .dir [])], []⟩

/-- A search over a root that is not there, the empty path and a directory. -/
def emptyRootSearch : Search where
  config := ⟨[.ofString "gone", .ofString "", .ofString "cp"], .ofList [("R", "X")],
    .ofString "services.json"⟩
  valid := by rfl

theorem rejects_gone_emptyRootSearch :
    (emptyRootSearch.classPath workingDirTree).rejects (.ofString "gone") = true := by
  have hfault : rootFault? workingDirTree (.ofString "gone") =
      some (.rootMissing (.ofString "gone")) := by
    rw [rootFault?,
      FileTree.enterRoot_of_follow (FileTree.follow_of_none [] rfl rfl rfl rfl rfl)]
  rw [ClassPath.rejects_eq]
  exact congrArg Option.isSome hfault

theorem rejects_empty_emptyRootSearch :
    (emptyRootSearch.classPath workingDirTree).rejects (.ofString "") = true := by
  rw [ClassPath.rejects_eq]
  rfl

theorem rejects_dir_emptyRootSearch :
    (emptyRootSearch.classPath workingDirTree).rejects (.ofString "cp") = false := by
  have henter : enterRoot workingDirTree (.ofString "cp") = .ok ⟨maxLinks, [utf8Bytes "cp"]⟩ :=
    FileTree.enterRoot_of_at? [utf8Bytes "cp"] rfl rfl rfl
  have hnone : rootFault? workingDirTree (.ofString "cp") = none := by
    rw [rootFault?, henter]
  rw [ClassPath.rejects_eq]
  exact congrArg Option.isSome hnone

theorem sparedRoots_emptyRootSearch :
    emptyRootSearch.sparedRoots workingDirTree = [.ofString "", .ofString "cp"] := by
  show [Path.ofString "gone", .ofString "", .ofString "cp"].filter _ = _
  simp only [List.filter_cons, List.filter_nil, rejects_gone_emptyRootSearch,
    rejects_dir_emptyRootSearch]
  rfl

/-- The root that is not there makes no difference. -/
theorem run_sparedRoots_emptyRootSearch :
    ∃ h : emptyRootSearch.sparedRoots workingDirTree ≠ [],
      ((emptyRootSearch.withRoots (emptyRootSearch.sparedRoots workingDirTree) h).run
          workingDirTree).implementations =
        (emptyRootSearch.run workingDirTree).implementations :=
  have h : emptyRootSearch.sparedRoots workingDirTree ≠ [] := by
    rw [sparedRoots_emptyRootSearch]
    exact List.cons_ne_nil _ _
  ⟨h, (run_sparedRoots emptyRootSearch workingDirTree h).2⟩

/-- The empty path does: the scan rejects it, and with all rejected roots left out a type is not
found that was found in the working directory before. -/
theorem find?_emptyRootSearch :
    (emptyRootSearch.classPath workingDirTree).rejects (.ofString "") = true ∧
      emptyRootSearch.config.classPath.filter
          (fun root => !(emptyRootSearch.classPath workingDirTree).rejects root) =
        [.ofString "cp"] ∧
      (emptyRootSearch.classPath workingDirTree).find? "X" = some (.ofString "X.class") ∧
      ((emptyRootSearch.withRoots [.ofString "cp"] (List.cons_ne_nil _ _)).classPath
        workingDirTree).find? "X" = none := by
  have hbelow : artifactPath? "X" = some (.ofString "X.class") := by decide
  have hgone : workingDirTree.isFile (.ofString "gone/X.class") = false :=
    FileTree.isFile_of_follow_error (FileTree.follow_of_none [] rfl rfl rfl rfl rfl)
  have hdir : workingDirTree.isFile (.ofString "cp/X.class") = false :=
    FileTree.isFile_of_follow_error
      (FileTree.follow_of_none [utf8Bytes "cp"] rfl rfl rfl rfl rfl)
  have hread : workingDirTree.read (.ofString "X.class") = .ok [] :=
    FileTree.read_of_at? [utf8Bytes "X.class"] rfl rfl rfl
  refine ⟨rejects_empty_emptyRootSearch, ?_, ?_, ?_⟩
  · show [Path.ofString "gone", .ofString "", .ofString "cp"].filter _ = _
    simp only [List.filter_cons, List.filter_nil, rejects_gone_emptyRootSearch,
      rejects_empty_emptyRootSearch, rejects_dir_emptyRootSearch]
    rfl
  · exact (ClassPath.find?_cons_of_not_isFile _ hbelow hgone).trans
      (ClassPath.find?_cons_of_read _ hbelow hread)
  · exact (ClassPath.find?_cons_of_not_isFile [] hbelow hdir).trans rfl

/-! ## A root that is added -/

/-- The search with a further root at the end. -/
def addRoot (search : Search) (root : Path) : Search :=
  search.withRoots (search.config.classPath ++ [root]) (List.concat_ne_nil root _)

/-- With a further root at the end, whatever it holds, the scan begins as it did before, every
look-up that found something finds the same, and under every role the members that were reported
are reported again, in their order, with the same artifacts and of the same kinds. -/
theorem run_addRoot (search : Search) (t : FileTree) (root : Path) :
    (search.classPath t).classes.1 <+: ((search.addRoot root).classPath t).classes.1 ∧
      (∀ name path, (search.classPath t).find? name = some path →
        ((search.addRoot root).classPath t).find? name = some path) ∧
      ((search.addRoot root).run t).implementations.names =
        (search.run t).implementations.names ∧
      ∀ role old, (search.run t).implementations.get? role = some old →
        ∃ new, ((search.addRoot root).run t).implementations.get? role = some new ∧
          old.members.Sublist new.members := by
  have hclasses : (search.classPath t).classes.1 <+:
      ((search.addRoot root).classPath t).classes.1 :=
    ClassPath.classes_append t search.config.classPath [root]
  have hsource : (search.classPath t).asSource.Extends
      ((search.addRoot root).classPath t).asSource :=
    ClassPath.extends_append t search.config.classPath [root]
  refine ⟨hclasses, ?_, ?_, ?_⟩
  · intro name path hfind
    have happend : ((search.addRoot root).classPath t).find? name =
        ((search.classPath t).find? name).or ((⟨t, [root]⟩ : ClassPath).find? name) :=
      ClassPath.find?_append t search.config.classPath [root] name
    rw [happend, hfind]
    rfl
  · rw [Roster.names, Roster.names, entries_run, entries_run, List.map_map, List.map_map]
    rfl
  · intro role old hold
    rw [get?_run] at hold
    obtain ⟨type, htype, rfl⟩ := Option.map_eq_some_iff.mp hold
    refine ⟨_, ?_, hsource.sublist_implementationsOf hclasses.sublist ⟨role, type⟩⟩
    rw [get?_run]
    exact Option.map_eq_some_iff.mpr ⟨type, htype, rfl⟩

end Search

end RoleWiring
