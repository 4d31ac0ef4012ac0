import RoleWiring.Proofs.ClassPath.Order
import RoleWiring.Proofs.Search.Picks
import RoleWiring.Proofs.Search.Warnings

/-!
# Searches with the roots in another order

The order of the roots says which root shadows which. Where no artifact is below two roots there is
nothing to shadow, and a run reports the same whatever the order: under every role the same members,
and the same warnings. Only the order of both follows that of the roots.

* `implementationsOf_perm` — candidates in another order;
* `run_perm` — roots in another order.
-/

namespace RoleWiring

/-- Of candidates in another order the same ones implement a role. -/
theorem implementationsOf_perm (src : Source) {candidates candidates' : List Artifact}
    (h : candidates'.Perm candidates) (role : Role) :
    (implementationsOf src candidates' role).members.Perm
      (implementationsOf src candidates role).members := by
  rw [implementationsOf, implementationsOf]
  split
  · exact .refl _
  · exact h.filterMap _

namespace ClassPath

variable {cp cp' : ClassPath}

/-- Roles are warned about alike where look-ups find the same and the same was scanned. -/
theorem roleFault?_congr (hlookUp : ∀ name, cp'.lookUp name = cp.lookUp name)
    (hclasses : cp'.classes.1.Perm cp.classes.1) (role : Role) :
    cp'.roleFault? role = cp.roleFault? role := by
  have hscanned : role.type ∈ cp'.classes.1.map Artifact.name ↔
      role.type ∈ cp.classes.1.map Artifact.name := (hclasses.map _).mem_iff
  rw [roleFault?, roleFault?, hlookUp]
  cases cp.lookUp role.type with
  | ok d => rfl
  | error fault => cases fault <;> simp only [hscanned]

theorem exclusion?_congr (hlookUp : ∀ name, cp'.lookUp name = cp.lookUp name) (c : Artifact) :
    cp'.exclusion? c = cp.exclusion? c := by
  rw [exclusion?, exclusion?, hlookUp]

end ClassPath

namespace Search

/-- Where no artifact is below two roots, the order of the roots matters to nothing but the order of
what is reported: every look-up finds the same, the report has the same roles with the same members,
and it warns of the same faults, each as often. -/
theorem run_perm (search search' : Search) (t : FileTree)
    (hroles : search'.config.roles = search.config.roles)
    (hroots : search'.config.classPath.Perm search.config.classPath)
    (h : (search.classPath t).Unambiguous) :
    (∀ name, (search'.classPath t).find? name = (search.classPath t).find? name) ∧
      (search'.run t).implementations.names = (search.run t).implementations.names ∧
      (∀ role set, (search.run t).implementations.get? role = some set →
        ∃ set', (search'.run t).implementations.get? role = some set' ∧
          set'.members.Perm set.members) ∧
      (search'.run t).warnings.Perm (search.run t).warnings := by
  have hfind : ∀ name, (search'.classPath t).find? name = (search.classPath t).find? name :=
    ClassPath.find?_eq_of_perm h rfl hroots
  have hclasses : (search'.classPath t).classes.1.Perm (search.classPath t).classes.1 :=
    ClassPath.classes_perm h rfl hroots
  have hsource : (search'.classPath t).asSource = (search.classPath t).asSource :=
    ClassPath.asSource_congr hfind rfl
  have hlookUp : ∀ name, (search'.classPath t).lookUp name = (search.classPath t).lookUp name :=
    fun name => ClassPath.lookUp_congr (hfind name) rfl
  refine ⟨hfind, ?_, ?_, ?_⟩
  · rw [Roster.names, Roster.names, entries_run, entries_run, hroles, List.map_map, List.map_map]
    rfl
  · intro role set hset
    rw [get?_run, Option.map_eq_some_iff] at hset
    obtain ⟨type, htype, rfl⟩ := hset
    refine ⟨_, ?_, implementationsOf_perm _ hclasses ⟨role, type⟩⟩
    rw [get?_run, hroles, htype, hsource]
    rfl
  · rw [warnings_run, warnings_run]
    refine (hroots.filterMap _).append (.append ?_ ?_)
    · rw [Configuration.roleList, Configuration.roleList, hroles,
        List.filterMap_congr fun role _ => ClassPath.roleFault?_congr hlookUp hclasses role]
    · rw [List.filterMap_congr fun c _ => ClassPath.exclusion?_congr hlookUp c]
      exact hclasses.filterMap _

/-! ## A hierarchy over two roots -/

/-- A tree with a class below one directory and a class that extends it below another. -/
def splitTree : FileTree :=
  ⟨.dir [
    (utf8Bytes "a", .dir [(utf8Bytes "X.class", .file bareClassFile)]),
    (utf8Bytes "b", .dir [(utf8Bytes "Y.class", .file derivedClassFile)])], []⟩

/-- A search with the base class first. -/
def baseFirstSearch : Search where
  config := ⟨[.ofString "a", .ofString "gone", .ofString "b"], .ofList [("R", "X")], .ofString "o"⟩
  valid := by rfl

/-- A search with the base class last. -/
def baseLastSearch : Search where
  config := ⟨[.ofString "b", .ofString "gone", .ofString "a"], .ofList [("R", "X")], .ofString "o"⟩
  valid := by rfl

/-- From a directory that holds one file only the name of the file leads to a file. -/
theorem eq_singleton_of_leadsToFile {t : FileTree} {links : Nat} {place : Location} {name : Bytes}
    {content : Bytes} (hat : t.top.at? place = some (.dir [(name, .file content)]))
    {names : List Bytes} (h : t.LeadsToFile links place (names.map .enter)) : names = [name] := by
  cases names with
  | nil =>
    obtain ⟨p, other, hwalk, hfile⟩ := h
    rw [List.map_nil, FileTree.walk] at hwalk
    cases hwalk
    cases hat.symm.trans hfile
  | cons first rest =>
    cases hchild : (Node.dir [(name, .file content)]).child? first with
    | none => exact absurd h (FileTree.not_leadsToFile_of_none hat hchild)
    | some node =>
      have hlookup := (Option.ite_none_right_eq_some.mp hchild).2
      simp only [Node.entries, lookup_entry_cons, List.lookup_nil] at hlookup
      obtain ⟨rfl, hnode⟩ := Option.ite_none_right_eq_some.mp hlookup
      cases hnode
      have hnoLink : ∀ target, Node.file content ≠ .link target := by
        intro target hlink
        cases hlink
      rw [List.map_cons, FileTree.leadsToFile_of_child? hat hchild hnoLink,
        FileTree.leadsToFile_of_file (FileTree.at?_child hat hchild)] at h
      rw [h]

/-- So below a root that holds one file there is at most the artifact of this name. -/
theorem artifactNames_of_holds {t : FileTree} {root : Path} {position : Position}
    {name content : Bytes} {segments : List (List Char)} (hroot : root.bytes ≠ [])
    (henter : enterRoot t root = .ok position)
    (hat : t.top.at? position.place = some (.dir [(name, .file content)]))
    (h : t.Holds root segments) : artifactNames segments = [name] := by
  obtain ⟨position', henter' | ⟨hempty, -⟩, hleads⟩ := h
  · cases henter.symm.trans henter'
    exact eq_singleton_of_leadsToFile hat hleads
  · exact absurd hempty hroot

theorem enterRoot_a_splitTree :
    enterRoot splitTree (.ofString "a") = .ok ⟨maxLinks, [utf8Bytes "a"]⟩ :=
  FileTree.enterRoot_of_at? [utf8Bytes "a"] rfl rfl rfl

theorem enterRoot_b_splitTree :
    enterRoot splitTree (.ofString "b") = .ok ⟨maxLinks, [utf8Bytes "b"]⟩ :=
  FileTree.enterRoot_of_at? [utf8Bytes "b"] rfl rfl rfl

theorem enterRoot_gone_splitTree :
    enterRoot splitTree (.ofString "gone") = .error (.rootMissing (.ofString "gone")) :=
  FileTree.enterRoot_of_follow (FileTree.follow_of_none [] rfl rfl rfl rfl rfl)

theorem artifactsUnder_a_splitTree :
    artifactsUnder splitTree (.ofString "a") = [⟨"X", .ofString "a/X.class"⟩] :=
  artifactsUnder_of_enterRoot enterRoot_a_splitTree rfl (FileTree.filesBelow_eq ..)

theorem artifactsUnder_b_splitTree :
    artifactsUnder splitTree (.ofString "b") = [⟨"Y", .ofString "b/Y.class"⟩] :=
  artifactsUnder_of_enterRoot enterRoot_b_splitTree rfl (FileTree.filesBelow_eq ..)

theorem artifactsUnder_gone_splitTree : artifactsUnder splitTree (.ofString "gone") = [] :=
  artifactsUnder_of_follow_error (FileTree.follow_of_none [] rfl rfl rfl rfl rfl)

/-- The two directories hold artifacts of other names. -/
theorem unambiguous_splitTree : (baseFirstSearch.classPath splitTree).Unambiguous := by
  have hinA : ∀ segments, splitTree.Holds (.ofString "a") segments →
      artifactNames segments = [utf8Bytes "X.class"] :=
    fun _ => artifactNames_of_holds (by decide) enterRoot_a_splitTree rfl
  have hinB : ∀ segments, splitTree.Holds (.ofString "b") segments →
      artifactNames segments = [utf8Bytes "Y.class"] :=
    fun _ => artifactNames_of_holds (by decide) enterRoot_b_splitTree rfl
  have hinGone : ∀ segments, ¬ splitTree.Holds (.ofString "gone") segments := by
    rintro segments ⟨position, henter | ⟨hempty, -⟩, -⟩
    · cases enterRoot_gone_splitTree.symm.trans henter
    · exact absurd hempty (by decide)
  have hne : [utf8Bytes "X.class"] ≠ [utf8Bytes "Y.class"] := by decide
  intro segments _ _ x hx y hy hholds hholds'
  have hroots : (baseFirstSearch.classPath splitTree).roots =
      [.ofString "a", .ofString "gone", .ofString "b"] := rfl
  rw [hroots] at hx hy
  simp only [List.mem_cons, List.not_mem_nil, or_false] at hx hy
  rcases hx with rfl | rfl | rfl <;> rcases hy with rfl | rfl | rfl
  · rfl
  · exact absurd hholds' (hinGone segments)
  · exact absurd ((hinA segments hholds).symm.trans (hinB segments hholds')) hne
  · exact absurd hholds (hinGone segments)
  · rfl
  · exact absurd hholds (hinGone segments)
  · exact absurd ((hinA segments hholds').symm.trans (hinB segments hholds)) hne
  · exact absurd hholds' (hinGone segments)
  · rfl

/-- The scan goes the other way round, and the report is the same apart from the order. -/
theorem run_perm_splitTree :
    (baseFirstSearch.classPath splitTree).classes.1.map Artifact.name = ["X", "Y"] ∧
      (baseLastSearch.classPath splitTree).classes.1.map Artifact.name = ["Y", "X"] ∧
      (∀ name, (baseLastSearch.classPath splitTree).find? name =
        (baseFirstSearch.classPath splitTree).find? name) ∧
      (∀ role set, (baseFirstSearch.run splitTree).implementations.get? role = some set →
        ∃ set', (baseLastSearch.run splitTree).implementations.get? role = some set' ∧
          set'.members.Perm set.members) ∧
      (baseLastSearch.run splitTree).warnings.Perm (baseFirstSearch.run splitTree).warnings := by
  obtain ⟨hfind, -, hmembers, hwarnings⟩ := run_perm baseFirstSearch baseLastSearch splitTree rfl
    (by decide) unambiguous_splitTree
  refine ⟨?_, ?_, hfind, hmembers, hwarnings⟩
  · rw [classes_fst]
    show (unshadowed [] ([Path.ofString "a", .ofString "gone", .ofString "b"].flatMap
      (artifactsUnder splitTree))).map Artifact.name = _
    simp only [List.flatMap_cons, List.flatMap_nil, artifactsUnder_a_splitTree,
      artifactsUnder_b_splitTree, artifactsUnder_gone_splitTree]
    rfl
  · rw [classes_fst]
    show (unshadowed [] ([Path.ofString "b", .ofString "gone", .ofString "a"].flatMap
      (artifactsUnder splitTree))).map Artifact.name = _
    simp only [List.flatMap_cons, List.flatMap_nil, artifactsUnder_a_splitTree,
      artifactsUnder_b_splitTree, artifactsUnder_gone_splitTree]
    rfl

end Search

end RoleWiring
