import RoleWiring.Proofs.FileTree.Descent
import RoleWiring.Proofs.Scan
import RoleWiring.Proofs.Search

/-!
# Scans and look-ups agree

A scan goes through the roots of a class path and names what it finds; a look-up starts
with a name and tries one root after the other. They agree on every name: the scan
yields the artifact that the look-up finds, and nothing else. So what a run reports of
a class is what the artifact it was found in declares.

* `find?_artifactsUnder` — the first artifact of a name below the roots;
* `scan_agrees` — the agreement, and what it means for a run.
-/

namespace RoleWiring

section Roots

variable {t : FileTree}

/-- The artifact of a name below a root is where a look-up looks for it. -/
theorem find?_artifactsUnder {root : Path} (hroot : root.bytes ≠ []) (hback : NoLinkBack t root)
    (hfit : PathsFit t root) (name : String) :
    (artifactsUnder t root).find? (fun c => c.name == name) =
      (artifactPath? name).bind fun below =>
        if t.isFile (root.join below) then some ⟨name, root.join below⟩ else none := by
  have hmem := fun c => mem_artifactsUnder (t := t) hroot hback hfit (c := c)
  cases hfind : (artifactsUnder t root).find? (fun c => c.name == name) with
  | some c =>
    obtain ⟨n, path⟩ := c
    have hname : n = name := by simpa using List.find?_some hfind
    obtain ⟨below, hbelow, hpath, hfile⟩ := (hmem _).mp (List.mem_of_find?_eq_some hfind)
    dsimp only at hbelow hpath hfile
    subst hname hpath
    rw [hbelow]
    exact (if_pos hfile).symm
  | none =>
    cases hbelow : artifactPath? name with
    | none => rfl
    | some below =>
      show none = if t.isFile (root.join below) then _ else _
      split
      · next hfile =>
        have hc := (hmem ⟨name, root.join below⟩).mpr ⟨below, hbelow, rfl, hfile⟩
        have hnot := List.find?_eq_none.mp hfind _ hc
        simp at hnot
      · rfl

/-- The first artifact of a name below the roots is at the first place where a look-up finds a
file. -/
theorem find?_flatMap_artifactsUnder {roots : List Path} (hroots : ∀ root ∈ roots, root.bytes ≠ [])
    (hback : ∀ root ∈ roots, NoLinkBack t root) (hfit : ∀ root ∈ roots, PathsFit t root)
    (name : String) :
    (roots.flatMap (artifactsUnder t)).find? (fun c => c.name == name) =
      ((⟨t, roots⟩ : ClassPath).find? name).map (Artifact.mk name) := by
  induction roots with
  | nil =>
    unfold ClassPath.find?
    cases artifactPath? name <;> rfl
  | cons root roots ih =>
    obtain ⟨hroot, hroots⟩ := List.forall_mem_cons.mp hroots
    obtain ⟨hback, hbacks⟩ := List.forall_mem_cons.mp hback
    obtain ⟨hfit, hfits⟩ := List.forall_mem_cons.mp hfit
    rw [List.flatMap_cons, List.find?_append, ih hroots hbacks hfits,
      find?_artifactsUnder hroot hback hfit]
    unfold ClassPath.find?
    cases artifactPath? name with
    | none => rfl
    | some below =>
      show (if t.isFile (root.join below) then some _ else none).or _ =
        Option.map _ (List.find? t.isFile (root.join below :: roots.map (·.join below)))
      rw [List.find?_cons]
      cases t.isFile (root.join below) <;> rfl

end Roots

/-- What is above a type is the type, or above its superclass or one of its interfaces. -/
theorem Source.above_iff {src : Source} {name type : String} {d : Declaration}
    (h : src.lookUp name = .ok d) :
    src.Above name type ↔
      name = type ∨ ∃ p, (d.superClass = some p ∨ p ∈ d.interfaces) ∧ src.Above p type := by
  refine ⟨?_, ?_⟩
  · intro habove
    rcases Relation.ReflTransGen.cases_head habove with heq | ⟨p, ⟨d', hd', hp⟩, hrest⟩
    · exact .inl heq
    · cases h.symm.trans hd'
      exact .inr ⟨p, hp, hrest⟩
  · rintro (rfl | ⟨p, hp, hrest⟩)
    · exact .refl
    · exact .head ⟨d, h, hp⟩ hrest

/-- On a class path with roots that are spelled out, no link that leads back and paths that can be
followed, the scan yields under every name the artifact that a look-up finds, and every name once.
So an implementation that a run reports is at the very artifact whose content declares its name and
kind and the supertypes that make it one. -/
theorem scan_agrees (cp : ClassPath) (hroots : ∀ root ∈ cp.roots, root.bytes ≠ [])
    (hback : ∀ root ∈ cp.roots, NoLinkBack cp.tree root)
    (hfit : ∀ root ∈ cp.roots, PathsFit cp.tree root) :
    (∀ name path, ⟨name, path⟩ ∈ cp.classes.1 ↔ cp.find? name = some path) ∧
      (cp.classes.1.map Artifact.name).Nodup ∧
      ∀ search : Search, search.config.classPath = cp.roots →
        ∀ role set, (search.run cp.tree).implementations.get? role = some set →
          ∀ i ∈ set.members, ∃ type content d,
            search.config.roles.get? role = some type ∧
              cp.find? i.name = some i.artifact.path ∧
              cp.tree.read i.artifact.path = .ok content ∧
              Declaration.ofBytes content = .ok d ∧ d.name = i.name ∧ d.kind = i.kind ∧
              (i.name = type ∨ ∃ p, (d.superClass = some p ∨ p ∈ d.interfaces) ∧
                cp.asSource.Above p type) := by
  have hscan : ∀ name path, ⟨name, path⟩ ∈ cp.classes.1 ↔ cp.find? name = some path := by
    -- both sides take the first root that holds the name
    intro name path
    rw [classes_fst, mem_unshadowed]
    dsimp only
    rw [find?_flatMap_artifactsUnder hroots hback hfit, Option.map_eq_some_iff]
    refine ⟨?_, ?_⟩
    · rintro ⟨-, path', hfind, heq⟩
      cases heq
      exact hfind
    · intro hfind
      exact ⟨List.not_mem_nil, path, hfind, rfl⟩
  refine ⟨hscan, ?_, ?_⟩
  · rw [classes_fst]
    exact nodup_unshadowed [] _
  · intro search hpath role set hset i hi
    obtain ⟨type, htype, rfl⟩ := Search.eq_implementationsOf_of_get? hset
    have hcp : search.classPath cp.tree = cp := congrArg (ClassPath.mk cp.tree) hpath
    rw [hcp] at hi
    obtain ⟨-, hmem, d, hlookUp, habove, hkind⟩ := mem_implementationsOf.mp hi
    obtain ⟨path, content, hfind, hread, hparse, hname⟩ := ClassPath.exists_read_of_lookUp hlookUp
    -- the member was scanned, so it is at the artifact that the look-up found
    cases (((hscan i.name i.artifact.path).mp hmem).symm.trans hfind)
    exact ⟨type, content, d, htype, hfind, hread, hparse, hname, hkind.symm,
      (Source.above_iff hlookUp).mp habove⟩

/-! ## A class path with a directory in the way -/

/-- A class path whose first root holds a directory by the name of an artifact, and whose last
root is a link to the directory that holds the artifact. -/
def shadowedClassPath : ClassPath where
  tree := ⟨.dir [
    (utf8Bytes "a", .dir [(utf8Bytes "X.class", .dir [])]),
    (utf8Bytes "b", .dir [(utf8Bytes "X.class", .file [])]),
    (utf8Bytes "l", .link (.ofString "b"))], []⟩
  roots := [.ofString "a", .ofString "missing", .ofString "l"]

theorem enterRoot_a_shadowedClassPath :
    enterRoot shadowedClassPath.tree (.ofString "a") = .ok ⟨maxLinks, [utf8Bytes "a"]⟩ :=
  FileTree.enterRoot_of_at? [utf8Bytes "a"] rfl rfl rfl

theorem enterRoot_missing_shadowedClassPath :
    enterRoot shadowedClassPath.tree (.ofString "missing") =
      .error (.rootMissing (.ofString "missing")) :=
  FileTree.enterRoot_of_follow (FileTree.follow_of_none [] rfl rfl rfl rfl rfl)

/-- The link is followed to the directory. -/
theorem enterRoot_link_shadowedClassPath :
    enterRoot shadowedClassPath.tree (.ofString "l") = .ok ⟨39, [utf8Bytes "b"]⟩ := by
  have hwalk : shadowedClassPath.tree.walk maxLinks [] [.enter (utf8Bytes "l")] =
      .ok ⟨39, [utf8Bytes "b"]⟩ :=
    (FileTree.walk_enter_of_link rfl rfl).mpr
      ⟨by decide, by decide, FileTree.walk_enter_of_dir rfl rfl⟩
  exact FileTree.enterRoot_eq_ok.mpr ⟨FileTree.follow_eq_ok.mpr ⟨rfl, hwalk⟩, _, rfl⟩

/-- Below the directory in the way there is nothing. -/
theorem artifactsUnder_a_shadowedClassPath :
    artifactsUnder shadowedClassPath.tree (.ofString "a") = [] := by
  have hfiles : shadowedClassPath.tree.filesBelow (.ofString "a") maxLinks [utf8Bytes "a"] []
      (.dir [(utf8Bytes "X.class", .dir [])]) = [] := by
    rw [FileTree.filesBelow_eq]
    show (shadowedClassPath.tree.filesBelow _ _ _ _ _).map (utf8Bytes "X.class" :: ·) ++ [] = _
    rw [FileTree.filesBelow_eq]
    rfl
  exact artifactsUnder_of_enterRoot enterRoot_a_shadowedClassPath rfl hfiles

theorem artifactsUnder_missing_shadowedClassPath :
    artifactsUnder shadowedClassPath.tree (.ofString "missing") = [] :=
  artifactsUnder_of_follow_error (FileTree.follow_of_none [] rfl rfl rfl rfl rfl)

theorem artifactsUnder_link_shadowedClassPath :
    artifactsUnder shadowedClassPath.tree (.ofString "l") = [⟨"X", .ofString "l/X.class"⟩] :=
  artifactsUnder_of_enterRoot enterRoot_link_shadowedClassPath rfl (FileTree.filesBelow_eq ..)

theorem noLinkBack_shadowedClassPath :
    ∀ root ∈ shadowedClassPath.roots, NoLinkBack shadowedClassPath.tree root := by
  have honly : ∀ {node name child},
      (Node.dir [(utf8Bytes "X.class", node)]).child? name = some child → child = node := by
    intro node name child h
    have hlookup := (Option.ite_none_right_eq_some.mp h).2
    simp only [Node.entries, lookup_entry_cons, List.lookup_nil] at hlookup
    exact (Option.some.inj (Option.ite_none_right_eq_some.mp hlookup).2).symm
  refine List.forall_mem_cons.mpr
    ⟨?_, List.forall_mem_cons.mpr ⟨?_, List.forall_mem_singleton.mpr ?_⟩⟩
  · intro position es henter hat hback
    cases enterRoot_a_shadowedClassPath.symm.trans henter
    have hdir : shadowedClassPath.tree.top.at? [utf8Bytes "a"] =
        some (.dir [(utf8Bytes "X.class", .dir [])]) := rfl
    cases hdir.symm.trans hat
    cases hback with
    | here hchild => cases honly hchild
    | inLink hchild => cases honly hchild
    | inDir hchild _ hbelow =>
      cases honly hchild
      exact FileTree.not_linksBack_of_files (fun _ _ h => by simp [Node.child?, Node.entries] at h)
        hbelow
  · intro position es henter
    cases enterRoot_missing_shadowedClassPath.symm.trans henter
  · intro position es henter hat
    cases enterRoot_link_shadowedClassPath.symm.trans henter
    have hdir : shadowedClassPath.tree.top.at? [utf8Bytes "b"] =
        some (.dir [(utf8Bytes "X.class", .file [])]) := rfl
    cases hdir.symm.trans hat
    exact FileTree.not_linksBack_of_files fun _ _ h => ⟨[], honly h⟩

theorem pathsFit_shadowedClassPath :
    ∀ root ∈ shadowedClassPath.roots, PathsFit shadowedClassPath.tree root := by
  refine List.forall_mem_cons.mpr
    ⟨?_, List.forall_mem_cons.mpr ⟨?_, List.forall_mem_singleton.mpr ?_⟩⟩
  · intro c hc
    rw [artifactsUnder_a_shadowedClassPath] at hc
    cases hc
  · intro c hc
    rw [artifactsUnder_missing_shadowedClassPath] at hc
    cases hc
  · intro c hc
    rw [artifactsUnder_link_shadowedClassPath] at hc
    cases List.mem_singleton.mp hc
    decide

/-- The directory in the way is passed over by scan and look-up alike. -/
theorem scan_agrees_shadowed :
    (∀ name path, ⟨name, path⟩ ∈ shadowedClassPath.classes.1 ↔
        shadowedClassPath.find? name = some path) ∧
      shadowedClassPath.find? "X" = some (.ofString "l/X.class") := by
  obtain ⟨hagrees, -, -⟩ := scan_agrees shadowedClassPath (by decide) noLinkBack_shadowedClassPath
    pathsFit_shadowedClassPath
  refine ⟨hagrees, (hagrees "X" _).mp ?_⟩
  rw [classes_fst]
  show _ ∈ unshadowed [] ([Path.ofString "a", .ofString "missing", .ofString "l"].flatMap
    (artifactsUnder shadowedClassPath.tree))
  simp only [List.flatMap_cons, List.flatMap_nil, artifactsUnder_a_shadowedClassPath,
    artifactsUnder_missing_shadowedClassPath, artifactsUnder_link_shadowedClassPath]
  exact List.mem_singleton_self _

end RoleWiring
