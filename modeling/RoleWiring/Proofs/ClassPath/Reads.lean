import RoleWiring.Proofs.ClassPath.Roots
import RoleWiring.Proofs.RoleIndex.Loads

/-!
# How often artifacts are read

A session reads an artifact that can be used only once for the type that it declares, however many
uses and runs share it, as long as their look-ups wait for each other. The checks of an index do
not: those that look a type up before it is kept all read its artifact. And an artifact may also be
found under other names, where one root of a class path is below another or a file is out of place.
Such a look-up fails, and because failures are not kept it reads the artifact each time.

* `reads_of_remembers` — how often an artifact is read if no look-ups overlap;
* `reads_of_reckons` — and what bounds there are if some do;
* `after_remembers` — what any uses of a session leave.
-/

namespace RoleWiring

open Session

namespace ClassPath

variable {cp : ClassPath} {artifact : Path} {content : Bytes} {d : Declaration} {name : String}

/-- How often an artifact was read for the look-ups in a session. -/
def reads (cp : ClassPath) (artifact : Path) (s : Session) : Nat :=
  s.lookups.countP fun name => cp.find? name = some artifact

theorem isOk_lookUp_iff (hread : cp.tree.read artifact = .ok content)
    (hparse : Declaration.ofBytes content = .ok d) (hfind : cp.find? name = some artifact) :
    (cp.lookUp name).isOk = true ↔ name = d.name := by
  rw [lookUp_of_declares hread hparse hfind]
  split <;> simp_all [Except.isOk, Except.toBool, eq_comm]

/-- A usable artifact is read once for the type that it declares and each time for any other
type. -/
theorem reads_of_remembers {asked : List String} {s : Session} (h : Remembers cp.lookUp asked s)
    (hread : cp.tree.read artifact = .ok content) (hparse : Declaration.ofBytes content = .ok d) :
    cp.reads artifact s =
      (if d.name ∈ asked ∧ cp.find? d.name = some artifact then 1 else 0) +
        asked.countP fun name => cp.find? name = some artifact ∧ name ≠ d.name := by
  have hcount := h.countP_lookups (p := fun name => cp.find? name = some artifact) fun name hfind =>
    isOk_lookUp_iff hread hparse (of_decide_eq_true hfind)
  simpa [reads] using hcount

/-- Lists with equally many of each item that counts. -/
theorem countP_eq_of_count {l l' : List String} {p : String → Bool}
    (h : ∀ name, p name = true → l.count name = l'.count name) : l.countP p = l'.countP p := by
  rw [List.countP_eq_length_filter, List.countP_eq_length_filter]
  refine (List.perm_iff_count.mpr fun name => ?_).length_eq
  cases hp : p name with
  | true => rw [List.count_filter hp, List.count_filter hp, h name hp]
  | false =>
    rw [List.count_eq_zero_of_not_mem (by simp [hp]), List.count_eq_zero_of_not_mem (by simp [hp])]

/-- Where look-ups overlap, a usable artifact may be read more than once for the type that it
declares, but for no type more often than that was looked up. -/
theorem reads_of_reckons {asked : List String} {s : Session}
    (h : ∀ name, Reckons cp.lookUp asked s name) (hread : cp.tree.read artifact = .ok content)
    (hparse : Declaration.ofBytes content = .ok d) :
    (if d.name ∈ asked ∧ cp.find? d.name = some artifact then 1 else 0) +
        asked.countP (fun name => cp.find? name = some artifact ∧ name ≠ d.name) ≤
      cp.reads artifact s ∧
      cp.reads artifact s ≤ asked.countP fun name => cp.find? name = some artifact := by
  have hmost : s.lookups.Subperm asked :=
    List.subperm_ext_iff.mpr fun name _ => (h name).most
  refine ⟨?_, hmost.countP_le _⟩
  -- under another name the artifact is found in vain, and so it is read each time
  have hothers :
      s.lookups.countP (fun name => cp.find? name = some artifact ∧ name ≠ d.name) =
        asked.countP fun name => cp.find? name = some artifact ∧ name ≠ d.name := by
    refine countP_eq_of_count fun name hname => (h name).failed (Bool.eq_false_iff.mpr ?_)
    obtain ⟨hfind, hne⟩ := of_decide_eq_true hname
    exact mt (isOk_lookUp_iff hread hparse hfind).mp hne
  have hsplit : cp.reads artifact s =
      s.lookups.countP (fun name => cp.find? name = some artifact ∧ name = d.name) +
        s.lookups.countP fun name => cp.find? name = some artifact ∧ name ≠ d.name := by
    rw [reads, List.countP_eq_countP_filter_add _ _ fun name => name = d.name, List.countP_filter,
      List.countP_filter]
    simp
  rw [hsplit, hothers]
  refine Nat.add_le_add_right ?_ _
  split
  · next hown =>
    have hloaded := List.count_pos_iff.mp ((h d.name).least hown.1)
    exact List.countP_pos_iff.mpr ⟨d.name, hloaded, by simp [hown.2]⟩
  · exact Nat.zero_le _

end ClassPath

/-- A run uses its session as the index of the classes on the class path does. -/
theorem Search.runWithin_snd (search : Search) (t : FileTree) (s : Session) :
    (search.runWithin t s).2 =
      (Use.index search.config.roleList (search.classPath t).classes.1).leaves
        (search.classPath t).asSource s :=
  rfl

/-- On any schedule of its checks. -/
theorem Search.RunsWithin.mayLeave {search : Search} {t : FileTree} {s s' : Session}
    {report : Report} (h : search.RunsWithin t s report s') :
    (Use.index search.config.roleList (search.classPath t).classes.1).MayLeave
      (search.classPath t).asSource s s' := by
  obtain ⟨r, hindex, -⟩ := h
  exact .index hindex

/-- Each look-up in a session that was new answers what is loaded, wherever that comes from. After
any look-ups that wait for each other

* the session keeps exactly what was looked up and has a declaration;
* each such type was loaded once, and any other type as often as it was looked up;
* a look-up that fails loads the type once and keeps nothing.

Such look-ups are all that uses of a session are, as long as their look-ups do not overlap.

Look-ups that overlap, in any way, answer what is loaded too. Whenever no look-up of a type is under
way, it is kept exactly if it was looked up and has a declaration. But then it was loaded at least
once and at most once for each look-up, while a type without a declaration was loaded once for each
look-up. So it is after any uses of a session, also where the checks of an index overlap as they do
in runs; and what a session keeps is not loaded again by further uses.

An artifact that can be used is therefore read once for the type that it declares, in any runs and
other uses that share a session, if no look-ups overlap, and at least once in any case. A look-up of
another type that finds it fails and reads it again. -/
theorem after_remembers :
    (∀ (load : String → Except Fault Declaration) (asked : List String),
      let s := (lookUpAll load asked .empty).2
      (lookUpAll load asked .empty).1 = asked.map load ∧
        (∀ name d, s.kept? name = some d ↔ name ∈ asked ∧ load name = .ok d) ∧
        s.memory.length = (asked.toFinset.filter fun name => (load name).isOk).card ∧
        (∀ name, s.lookups.count name =
          if (load name).isOk then (if name ∈ asked then 1 else 0) else asked.count name) ∧
        ∀ name fault, load name = .error fault →
          s.lookUpBy load name = (.error fault, { s with lookups := s.lookups ++ [name] })) ∧
      (∀ src : Source, lookUp src = lookUpBy src.lookUp ∧ ∀ uses : List Use,
        Follows src .empty uses (after src uses) ∧
          after src uses = (lookUpAll src.lookUp (uses.flatMap (Use.asks src)) .empty).2) ∧
      (∀ (load : String → Except Fault Declaration) (t : Traffic), Traffic.Leads load .start t →
        (∀ name call answer s', (name, call) ∈ t.underWay →
          call.stepBy load name t.session = (.inr answer, s') → answer = load name) ∧
          ∀ name, (∀ call, (name, call) ∉ t.underWay) → Reckons load t.asked t.session name) ∧
      (∀ (src : Source) (uses : List Use) (s : Session), Follows src .empty uses s →
        let asked := uses.flatMap (Use.asks src)
        (∃ begun, begun.Perm asked ∧ Traffic.Leads src.lookUp .start ⟨[], s, begun⟩) ∧
          (∀ name, Reckons src.lookUp asked s name) ∧
          s.memory.length = (asked.toFinset.filter fun name => (src.lookUp name).isOk).card ∧
          ∀ more s', Follows src s more s' → ∀ name d, s.kept? name = some d →
            s'.lookups.count name = s.lookups.count name) ∧
      ∀ cp : ClassPath,
        (∀ search : Search, search.classPath cp.tree = cp → ∀ s,
          (search.runWithin cp.tree s).2 =
              (Use.index search.config.roleList cp.classes.1).leaves cp.asSource s ∧
            ∀ report s', search.RunsWithin cp.tree s report s' →
              (Use.index search.config.roleList cp.classes.1).MayLeave cp.asSource s s') ∧
          ∀ artifact content d, cp.tree.read artifact = .ok content →
            Declaration.ofBytes content = .ok d → ∀ uses : List Use,
              let asked := uses.flatMap (Use.asks cp.asSource)
              let own := if d.name ∈ asked ∧ cp.find? d.name = some artifact then 1 else 0
              let found := asked.countP fun name => cp.find? name = some artifact
              let others := asked.countP fun name => cp.find? name = some artifact ∧ name ≠ d.name
              cp.reads artifact (after cp.asSource uses) = own + others ∧
                ∀ s, Follows cp.asSource .empty uses s →
                  own + others ≤ cp.reads artifact s ∧ cp.reads artifact s ≤ found := by
  refine ⟨fun load asked => ?_, fun src => ⟨lookUp_eq_lookUpBy src, fun uses => ?_⟩,
    fun load t h => ?_, fun src uses s h => ?_, fun cp => ⟨fun search hcp s => ?_, ?_⟩⟩
  · have h := remembers_lookUpAll load asked
    exact ⟨lookUpAll_fst load asked, fun name d => h.kept?_eq_some, h.length_memory,
      h.count_lookups, fun name fault => h.lookUpBy_of_error⟩
  · exact ⟨.after src uses, after_eq src uses⟩
  · exact ⟨fun name call answer s' => Traffic.answer_of_leads h,
      fun name => (Traffic.Balanced.start.leads h).reckons⟩
  · have hs := h.faithful (faithful_empty src)
    exact ⟨h.leads (faithful_empty src) [], h.reckons, h.length_memory,
      fun more s' hmore name d => hmore.count_lookups hs⟩
  · rw [search.runWithin_snd, hcp]
    refine ⟨rfl, fun report s' hruns => ?_⟩
    have hmay := hruns.mayLeave
    rwa [hcp] at hmay
  · intro artifact content d hread hparse uses
    refine ⟨?_, fun s h => ClassPath.reads_of_reckons h.reckons hread hparse⟩
    rw [after_eq]
    exact ClassPath.reads_of_remembers (remembers_lookUpAll cp.lookUp _) hread hparse

/-! ## An artifact with two names -/

/-- A class file that declares a class `b.X` without supertypes. -/
def lonelyClassFile : Bytes :=
  [202, 254, 186, 190, 0, 0, 0, 52, 0, 3, 1, 0, 3, 98, 47, 88, 7, 0, 1, 0, 33, 0, 2, 0, 0, 0, 0,
    0, 0, 0, 0, 0, 0]

/-- A class path whose second root is below the first, so that its only artifact has two names. -/
def nestedClassPath : ClassPath where
  tree := ⟨.dir [(utf8Bytes "c", .dir [(utf8Bytes "b", .dir [
    (utf8Bytes "X.class", .file lonelyClassFile)])])], []⟩
  roots := [.ofString "c", .ofString "c/b"]

/-- A search on this class path for no role at all. -/
def nestedSearch : Search where
  config := ⟨nestedClassPath.roots, .ofList [], .ofString "services.json"⟩
  valid := by rfl

theorem classes_nestedClassPath : nestedClassPath.classes.1 =
    [⟨"b.X", .ofString "c/b/X.class"⟩, ⟨"X", .ofString "c/b/X.class"⟩] := by
  have houter : artifactsUnder nestedClassPath.tree (.ofString "c") =
      [⟨"b.X", .ofString "c/b/X.class"⟩] := by
    have henter : enterRoot nestedClassPath.tree (.ofString "c") =
        .ok ⟨maxLinks, [utf8Bytes "c"]⟩ :=
      FileTree.enterRoot_of_at? [utf8Bytes "c"] rfl rfl rfl
    have hfiles : nestedClassPath.tree.filesBelow (.ofString "c") maxLinks [utf8Bytes "c"] []
        (.dir [(utf8Bytes "b", .dir [(utf8Bytes "X.class", .file lonelyClassFile)])]) =
        [[utf8Bytes "b", utf8Bytes "X.class"]] := by
      rw [FileTree.filesBelow_eq]
      show (nestedClassPath.tree.filesBelow _ _ _ _ _).map (utf8Bytes "b" :: ·) ++ [] = _
      rw [FileTree.filesBelow_eq]
      rfl
    exact artifactsUnder_of_enterRoot henter rfl hfiles
  have hinner : artifactsUnder nestedClassPath.tree (.ofString "c/b") =
      [⟨"X", .ofString "c/b/X.class"⟩] := by
    have henter : enterRoot nestedClassPath.tree (.ofString "c/b") =
        .ok ⟨maxLinks, [utf8Bytes "c", utf8Bytes "b"]⟩ :=
      FileTree.enterRoot_of_at? [utf8Bytes "c", utf8Bytes "b"] rfl rfl rfl
    exact artifactsUnder_of_enterRoot henter rfl (FileTree.filesBelow_eq ..)
  rw [classes_fst]
  show unshadowed [] ([Path.ofString "c", .ofString "c/b"].flatMap _) = _
  rw [List.flatMap_cons, List.flatMap_singleton, houter, hinner]
  rfl

/-- The artifact can be used and is found under the name that it declares. Yet two runs that share a
session read it three times: the second run reads it again, because it fails again under the name
that it does not declare. And two checks of the one class that overlap load it twice. -/
theorem reads_nestedClassPath :
    nestedClassPath.tree.read (.ofString "c/b/X.class") = .ok lonelyClassFile ∧
      Declaration.ofBytes lonelyClassFile = .ok ⟨"b.X", .concreteClass, none, []⟩ ∧
      nestedClassPath.lookUp "b.X" = .ok ⟨"b.X", .concreteClass, none, []⟩ ∧
      let once := (nestedSearch.runWithin nestedClassPath.tree .empty).2
      let twice := (nestedSearch.runWithin nestedClassPath.tree once).2
      nestedClassPath.reads (.ofString "c/b/X.class") once = 2 ∧
        nestedClassPath.reads (.ofString "c/b/X.class") twice = 3 ∧
        ∃ s, Follows nestedClassPath.asSource .empty
            [.index [] [⟨"b.X", .ofString "c/b/X.class"⟩, ⟨"b.X", .ofString "c/b/X.class"⟩]] s ∧
          s.lookups = ["b.X", "b.X"] := by
  have hread : nestedClassPath.tree.read (.ofString "c/b/X.class") = .ok lonelyClassFile :=
    FileTree.read_of_at? [utf8Bytes "c", utf8Bytes "b", utf8Bytes "X.class"] rfl rfl rfl
  have hparse : Declaration.ofBytes lonelyClassFile = .ok ⟨"b.X", .concreteClass, none, []⟩ := by
    decide +kernel
  have hbX : nestedClassPath.find? "b.X" = some (.ofString "c/b/X.class") := by
    have hbelow : artifactPath? "b.X" = some (.ofString "b/X.class") := by decide
    exact ClassPath.find?_cons_of_read _ hbelow hread
  have hX : nestedClassPath.find? "X" = some (.ofString "c/b/X.class") := by
    have hbelow : artifactPath? "X" = some (.ofString "X.class") := by decide
    have hnot : nestedClassPath.tree.isFile (.ofString "c/X.class") = false :=
      FileTree.isFile_of_follow_error
        (FileTree.follow_of_none [utf8Bytes "c"] rfl rfl rfl rfl rfl)
    exact (ClassPath.find?_cons_of_not_isFile _ hbelow hnot).trans
      (ClassPath.find?_cons_of_read [] hbelow hread)
  have hrun : ∀ s, (nestedSearch.runWithin nestedClassPath.tree s).2 =
      (lookUpAll nestedClassPath.lookUp ["b.X", "X"] s).2 := by
    intro s
    show (indexRoles nestedClassPath.asSource [] nestedClassPath.classes.1 s).2 = _
    rw [indexRoles_snd, classes_nestedClassPath]
    simp [indexAsks, RoleIndex.examineAsks, RoleIndex.enabledDirect, ClassPath.asSource]
  have hlookUp : nestedClassPath.lookUp "b.X" = .ok ⟨"b.X", .concreteClass, none, []⟩ := by
    rw [ClassPath.lookUp_of_declares hread hparse hbX, if_pos rfl]
  refine ⟨hread, hparse, hlookUp, ?_, ?_, exists_follows_twice hlookUp⟩
  · have hreads := ClassPath.reads_of_remembers
      (remembers_lookUpAll nestedClassPath.lookUp ["b.X", "X"]) hread hparse
    rw [hrun, hreads]
    simp [hbX, hX]
  · have hreads := ClassPath.reads_of_remembers
      (remembers_lookUpAll nestedClassPath.lookUp (["b.X", "X"] ++ ["b.X", "X"])) hread hparse
    rw [hrun, hrun, ← lookUpAll_append_snd, hreads]
    simp [hbX, hX]

end RoleWiring
