import RoleWiring.Proofs.Except
import RoleWiring.Proofs.FileTree.Below
import RoleWiring.Proofs.Name.Artifact

/-!
# Artifacts below a root

A scan enters a root and goes down from there; a look-up follows one path through the
root to the artifact. `mem_artifactsUnder` says that, for every root on its own, the
two agree on which artifacts there are.
-/

namespace RoleWiring

namespace FileTree

variable {t : FileTree} {root : Path}

/-! ## Following a path through a root -/

theorem zero_not_mem_of_isEntryName {n : Bytes} (h : isEntryName n = true) : 0 ∉ n := by
  simp only [isEntryName, Bool.and_eq_true, decide_eq_true_eq] at h
  exact h.1.2

theorem checkPath_eq_ok {p : Path} :
    checkPath p = .ok () ↔ 0 ∉ p.bytes ∧ p.bytes.length < maxPathLength ∧ p.bytes ≠ [] := by
  unfold checkPath
  split
  · next hnul => exact iff_of_false (fun h => by cases h) fun h => h.1 hnul
  · next hnul =>
    split
    · next hlength =>
      exact iff_of_false (fun h => by cases h) fun h => Nat.not_lt_of_le hlength h.2.1
    · next hlength =>
      split
      · next hnil => exact iff_of_false (fun h => by cases h) fun h => h.2.2 hnil
      · next hnil => exact iff_of_true rfl ⟨hnul, Nat.lt_of_not_le hlength, hnil⟩

theorem follow_eq_ok {p : Path} {position : Position} :
    t.follow p = .ok position ↔
      checkPath p = .ok () ∧ t.walk maxLinks (p.start t.workingDir) p.steps = .ok position := by
  unfold follow
  rw [bind_eq_ok]
  refine ⟨?_, ?_⟩
  · rintro ⟨u, hcheck, hwalk⟩
    exact ⟨hcheck, hwalk⟩
  · rintro ⟨hcheck, hwalk⟩
    exact ⟨(), hcheck, hwalk⟩

section NoLinks

variable {p : Path} {es : List (Bytes × Node)} (names : List Bytes)

/-- A path whose names are those of a place, and lead there without links, leads to the place. -/
theorem follow_of_at? {node : Node} (hcheck : checkPath p = .ok ())
    (hsteps : p.steps = names.map .enter)
    (hat : t.top.at? (p.start t.workingDir ++ names) = some node)
    (hlink : ∀ target, node ≠ .link target) :
    t.follow p = .ok ⟨maxLinks, p.start t.workingDir ++ names⟩ := by
  refine follow_eq_ok.mpr ⟨hcheck, ?_⟩
  have hwalk := @walk_names t maxLinks (p.start t.workingDir) [] names node hat hlink
  rw [hsteps, ← List.append_nil (names.map Step.enter), hwalk, walk]

/-- A path that would lead to an entry that is not there. -/
theorem follow_of_none {name : Bytes} {rest : List Step} (hcheck : checkPath p = .ok ())
    (hsteps : p.steps = names.map .enter ++ .enter name :: rest)
    (hat : t.top.at? (p.start t.workingDir ++ names) = some (.dir es))
    (hname : isEntryName name = true) (hnone : (Node.dir es).child? name = none) :
    t.follow p = .error .notFound := by
  have hdir : ∀ target, Node.dir es ≠ .link target := fun target h => by cases h
  rw [follow, hcheck, hsteps]
  exact (walk_names hat hdir).trans (walk_enter_of_none hat hname hnone)

/-- The file at a place is read. -/
theorem read_of_at? {content : Bytes} (hcheck : checkPath p = .ok ())
    (hsteps : p.steps = names.map .enter)
    (hat : t.top.at? (p.start t.workingDir ++ names) = some (.file content)) :
    t.read p = .ok content := by
  have hfollow := follow_of_at? names hcheck hsteps hat fun target h => by cases h
  simp only [read, status, hfollow, hat]

end NoLinks

/-- Where a path cannot be followed there is no file. -/
theorem isFile_of_follow_error {p : Path} {e : OsError} (h : t.follow p = .error e) :
    t.isFile p = false := by
  rw [isFile, status, h]

/-- What is read is a file. -/
theorem isFile_of_read {p : Path} {content : Bytes} (h : t.read p = .ok content) :
    t.isFile p = true := by
  rw [read] at h
  rw [isFile]
  rcases hstatus : t.status p with e | (_ | _ | _)
  · rw [hstatus] at h
    cases h
  · rfl
  · rw [hstatus] at h
    cases h
  · rw [hstatus] at h
    cases h

/-- A path leads to a file if it can be followed and its steps lead to one. -/
theorem isFile_iff {p : Path} :
    t.isFile p = true ↔
      checkPath p = .ok () ∧ t.LeadsToFile maxLinks (p.start t.workingDir) p.steps := by
  unfold isFile status LeadsToFile
  refine ⟨?_, ?_⟩
  · intro h
    cases hfollow : t.follow p with
    | error e => simp [hfollow] at h
    | ok position =>
      obtain ⟨hcheck, hwalk⟩ := follow_eq_ok.mp hfollow
      rcases hat : t.top.at? position.place with _ | (content | _ | _)
      · simp [hfollow, hat] at h
      · exact ⟨hcheck, position, content, hwalk, hat⟩
      · simp [hfollow, hat] at h
      · simp [hfollow, hat] at h
  · rintro ⟨hcheck, position, content, hwalk, hat⟩
    simp [follow_eq_ok.mpr ⟨hcheck, hwalk⟩, hat]

/-- Steps lead to a file in two parts. -/
theorem leadsToFile_append {links : Nat} {place : Location} {first second : List Step} :
    t.LeadsToFile links place (first ++ second) ↔
      ∃ position, t.walk links place first = .ok position ∧
        t.LeadsToFile position.links position.place second := by
  unfold LeadsToFile
  rw [walk_append]
  refine ⟨?_, ?_⟩
  · rintro ⟨p, content, hwalk, hfile⟩
    obtain ⟨q, hfirst, hsecond⟩ := bind_eq_ok.mp hwalk
    exact ⟨q, hfirst, p, content, hsecond, hfile⟩
  · rintro ⟨q, hfirst, p, content, hsecond, hfile⟩
    exact ⟨p, content, bind_eq_ok.mpr ⟨q, hfirst, hsecond⟩, hfile⟩

/-- The step that closes a path stays where it is, in a directory. -/
theorem walk_close_eq_ok {links : Nat} {place : Location} {position : Position} :
    t.walk links place [.close] = .ok position ↔
      (∃ node, t.dirAt place = .ok node) ∧ position = ⟨links, place⟩ := by
  rw [walk]
  · cases t.dirAt place with
    | error e =>
      refine iff_of_false (fun h => by cases h) ?_
      rintro ⟨⟨node, hnode⟩, -⟩
      cases hnode
    | ok node =>
      dsimp only
      rw [walk]
      refine ⟨fun h => ⟨⟨node, rfl⟩, ?_⟩, fun h => ?_⟩
      · cases h
        rfl
      · rw [h.2]
  · intro name hname
    cases hname
  · intro hup
    cases hup

/-- To a directory a path leads with or without the step that closes it. -/
theorem walk_steps_of_dir {links : Nat} {place : Location} {position : Position}
    {es : List (Bytes × Node)} (hdir : t.top.at? position.place = some (.dir es)) :
    t.walk links place root.steps = .ok position ↔
      t.walk links place root.bareSteps = .ok position := by
  have hsteps : root.steps =
      root.bareSteps ++ if root.bytes.getLast? = some slash then [.close] else [] := rfl
  rw [hsteps]
  split
  · rw [walk_append, bind_eq_ok]
    refine ⟨?_, fun h => ⟨position, h, walk_close_eq_ok.mpr ⟨⟨_, dirAt_of_at? hdir⟩, rfl⟩⟩⟩
    rintro ⟨q, hfirst, hclose⟩
    obtain ⟨-, rfl⟩ := walk_close_eq_ok.mp hclose
    exact hfirst
  · rw [List.append_nil]

theorem enterRoot_eq_ok {position : Position} :
    enterRoot t root = .ok position ↔
      t.follow root = .ok position ∧ ∃ es, t.top.at? position.place = some (.dir es) := by
  unfold enterRoot
  refine ⟨?_, ?_⟩
  · intro h
    split at h
    · cases h
    · cases h
    · next p hfollow =>
      split at h
      · next es hat =>
        cases h
        exact ⟨hfollow, es, hat⟩
      · cases h
  · rintro ⟨hfollow, es, hat⟩
    rw [hfollow]
    dsimp only
    rw [hat]

/-- A root without links is entered. -/
theorem enterRoot_of_at? {es : List (Bytes × Node)} (names : List Bytes)
    (hcheck : checkPath root = .ok ()) (hsteps : root.steps = names.map .enter)
    (hat : t.top.at? (root.start t.workingDir ++ names) = some (.dir es)) :
    enterRoot t root = .ok ⟨maxLinks, root.start t.workingDir ++ names⟩ := by
  have hdir : ∀ target, Node.dir es ≠ .link target := fun target h => by cases h
  exact enterRoot_eq_ok.mpr ⟨follow_of_at? names hcheck hsteps hat hdir, es, hat⟩

/-- A root that leads nowhere is missing. -/
theorem enterRoot_of_follow (h : t.follow root = .error .notFound) :
    enterRoot t root = .error (.rootMissing root) := by
  rw [enterRoot, h]

theorem leadsToFile_descend (hroot : root.bytes ≠ []) {names : List Bytes}
    (hplain : ∀ n ∈ names, Plain n) (hne : names ≠ []) :
    t.LeadsToFile maxLinks ((root.descend names).start t.workingDir) (root.descend names).steps ↔
      ∃ position, t.walk maxLinks (root.start t.workingDir) root.bareSteps = .ok position ∧
        t.LeadsToFile position.links position.place (names.map .enter) := by
  have hstart : (root.descend names).start t.workingDir = root.start t.workingDir := by
    unfold Path.start
    rw [Path.isAbsolute_descend hroot hplain]
  rw [hstart, Path.steps_descend hroot hplain hne, leadsToFile_append]

/-- If a path through a root leads to a file, it is short enough to be followed, the root can be
entered, and the names lead to a file from there. -/
theorem of_isFile_descend (hroot : root.bytes ≠ []) {names : List Bytes}
    (hplain : ∀ n ∈ names, Plain n) (hne : names ≠ [])
    (h : t.isFile (root.descend names) = true) :
    (root.descend names).bytes.length < maxPathLength ∧
      ∃ position, enterRoot t root = .ok position ∧
        t.LeadsToFile position.links position.place (names.map .enter) := by
  have hbegins := Path.prefix_descend hroot hplain
  obtain ⟨hcheck, hleads⟩ := isFile_iff.mp h
  obtain ⟨position, hwalk, hfile⟩ := (leadsToFile_descend hroot hplain hne).mp hleads
  obtain ⟨hnul, hlength, -⟩ := checkPath_eq_ok.mp hcheck
  -- the names lead on from the root, so it is a directory
  have hdir : ∃ es, t.top.at? position.place = some (.dir es) := by
    refine Classical.byContradiction fun hnot => ?_
    obtain ⟨n, names, rfl⟩ := List.exists_cons_of_ne_nil hne
    exact not_leadsToFile_of_not_dir (fun es hes => hnot ⟨es, hes⟩) hfile
  obtain ⟨es, hat⟩ := hdir
  refine ⟨hlength, position, enterRoot_eq_ok.mpr ⟨follow_eq_ok.mpr ⟨?_, ?_⟩, es, hat⟩, hfile⟩
  · exact checkPath_eq_ok.mpr ⟨fun h => hnul (hbegins.subset h),
      Nat.lt_of_le_of_lt hbegins.length_le hlength, hroot⟩
  · exact (walk_steps_of_dir hat).mpr hwalk

/-- If a root can be entered and names of entries lead to a file from there, so does the path
through the root, where it is short enough to be followed. -/
theorem isFile_descend (hroot : root.bytes ≠ []) {names : List Bytes}
    (hnames : ∀ n ∈ names, isEntryName n = true) (hne : names ≠ [])
    (hlength : (root.descend names).bytes.length < maxPathLength) {position : Position}
    (henter : enterRoot t root = .ok position)
    (hfile : t.LeadsToFile position.links position.place (names.map .enter)) :
    t.isFile (root.descend names) = true := by
  have hplain : ∀ n ∈ names, Plain n := fun n hn => plain_of_isEntryName (hnames n hn)
  have hbegins := Path.prefix_descend hroot hplain
  obtain ⟨hfollow, es, hat⟩ := enterRoot_eq_ok.mp henter
  obtain ⟨hcheck, hwalk⟩ := follow_eq_ok.mp hfollow
  obtain ⟨hnul, -, -⟩ := checkPath_eq_ok.mp hcheck
  refine isFile_iff.mpr ⟨checkPath_eq_ok.mpr ⟨?_, hlength, ?_⟩,
    (leadsToFile_descend hroot hplain hne).mpr ⟨position, (walk_steps_of_dir hat).mp hwalk, hfile⟩⟩
  · intro hzero
    rcases Path.mem_bytes_descend hroot hplain hzero with hb | hb | ⟨n, hn, hb⟩
    · exact hnul hb
    · exact absurd hb (by decide)
    · exact zero_not_mem_of_isEntryName (hnames n hn) hb
  · intro hnil
    rw [hnil] at hbegins
    exact hroot (List.prefix_nil.mp hbegins)

end FileTree

/-! ## Artifacts -/

/-- The artifacts below a root, if it can be entered. -/
def artifactsUnder (t : FileTree) (root : Path) : List Artifact :=
  match enterRoot t root with
  | .error _ => []
  | .ok position => artifactsBelow t root position

/-- The artifacts below a root that is entered. -/
theorem artifactsUnder_of_enterRoot {t : FileTree} {root : Path} {position : Position}
    {node : Node} {found : List (List Bytes)} (henter : enterRoot t root = .ok position)
    (hat : t.top.at? position.place = some node)
    (hfound : t.filesBelow root position.links position.place [] node = found) :
    artifactsUnder t root = found.filterMap fun names =>
      (artifactName? root (root.descend names)).map fun name =>
        { name, path := root.descend names } := by
  simp only [artifactsUnder, henter, artifactsBelow, hat, hfound]

/-- Below a root that cannot be followed there are none. -/
theorem artifactsUnder_of_follow_error {t : FileTree} {root : Path} {e : OsError}
    (h : t.follow root = .error e) : artifactsUnder t root = [] := by
  rw [artifactsUnder, enterRoot, h]
  cases e <;> rfl

/-- A scan of the root passes over no link that leads back to a directory that is being
descended. -/
def NoLinkBack (t : FileTree) (root : Path) : Prop :=
  ∀ position es, enterRoot t root = .ok position →
    t.top.at? position.place = some (.dir es) →
    ¬ t.LinksBack root position.links position.place [] (.dir es)

/-- The artifacts below a root have paths that are short enough to be followed. -/
def PathsFit (t : FileTree) (root : Path) : Prop :=
  ∀ c ∈ artifactsUnder t root, c.path.bytes.length < maxPathLength

/-- The artifacts below a root are at the files that a scan finds there, where their names define a
type. -/
theorem mem_artifactsUnder_iff {t : FileTree} {root : Path} {c : Artifact} :
    c ∈ artifactsUnder t root ↔
      ∃ position es names, enterRoot t root = .ok position ∧
        t.top.at? position.place = some (.dir es) ∧
        names ∈ t.filesBelow root position.links position.place [] (.dir es) ∧
        c.path = root.descend names ∧ artifactName? root (root.descend names) = some c.name := by
  unfold artifactsUnder
  cases henter : enterRoot t root with
  | error fault => simp
  | ok position =>
    obtain ⟨-, es, hat⟩ := FileTree.enterRoot_eq_ok.mp henter
    unfold artifactsBelow
    dsimp only
    rw [hat]
    refine ⟨fun hc => ?_, ?_⟩
    · obtain ⟨names, hnames, hc⟩ := List.mem_filterMap.mp hc
      obtain ⟨name, hname, rfl⟩ := Option.map_eq_some_iff.mp hc
      exact ⟨position, es, names, rfl, hat, hnames, rfl, hname⟩
    · rintro ⟨position', es', names, hposition, hat', hnames, hpath, hname⟩
      cases hposition
      cases hat.symm.trans hat'
      obtain ⟨name, path⟩ := c
      dsimp only at hpath hname
      subst hpath
      exact List.mem_filterMap.mpr ⟨names, hnames, by rw [hname]; rfl⟩

/-- Where names of entries below a root lead to a file and define a type, a look-up of the type
finds the file there. -/
theorem isFile_join_of_leadsToFile {t : FileTree} {root : Path} (hroot : root.bytes ≠ [])
    {position : Position} (henter : enterRoot t root = .ok position) {names : List Bytes}
    (hentries : ∀ n ∈ names, isEntryName n = true)
    (hlength : (root.descend names).bytes.length < maxPathLength)
    (hleads : t.LeadsToFile position.links position.place (names.map .enter)) {name : String}
    (hname : artifactName? root (root.descend names) = some name) :
    ∃ below, artifactPath? name = some below ∧ root.descend names = root.join below ∧
      t.isFile (root.descend names) = true := by
  have hplain : ∀ n ∈ names, Plain n := fun n hn => plain_of_isEntryName (hentries n hn)
  obtain ⟨segments, hspells, rfl⟩ := (artifactName?_eq_some root hplain).mp hname
  have hbelow := artifactPath?_eq_some.mpr ⟨segments, hspells, rfl⟩
  refine ⟨_, hbelow, (hspells.join root).symm, ?_⟩
  exact FileTree.isFile_descend hroot hentries hspells.names_ne_nil hlength henter hleads

/-- The artifacts that a scan finds below a root are those that a look-up finds there. -/
theorem mem_artifactsUnder {t : FileTree} {root : Path} (hroot : root.bytes ≠ [])
    (hback : NoLinkBack t root) (hfit : PathsFit t root) {c : Artifact} :
    c ∈ artifactsUnder t root ↔
      ∃ below, artifactPath? c.name = some below ∧ c.path = root.join below ∧
        t.isFile c.path = true := by
  refine ⟨fun hc => ?_, ?_⟩
  · have hlength : c.path.bytes.length < maxPathLength := hfit c hc
    obtain ⟨position, es, names, henter, hat, hnames, hpath, hname⟩ :=
      mem_artifactsUnder_iff.mp hc
    -- what the scan finds are names of entries, and these lead to a file
    have hentries := FileTree.isEntryName_of_mem_filesBelow hnames
    have hplain : ∀ n ∈ names, Plain n := fun n hn => plain_of_isEntryName (hentries n hn)
    rw [hpath] at hlength ⊢
    have hleads := (FileTree.mem_filesBelow hat hroot (hback position es henter hat) hplain
      hlength).mp hnames
    exact isFile_join_of_leadsToFile hroot henter hentries hlength hleads hname
  · rintro ⟨below, hbelow, hpath, hfile⟩
    -- the path that is looked up goes through the root by plain names
    obtain ⟨segments, hspells, rfl⟩ := artifactPath?_eq_some.mp hbelow
    rw [hspells.join root] at hpath
    rw [hpath] at hfile
    obtain ⟨hlength, position, henter, hleads⟩ :=
      FileTree.of_isFile_descend hroot hspells.plain hspells.names_ne_nil hfile
    obtain ⟨-, es, hat⟩ := FileTree.enterRoot_eq_ok.mp henter
    have hmem := (FileTree.mem_filesBelow hat hroot (hback position es henter hat) hspells.plain
      hlength).mpr hleads
    have hname := (artifactName?_eq_some root hspells.plain).mpr ⟨segments, hspells, rfl⟩
    exact mem_artifactsUnder_iff.mpr ⟨position, es, _, henter, hat, hmem, hpath, hname⟩

end RoleWiring
