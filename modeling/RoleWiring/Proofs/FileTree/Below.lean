import RoleWiring.Proofs.Path
import RoleWiring.Scan

/-!
# Files below a directory

A scan goes down from a directory; a path is followed from the top. Both come to the
same files: the names that a scan finds below a directory are those that, followed from
there, lead to a file. Two things are set aside, as they are where the two differ. A
path can be too long to be followed, and a scan passes over a link that leads back to a
directory that it is descending (`LinksBack`).

* `filesBelow_eq` — a scan takes the entries in turn;
* `mem_filesBelow` — what a scan finds below a directory.
-/

namespace RoleWiring

/-- What is at names below an entry is below a directory. -/
theorem Node.at?_cons_eq_some {node found : Node} {name : Bytes} {names : Location} :
    node.at? (name :: names) = some found ↔
      ∃ es child, node = .dir es ∧ (Node.dir es).child? name = some child ∧
        child.at? names = some found := by
  constructor
  · intro h
    rw [at?] at h
    split at h
    · next child hchild =>
      cases node with
      | dir es => exact ⟨es, child, rfl, hchild, h⟩
      | file content => cases (Option.ite_none_right_eq_some.mp hchild).2
      | link target => cases (Option.ite_none_right_eq_some.mp hchild).2
    · cases h
  · rintro ⟨es, child, rfl, hchild, h⟩
    rw [at?, hchild]
    exact h

namespace FileTree

variable {t : FileTree} {links : Nat} {place : Location} {name : Bytes} {rest : List Step}

/-- The steps lead to a file. -/
def LeadsToFile (t : FileTree) (links : Nat) (place : Location) (steps : List Step) : Prop :=
  ∃ p content, t.walk links place steps = .ok p ∧ t.top.at? p.place = some (.file content)

/-! ## Steps into entries -/

section Entries

variable {es : List (Bytes × Node)}

theorem dirAt_of_at? (h : t.top.at? place = some (.dir es)) : t.dirAt place = .ok (.dir es) := by
  unfold dirAt
  rw [h]

/-- An entry in a directory, if its name is one that an entry can have. -/
theorem entryAt_of_child? {node : Node} (h : t.top.at? place = some (.dir es))
    (hchild : (Node.dir es).child? name = some node) :
    t.entryAt place name = .ok (some node) := by
  unfold entryAt
  rw [dirAt_of_at? h]
  dsimp only
  rw [if_pos (Node.isEntryName_of_child? hchild), hchild]

/-- No steps lead on from something that is no directory. -/
theorem not_leadsToFile_of_not_dir (h : ∀ es, t.top.at? place ≠ some (.dir es)) :
    ¬ t.LeadsToFile links place (.enter name :: rest) := by
  rintro ⟨p, content, hwalk, -⟩
  have herror : ∃ e, t.entryAt place name = .error e := by
    unfold entryAt dirAt
    rcases hat : t.top.at? place with _ | (_ | _ | es)
    · exact ⟨_, rfl⟩
    · exact ⟨_, rfl⟩
    · exact ⟨_, rfl⟩
    · exact absurd hat (h es)
  obtain ⟨e, he⟩ := herror
  rw [walk, he] at hwalk
  cases hwalk

/-- No steps lead on through an entry that is not there. -/
theorem not_leadsToFile_of_none (h : t.top.at? place = some (.dir es))
    (hchild : (Node.dir es).child? name = none) :
    ¬ t.LeadsToFile links place (.enter name :: rest) := by
  rintro ⟨p, content, hwalk, -⟩
  rw [walk] at hwalk
  unfold entryAt at hwalk
  rw [dirAt_of_at? h] at hwalk
  dsimp only at hwalk
  split at hwalk
  · next herror => cases hwalk
  · next hnone => cases hwalk
  · next target hsome =>
    rw [hchild] at hsome
    split at hsome
    · cases hsome
    · split at hsome <;> cases hsome
  · next node _ hsome =>
    rw [hchild] at hsome
    split at hsome
    · cases hsome
    · split at hsome <;> cases hsome

/-- An entry that is no link is at its place. -/
theorem leadsToFile_of_child? {node : Node} (h : t.top.at? place = some (.dir es))
    (hchild : (Node.dir es).child? name = some node) (hlink : ∀ target, node ≠ .link target) :
    t.LeadsToFile links place (.enter name :: rest) ↔
      t.LeadsToFile links (place ++ [name]) rest := by
  unfold LeadsToFile
  rw [walk, entryAt_of_child? h hchild]
  cases node with
  | link target => exact absurd rfl (hlink target)
  | file content => rfl
  | dir es => rfl

/-- The steps go on from where a link leads. -/
theorem leadsToFile_of_link {target : Path} (h : t.top.at? place = some (.dir es))
    (hchild : (Node.dir es).child? name = some (.link target)) :
    t.LeadsToFile links place (.enter name :: rest) ↔
      target.bytes ≠ [] ∧ 0 < links ∧
        ∃ p, t.walk (links - 1) (target.start place) target.steps = .ok p ∧
          t.LeadsToFile p.links p.place rest := by
  unfold LeadsToFile
  rw [walk, entryAt_of_child? h hchild]
  dsimp only
  by_cases htarget : target.bytes = []
  · simp [htarget]
  · by_cases hlinks : 0 < links
    · rw [if_neg htarget, if_pos hlinks, walk_append]
      refine ⟨?_, ?_⟩
      · rintro ⟨p, content, hwalk, hfile⟩
        cases hfirst : t.walk (links - 1) (target.start place) target.steps with
        | error e =>
          rw [hfirst] at hwalk
          cases hwalk
        | ok q =>
          rw [hfirst] at hwalk
          exact ⟨htarget, hlinks, q, rfl, p, content, hwalk, hfile⟩
      · rintro ⟨-, -, q, hfirst, p, content, hwalk, hfile⟩
        rw [hfirst]
        exact ⟨p, content, hwalk, hfile⟩
    · simp [htarget, hlinks]

/-- From a file only no steps at all lead to a file. -/
theorem leadsToFile_of_file {content : Bytes} {names : List Bytes}
    (h : t.top.at? place = some (.file content)) :
    t.LeadsToFile links place (names.map .enter) ↔ names = [] := by
  cases names with
  | nil => exact iff_of_true ⟨⟨links, place⟩, content, by rw [List.map_nil, walk], h⟩ rfl
  | cons n names =>
    refine iff_of_false (not_leadsToFile_of_not_dir fun es hes => ?_) (List.cons_ne_nil _ _)
    rw [h] at hes
    cases hes

/-- From something that is neither file nor directory no steps lead to a file. -/
theorem not_leadsToFile {names : List Bytes}
    (hfile : ∀ content, t.top.at? place ≠ some (.file content))
    (hdir : ∀ es, t.top.at? place ≠ some (.dir es)) :
    ¬ t.LeadsToFile links place (names.map .enter) := by
  cases names with
  | nil =>
    rintro ⟨p, content, hwalk, h⟩
    rw [List.map_nil, walk] at hwalk
    cases hwalk
    exact hfile content h
  | cons n names => exact not_leadsToFile_of_not_dir hdir

theorem at?_child (h : t.top.at? place = some (.dir es)) {node : Node}
    (hchild : (Node.dir es).child? name = some node) :
    t.top.at? (place ++ [name]) = some node := by
  rw [Node.at?_append, h]
  show (Node.dir es).at? [name] = some node
  rw [Node.at?, hchild]
  rfl

/-- Names along which there are no links lead to the place that they name. -/
theorem walk_names {names : List Bytes} {node : Node}
    (hat : t.top.at? (place ++ names) = some node) (hlink : ∀ target, node ≠ .link target) :
    t.walk links place (names.map .enter ++ rest) = t.walk links (place ++ names) rest := by
  induction names generalizing place with
  | nil => rw [List.map_nil, List.nil_append, List.append_nil]
  | cons name names ih =>
    have hbelow := hat
    rw [Node.at?_append, Option.bind_eq_some_iff] at hbelow
    obtain ⟨here, hhere, hbelow⟩ := hbelow
    obtain ⟨es, child, rfl, hchild, hbelow⟩ := Node.at?_cons_eq_some.mp hbelow
    have hstep : t.walk links place (.enter name :: (names.map .enter ++ rest)) =
        t.walk links (place ++ [name]) (names.map .enter ++ rest) := by
      rw [walk, entryAt_of_child? hhere hchild]
      cases child with
      | link target =>
        -- nothing is below a link, and what is at the last name is none
        cases names with
        | nil => exact absurd (Option.some.inj hbelow).symm (hlink target)
        | cons n names =>
          obtain ⟨es', -, heq, -⟩ := Node.at?_cons_eq_some.mp hbelow
          cases heq
      | file content => rfl
      | dir es' => rfl
    rw [List.append_cons] at hat ⊢
    rw [← ih hat]
    exact hstep

/-- An entry that is not there ends a walk. -/
theorem walk_enter_of_none (hat : t.top.at? place = some (.dir es))
    (hname : isEntryName name = true) (hnone : (Node.dir es).child? name = none) :
    t.walk links place (.enter name :: rest) = .error .notFound := by
  rw [walk, entryAt, dirAt_of_at? hat]
  dsimp only
  rw [if_pos hname, hnone]

end Entries

/-! ## Links that lead back -/

/-- Below the directory `node` a scan passes over a link because it leads back to a directory
that is being descended. The directory is at `place`, reached by `path` with `links` more links
to follow, inside of the directories `above`. -/
inductive LinksBack (t : FileTree) : Path → Nat → Location → List Location → Node → Prop
  /-- the link is an entry of the directory -/
  | here {path : Path} {links : Nat} {place : Location} {above : List Location} {node : Node}
      {name : Bytes} {target : Path} {p : Position} {es : List (Bytes × Node)}
      (hchild : node.child? name = some (.link target))
      (hpath : (path.child name).bytes.length < maxPathLength)
      (htarget : target.bytes ≠ []) (hlinks : 0 < links)
      (hwalk : t.walk (links - 1) (target.start place) target.steps = .ok p)
      (hdir : t.top.at? p.place = some (.dir es)) (hback : p.place ∈ place :: above) :
      LinksBack t path links place above node
  /-- the link is below a directory that is an entry -/
  | inDir {path : Path} {links : Nat} {place : Location} {above : List Location} {node : Node}
      {name : Bytes} {es : List (Bytes × Node)}
      (hchild : node.child? name = some (.dir es))
      (hpath : (path.child name).bytes.length < maxPathLength)
      (hbelow : LinksBack t (path.child name) links (place ++ [name]) (place :: above) (.dir es)) :
      LinksBack t path links place above node
  /-- the link is below a directory that another link leads to -/
  | inLink {path : Path} {links : Nat} {place : Location} {above : List Location} {node : Node}
      {name : Bytes} {target : Path} {p : Position} {es : List (Bytes × Node)}
      (hchild : node.child? name = some (.link target))
      (hpath : (path.child name).bytes.length < maxPathLength)
      (htarget : target.bytes ≠ []) (hlinks : 0 < links)
      (hwalk : t.walk (links - 1) (target.start place) target.steps = .ok p)
      (hdir : t.top.at? p.place = some (.dir es))
      (hbelow : LinksBack t (path.child name) p.links p.place (place :: above) (.dir es)) :
      LinksBack t path links place above node

/-- Below a directory that holds nothing but files no link leads back. -/
theorem not_linksBack_of_files {path : Path} {above : List Location} {node : Node}
    (h : ∀ name child, node.child? name = some child → ∃ content, child = .file content) :
    ¬ t.LinksBack path links place above node := by
  intro hback
  cases hback with
  | here hchild =>
    obtain ⟨content, hfile⟩ := h _ _ hchild
    cases hfile
  | inDir hchild =>
    obtain ⟨content, hfile⟩ := h _ _ hchild
    cases hfile
  | inLink hchild =>
    obtain ⟨content, hfile⟩ := h _ _ hchild
    cases hfile

/-! ## What a scan finds below a directory -/

section Scans

variable (t) (path : Path) (links : Nat) (place : Location) (above : List Location) (node : Node)

/-- What a scan finds through the entry `name` of a directory. -/
def entryFiles (name : Bytes) : List (List Bytes) :=
  match node.child? name with
  | none => []
  | some (.file _) => [[name]]
  | some (.dir es) =>
    if maxPathLength ≤ (path.child name).bytes.length then []
    else
      (t.filesBelow (path.child name) links (place ++ [name]) (place :: above) (.dir es)).map
        (name :: ·)
  | some (.link target) =>
    if maxPathLength ≤ (path.child name).bytes.length ∨ target.bytes = [] then []
    else if 0 < links then
      match t.walk (links - 1) (target.start place) target.steps with
      | .error _ => []
      | .ok p =>
        match t.top.at? p.place with
        | some (.file _) => [[name]]
        | some (.dir es) =>
          if (place :: above).contains p.place then []
          else
            (t.filesBelow (path.child name) p.links p.place (place :: above) (.dir es)).map
              (name :: ·)
        | _ => []
    else []

/-- A scan takes the entries in turn. -/
theorem filesBelow_eq :
    t.filesBelow path links place above node =
      node.names.flatMap (t.entryFiles path links place above node) := by
  rw [filesBelow]
  refine congrArg (fun f => node.names.flatMap f) (funext fun name => ?_)
  unfold entryFiles
  split
  · next h => rw [h]
  · next h => rw [h]
  · next h => rw [h]
  · next target h =>
    rw [h]
    dsimp only
    split
    · rfl
    · split
      · split
        · next hwalk => rw [hwalk]
        · next p hwalk =>
          rcases hat : t.top.at? p.place with _ | (_ | _ | _) <;>
            simp only [hwalk, hat, List.contains_iff_mem]
      · rfl

variable {t path links place above node}

/-- A link that leads back to a directory that is being descended is passed over. -/
theorem entryFiles_of_link_back {name : Bytes} {target : Path} {p : Position}
    {es : List (Bytes × Node)} (hchild : node.child? name = some (.link target))
    (hwalk : t.walk (links - 1) (target.start place) target.steps = .ok p)
    (hdir : t.top.at? p.place = some (.dir es)) (hback : p.place ∈ place :: above) :
    t.entryFiles path links place above node name = [] := by
  rw [entryFiles, hchild]
  simp only [hwalk, hdir, List.contains_iff_mem, hback, if_true, ite_self]

/-- Everything that is found through an entry begins with the name of the entry, and goes on with
what is found below some directory, if it goes on. -/
theorem eq_cons_of_mem_entryFiles {n : Bytes} {names : List Bytes}
    (h : names ∈ t.entryFiles path links place above node n) :
    (node.child? n).isSome ∧ ∃ rest, names = n :: rest ∧
      (rest = [] ∨
        ∃ path links place above node, rest ∈ t.filesBelow path links place above node) := by
  have hmap : ∀ {path links place above node},
      names ∈ (t.filesBelow path links place above node).map (n :: ·) → ∃ rest, names = n :: rest ∧
        (rest = [] ∨
          ∃ path links place above node, rest ∈ t.filesBelow path links place above node) := by
    intro path links place above node hmem
    obtain ⟨rest, hrest, rfl⟩ := List.mem_map.mp hmem
    exact ⟨rest, rfl, .inr ⟨path, links, place, above, node, hrest⟩⟩
  unfold entryFiles at h
  rcases hchild : node.child? n with _ | (content | target | es)
  · rw [hchild] at h
    cases h
  · rw [hchild] at h
    exact ⟨rfl, [], List.mem_singleton.mp h, .inl rfl⟩
  · rw [hchild] at h
    dsimp only at h
    split at h
    · cases h
    · split at h
      · split at h
        · cases h
        · split at h
          · exact ⟨rfl, [], List.mem_singleton.mp h, .inl rfl⟩
          · split at h
            · cases h
            · exact ⟨rfl, hmap h⟩
          · cases h
      · cases h
  · rw [hchild] at h
    dsimp only at h
    split at h
    · cases h
    · exact ⟨rfl, hmap h⟩

/-- What is found is found through the entry that it begins with. -/
theorem cons_mem_filesBelow {n : Bytes} {names : List Bytes} :
    n :: names ∈ t.filesBelow path links place above node ↔
      n :: names ∈ t.entryFiles path links place above node n := by
  rw [filesBelow_eq, List.mem_flatMap]
  refine ⟨?_, ?_⟩
  · rintro ⟨m, -, hmem⟩
    obtain ⟨-, rest, heq, -⟩ := eq_cons_of_mem_entryFiles hmem
    cases heq
    exact hmem
  · intro hmem
    exact ⟨n, Node.mem_names.mpr (eq_cons_of_mem_entryFiles hmem).1, hmem⟩

theorem nil_not_mem_filesBelow : [] ∉ t.filesBelow path links place above node := by
  rw [filesBelow_eq, List.mem_flatMap]
  rintro ⟨m, -, hmem⟩
  obtain ⟨-, rest, heq, -⟩ := eq_cons_of_mem_entryFiles hmem
  cases heq

/-- A scan finds names that entries can have, and no others. -/
theorem isEntryName_of_mem_filesBelow {names : List Bytes}
    (h : names ∈ t.filesBelow path links place above node) :
    ∀ n ∈ names, isEntryName n = true := by
  induction names generalizing path links place above node with
  | nil => exact absurd h nil_not_mem_filesBelow
  | cons n names ih =>
    obtain ⟨hchild, rest, heq, hrest⟩ := eq_cons_of_mem_entryFiles (cons_mem_filesBelow.mp h)
    cases heq
    refine List.forall_mem_cons.mpr ⟨?_, ?_⟩
    · obtain ⟨child, hchild⟩ := Option.isSome_iff_exists.mp hchild
      exact Node.isEntryName_of_child? hchild
    · rcases hrest with rfl | ⟨path, links, place, above, node, hrest⟩
      · exact fun n hn => absurd hn List.not_mem_nil
      · exact ih hrest

theorem cons_mem_map_cons {n : Bytes} {names : List Bytes} {below : List (List Bytes)} :
    n :: names ∈ below.map (n :: ·) ↔ names ∈ below := by
  rw [List.mem_map]
  refine ⟨?_, ?_⟩
  · rintro ⟨rest, hrest, heq⟩
    cases heq
    exact hrest
  · intro h
    exact ⟨names, h, rfl⟩

/-- Through a link a scan finds the file that it leads to, or what it finds below the directory that
it leads to, unless that is being descended. -/
theorem cons_mem_entryFiles_of_link {n : Bytes} {names : List Bytes} {target : Path}
    (hchild : node.child? n = some (.link target))
    (hshort : (path.child n).bytes.length < maxPathLength) :
    n :: names ∈ t.entryFiles path links place above node n ↔
      target.bytes ≠ [] ∧ 0 < links ∧
        ∃ p, t.walk (links - 1) (target.start place) target.steps = .ok p ∧
          match t.top.at? p.place with
          | some (.file _) => names = []
          | some (.dir es) => p.place ∉ place :: above ∧
              names ∈ t.filesBelow (path.child n) p.links p.place (place :: above) (.dir es)
          | _ => False := by
  unfold entryFiles
  rw [hchild]
  dsimp only
  by_cases htarget : target.bytes = []
  · simp [htarget]
  by_cases hlinks : 0 < links
  · rw [if_neg (not_or.mpr ⟨Nat.not_le_of_lt hshort, htarget⟩), if_pos hlinks]
    cases hwalk : t.walk (links - 1) (target.start place) target.steps with
    | error e => simp
    | ok p =>
      simp only [Except.ok.injEq, exists_eq_left', htarget, hlinks, ne_eq, not_false_eq_true,
        true_and]
      rcases t.top.at? p.place with _ | (content | other | es)
      · exact iff_of_false List.not_mem_nil id
      · simp
      · exact iff_of_false List.not_mem_nil id
      · dsimp only
        by_cases hback : p.place ∈ place :: above
        · rw [if_pos (List.contains_iff_mem.mpr hback)]
          exact iff_of_false List.not_mem_nil fun h => h.1 hback
        · rw [if_neg (List.contains_iff_mem.not.mpr hback), cons_mem_map_cons]
          exact (and_iff_right hback).symm
  · simp [hlinks]

end Scans

/-- The names that a scan finds below a directory are those that lead to a file from there,
unless it passes over a link that leads back. Their path has to be one that can be followed. -/
theorem mem_filesBelow {path : Path} {above : List Location} {es : List (Bytes × Node)}
    (hdir : t.top.at? place = some (.dir es)) (hpath : path.bytes ≠ [])
    (hback : ¬ t.LinksBack path links place above (.dir es)) {names : List Bytes}
    (hnames : ∀ n ∈ names, Plain n) (hlength : (path.descend names).bytes.length < maxPathLength) :
    names ∈ t.filesBelow path links place above (.dir es) ↔
      t.LeadsToFile links place (names.map .enter) := by
  induction names generalizing path links place above es with
  | nil =>
    refine ⟨?_, ?_⟩
    · intro h
      exact absurd h nil_not_mem_filesBelow
    · rintro ⟨p, content, hwalk, hfile⟩
      rw [List.map_nil, walk] at hwalk
      cases hwalk
      rw [hdir] at hfile
      cases hfile
  | cons n names ih =>
    obtain ⟨hn, hrest⟩ := List.forall_mem_cons.mp hnames
    have hchildPath := Path.bytes_child_ne_nil hpath hn
    -- the path of the entry is a part of the whole path and no longer than it
    have hshort : (path.child n).bytes.length < maxPathLength :=
      Nat.lt_of_le_of_lt (Path.prefix_descend hchildPath hrest).length_le hlength
    rw [cons_mem_filesBelow, List.map_cons]
    rcases hchild : (Node.dir es).child? n with _ | (content | target | es')
    · refine iff_of_false ?_ (not_leadsToFile_of_none hdir hchild)
      rw [entryFiles, hchild]
      exact List.not_mem_nil
    · rw [leadsToFile_of_child? hdir hchild (fun target h => by cases h),
        leadsToFile_of_file (at?_child hdir hchild), entryFiles, hchild]
      simp
    · rw [leadsToFile_of_link hdir hchild, cons_mem_entryFiles_of_link hchild hshort]
      refine and_congr_right fun htarget => and_congr_right fun hlinks =>
        exists_congr fun p => and_congr_right fun hwalk => ?_
      rcases hat : t.top.at? p.place with _ | (content | other | es')
      · exact iff_of_false id (not_leadsToFile (by simp [hat]) (by simp [hat]))
      · exact (leadsToFile_of_file hat).symm
      · exact iff_of_false id (not_leadsToFile (by simp [hat]) (by simp [hat]))
      · -- the link does not lead back, so the scan goes on in the directory that it leads to
        have hnot : p.place ∉ place :: above := fun h =>
          hback (.here hchild hshort htarget hlinks hwalk hat h)
        refine (and_iff_right hnot).trans ?_
        exact ih hat hchildPath
          (fun h => hback (.inLink hchild hshort htarget hlinks hwalk hat h)) hrest hlength
    · rw [leadsToFile_of_child? hdir hchild (fun target h => by cases h), entryFiles, hchild]
      dsimp only
      rw [if_neg (Nat.not_le_of_lt hshort), cons_mem_map_cons]
      exact ih (at?_child hdir hchild) hchildPath
        (fun h => hback (.inDir hchild hshort h)) hrest hlength

end FileTree

end RoleWiring
