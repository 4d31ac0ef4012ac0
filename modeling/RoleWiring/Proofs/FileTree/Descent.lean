import RoleWiring.Proofs.FileTree.Root
import RoleWiring.Proofs.FileTree.Write

/-!
# Descending from a root

What a scan finds below a root, said without the scan: the files to which names lead down
from it (`LiesBelow`). Every entry on the way is seen at its place, and a link leads where
its path leads anyone who follows it.

* `LiesBelow.cons_iff` — what the first entry on the way can be;
* `mem_filesBelow_iff` — a scan finds the files that lie below, and nothing else;
* `filesBelow_sorted` — it finds them in the order of their names;
* `LiesBelow.leadsToFile` — the names lead to a file from there on;
* `Grows.liesBelow` — what lies below stays there in a tree that grows.
-/

namespace RoleWiring

/-- The path is short enough to be followed. -/
def Path.Short (p : Path) : Prop :=
  p.bytes.length < maxPathLength

theorem Path.descend_concat (p : Path) (names : List Bytes) (n : Bytes) :
    p.descend (names ++ [n]) = (p.descend names).child n :=
  List.foldl_concat ..

namespace FileTree

/-- The names in `names` lead down to a file from the directory at `place`, which the names in
`dirs` led to from the root, inside of the directories `above`. A directory is descended if its path
`opens`. A link is followed by its path, and passed over if it leads nowhere or back to a directory
that is being descended. -/
inductive LiesBelow (t : FileTree) (opens : Path → Prop) (root : Path) :
    List Bytes → Location → List Location → List Bytes → Prop
  /-- the entry is a file -/
  | file {dirs : List Bytes} {place : Location} {above : List Location} {name content : Bytes}
      (hfile : t.sightAt (place ++ [name]) = some (.file content)) :
      LiesBelow t opens root dirs place above [name]
  /-- the entry is a link to a file -/
  | linkedFile {dirs : List Bytes} {place : Location} {above : List Location} {name : Bytes}
      {target : Path} (hlink : t.sightAt (place ++ [name]) = some (.link target))
      (hfile : t.isFile (root.descend (dirs ++ [name])) = true) :
      LiesBelow t opens root dirs place above [name]
  /-- the entry is a directory, and the way goes on there -/
  | dir {dirs : List Bytes} {place : Location} {above : List Location} {name : Bytes}
      {rest : List Bytes} (hdir : t.sightAt (place ++ [name]) = some .dir)
      (hopens : opens (root.descend (dirs ++ [name])))
      (hbelow : LiesBelow t opens root (dirs ++ [name]) (place ++ [name]) (place :: above) rest) :
      LiesBelow t opens root dirs place above (name :: rest)
  /-- the entry is a link to a directory, and the way goes on there -/
  | linkedDir {dirs : List Bytes} {place : Location} {above : List Location} {name : Bytes}
      {target : Path} {position : Position} {rest : List Bytes}
      (hlink : t.sightAt (place ++ [name]) = some (.link target))
      (hfollow : t.follow (root.descend (dirs ++ [name])) = .ok position)
      (hdir : t.sightAt position.place = some .dir) (hnew : position.place ∉ place :: above)
      (hbelow : LiesBelow t opens root (dirs ++ [name]) position.place (place :: above) rest) :
      LiesBelow t opens root dirs place above (name :: rest)

variable {t : FileTree} {opens : Path → Prop} {root : Path} {dirs names : List Bytes}
  {links : Nat} {place : Location} {above : List Location} {name : Bytes} {p : Position}
  {es : List (Bytes × Node)}

/-! ## One entry on the way -/

/-- What the first entry on the way can be. -/
theorem LiesBelow.cons_iff :
    t.LiesBelow opens root dirs place above (name :: names) ↔
      match t.sightAt (place ++ [name]) with
      | none => False
      | some (.file _) => names = []
      | some (.link _) => (names = [] ∧ t.isFile (root.descend (dirs ++ [name])) = true) ∨
          ∃ position, t.follow (root.descend (dirs ++ [name])) = .ok position ∧
            t.sightAt position.place = some .dir ∧ position.place ∉ place :: above ∧
            t.LiesBelow opens root (dirs ++ [name]) position.place (place :: above) names
      | some .dir => opens (root.descend (dirs ++ [name])) ∧
          t.LiesBelow opens root (dirs ++ [name]) (place ++ [name]) (place :: above) names := by
  constructor
  · intro h
    cases h with
    | file hfile =>
      rw [hfile]
    | linkedFile hlink hfile =>
      rw [hlink]
      exact .inl ⟨rfl, hfile⟩
    | dir hdir hopens hbelow =>
      rw [hdir]
      exact ⟨hopens, hbelow⟩
    | linkedDir hlink hfollow hdir hnew hbelow =>
      rw [hlink]
      exact .inr ⟨_, hfollow, hdir, hnew, hbelow⟩
  · intro h
    rcases hsight : t.sightAt (place ++ [name]) with _ | (content | target | _)
    · rw [hsight] at h
      exact h.elim
    · rw [hsight] at h
      cases h
      exact .file hsight
    · rw [hsight] at h
      rcases h with ⟨rfl, hfile⟩ | ⟨position, hfollow, hdir, hnew, hbelow⟩
      · exact .linkedFile hsight hfile
      · exact .linkedDir hsight hfollow hdir hnew hbelow
    · rw [hsight] at h
      exact .dir hsight h.1 h.2

theorem sightAt_eq_dir : t.sightAt place = some .dir ↔ ∃ es, t.top.at? place = some (.dir es) := by
  simp only [sightAt, Option.map_eq_some_iff, Node.sight_eq_dir]
  constructor
  · rintro ⟨node, hat, es, rfl⟩
    exact ⟨es, hat⟩
  · rintro ⟨es, hat⟩
    exact ⟨_, hat, es, rfl⟩

theorem sightAt_eq_file {content : Bytes} :
    t.sightAt place = some (.file content) ↔ t.top.at? place = some (.file content) := by
  simp [sightAt, Option.map_eq_some_iff, Node.sight_eq_file]

/-- What is to be seen of an entry of a directory. -/
theorem sightAt_child (hat : t.top.at? place = some (.dir es)) :
    t.sightAt (place ++ [name]) = ((Node.dir es).child? name).map Node.sight := by
  rw [sightAt, Node.at?_append, hat]
  show ((Node.dir es).at? [name]).map Node.sight = _
  rw [Node.at?]
  cases (Node.dir es).child? name <;> rfl

/-- A step into a directory leads to it. -/
theorem walk_enter_of_dir {es' : List (Bytes × Node)} (hat : t.top.at? place = some (.dir es))
    (hchild : (Node.dir es).child? name = some (.dir es')) :
    t.walk links place [.enter name] = .ok ⟨links, place ++ [name]⟩ := by
  rw [walk, entryAt_of_child? hat hchild]
  dsimp only
  rw [walk]

/-- A step into a link leads where the steps of its target lead. -/
theorem walk_enter_of_link {target : Path} (hat : t.top.at? place = some (.dir es))
    (hchild : (Node.dir es).child? name = some (.link target)) :
    t.walk links place [.enter name] = .ok p ↔
      target.bytes ≠ [] ∧ 0 < links ∧
        t.walk (links - 1) (target.start place) target.steps = .ok p := by
  rw [walk, entryAt_of_child? hat hchild]
  dsimp only
  by_cases htarget : target.bytes = []
  · simp [htarget]
  by_cases hlinks : 0 < links
  · rw [if_neg htarget, if_pos hlinks, List.append_nil]
    simp [htarget, hlinks]
  · simp [htarget, hlinks]

/-! ## Where the names have led -/

/-- The names lead from the root to the position, and all are names of entries. -/
structure Reached (t : FileTree) (root : Path) (dirs : List Bytes) (p : Position) : Prop where
  /-- the root is spelled out -/
  root_ne : root.bytes ≠ []
  /-- and its path can be followed -/
  zero_not_mem : 0 ∉ root.bytes
  /-- the names are names of entries -/
  isEntryName : ∀ n ∈ dirs, isEntryName n = true
  /-- the root and the names are followed in turn -/
  walk : t.walk maxLinks (root.start t.workingDir) (root.bareSteps ++ dirs.map .enter) = .ok p

/-- A root that can be entered has been reached. -/
theorem reached_of_enterRoot (henter : enterRoot t root = .ok p) : t.Reached root [] p := by
  obtain ⟨hfollow, es, hat⟩ := enterRoot_eq_ok.mp henter
  obtain ⟨hcheck, hwalk⟩ := follow_eq_ok.mp hfollow
  obtain ⟨hzero, -, hne⟩ := checkPath_eq_ok.mp hcheck
  refine ⟨hne, hzero, fun n hn => absurd hn List.not_mem_nil, ?_⟩
  rw [List.map_nil, List.append_nil]
  exact (walk_steps_of_dir hat).mp hwalk

namespace Reached

/-- A path to an entry of what was reached is one step longer. -/
theorem follow_iff (h : t.Reached root dirs p) (hname : RoleWiring.isEntryName name = true)
    {position : Position} :
    t.follow (root.descend (dirs ++ [name])) = .ok position ↔
      (root.descend (dirs ++ [name])).Short ∧
        t.walk p.links p.place [.enter name] = .ok position := by
  have hentries : ∀ n ∈ dirs ++ [name], RoleWiring.isEntryName n = true :=
    List.forall_mem_append.mpr ⟨h.isEntryName, List.forall_mem_singleton.mpr hname⟩
  have hplain : ∀ n ∈ dirs ++ [name], Plain n := fun n hn => plain_of_isEntryName (hentries n hn)
  have hzero : 0 ∉ (root.descend (dirs ++ [name])).bytes := by
    intro hmem
    rcases Path.mem_bytes_descend h.root_ne hplain hmem with hb | hb | ⟨n, hn, hb⟩
    · exact h.zero_not_mem hb
    · exact absurd hb (by decide)
    · exact zero_not_mem_of_isEntryName (hentries n hn) hb
  have hne : (root.descend (dirs ++ [name])).bytes ≠ [] := by
    intro hnil
    have hbegins := Path.prefix_descend h.root_ne hplain
    rw [hnil] at hbegins
    exact h.root_ne (List.prefix_nil.mp hbegins)
  have hstart : (root.descend (dirs ++ [name])).start t.workingDir = root.start t.workingDir := by
    rw [Path.start, Path.isAbsolute_descend h.root_ne hplain, Path.start]
  have hwalk : t.walk maxLinks (root.start t.workingDir)
      (root.bareSteps ++ (dirs ++ [name]).map .enter) = t.walk p.links p.place [.enter name] := by
    rw [List.map_append, ← List.append_assoc, walk_append, h.walk]
    rfl
  rw [follow_eq_ok, checkPath_eq_ok, hstart, Path.steps_descend h.root_ne hplain (by simp), hwalk]
  constructor
  · rintro ⟨⟨-, hshort, -⟩, hstep⟩
    exact ⟨hshort, hstep⟩
  · rintro ⟨hshort, hstep⟩
    exact ⟨⟨hzero, hshort, hne⟩, hstep⟩

/-- With one step more an entry has been reached. -/
theorem concat (h : t.Reached root dirs p) (hname : RoleWiring.isEntryName name = true)
    {position : Position} (hstep : t.walk p.links p.place [.enter name] = .ok position) :
    t.Reached root (dirs ++ [name]) position := by
  refine ⟨h.root_ne, h.zero_not_mem,
    List.forall_mem_append.mpr ⟨h.isEntryName, List.forall_mem_singleton.mpr hname⟩, ?_⟩
  rw [List.map_append, ← List.append_assoc, walk_append, h.walk]
  exact hstep

end Reached

/-! ## What a scan finds -/

/-- A path leads to a file if it is followed to one. -/
theorem isFile_eq_true_iff {q : Path} :
    t.isFile q = true ↔
      ∃ position content, t.follow q = .ok position ∧
        t.top.at? position.place = some (.file content) := by
  rw [isFile_iff, LeadsToFile]
  constructor
  · rintro ⟨hcheck, position, content, hwalk, hat⟩
    exact ⟨position, content, follow_eq_ok.mpr ⟨hcheck, hwalk⟩, hat⟩
  · rintro ⟨position, content, hfollow, hat⟩
    obtain ⟨hcheck, hwalk⟩ := follow_eq_ok.mp hfollow
    exact ⟨hcheck, position, content, hwalk, hat⟩

/-- What a scan finds through a link is where the path of the link leads. -/
theorem cons_mem_entryFiles_of_follow {target : Path}
    (hreached : t.Reached root dirs ⟨links, place⟩) (hat : t.top.at? place = some (.dir es))
    (hchild : (Node.dir es).child? name = some (.link target)) :
    name :: names ∈ t.entryFiles (root.descend dirs) links place above (.dir es) name ↔
      ∃ p, t.follow (root.descend (dirs ++ [name])) = .ok p ∧
        match t.top.at? p.place with
        | some (.file _) => names = []
        | some (.dir es) => p.place ∉ place :: above ∧ names ∈
            t.filesBelow (root.descend (dirs ++ [name])) p.links p.place (place :: above) (.dir es)
        | _ => False := by
  have hname := Node.isEntryName_of_child? hchild
  by_cases hshort : (root.descend (dirs ++ [name])).Short
  · have hfollow : ∀ p, t.follow (root.descend (dirs ++ [name])) = .ok p ↔
        target.bytes ≠ [] ∧ 0 < links ∧
          t.walk (links - 1) (target.start place) target.steps = .ok p := by
      intro p
      rw [hreached.follow_iff hname, walk_enter_of_link hat hchild]
      exact and_iff_right hshort
    simp only [hfollow, and_assoc, exists_and_left]
    rw [Path.descend_concat] at hshort ⊢
    exact cons_mem_entryFiles_of_link hchild hshort
  · constructor
    · intro hmem
      rw [entryFiles, hchild] at hmem
      dsimp only at hmem
      rw [← Path.descend_concat, if_pos (.inl (Nat.le_of_not_lt hshort))] at hmem
      exact absurd hmem List.not_mem_nil
    · rintro ⟨p, hfollow, -⟩
      exact absurd ((hreached.follow_iff hname).mp hfollow).1 hshort

/-- Through a link a scan finds a file, or what is below a directory that is not being descended. -/
theorem cons_mem_entryFiles_through_link {target : Path}
    (hreached : t.Reached root dirs ⟨links, place⟩) (hat : t.top.at? place = some (.dir es))
    (hchild : (Node.dir es).child? name = some (.link target)) :
    name :: names ∈ t.entryFiles (root.descend dirs) links place above (.dir es) name ↔
      (names = [] ∧ t.isFile (root.descend (dirs ++ [name])) = true) ∨
        ∃ p es', t.follow (root.descend (dirs ++ [name])) = .ok p ∧
          t.top.at? p.place = some (.dir es') ∧ p.place ∉ place :: above ∧ names ∈
            t.filesBelow (root.descend (dirs ++ [name])) p.links p.place (place :: above)
              (.dir es') := by
  rw [cons_mem_entryFiles_of_follow hreached hat hchild]
  constructor
  · rintro ⟨p, hfollow, hp⟩
    rcases hat' : t.top.at? p.place with _ | (content | other | es')
    · rw [hat'] at hp
      exact hp.elim
    · rw [hat'] at hp
      exact .inl ⟨hp, isFile_eq_true_iff.mpr ⟨p, content, hfollow, hat'⟩⟩
    · rw [hat'] at hp
      exact hp.elim
    · rw [hat'] at hp
      exact .inr ⟨p, es', hfollow, hat', hp⟩
  · rintro (⟨hnil, hfile⟩ | ⟨p, es', hfollow, hat', hp⟩)
    · obtain ⟨p, content, hfollow, hat'⟩ := isFile_eq_true_iff.mp hfile
      refine ⟨p, hfollow, ?_⟩
      rw [hat']
      exact hnil
    · refine ⟨p, hfollow, ?_⟩
      rw [hat']
      exact hp

/-- A scan finds below a directory the files that lie below it, where it descends the directories
whose paths are short enough to be followed. -/
theorem mem_filesBelow_iff (hreached : t.Reached root dirs ⟨links, place⟩)
    (hat : t.top.at? place = some (.dir es)) :
    names ∈ t.filesBelow (root.descend dirs) links place above (.dir es) ↔
      t.LiesBelow Path.Short root dirs place above names := by
  induction names generalizing dirs links place above es with
  | nil => exact iff_of_false nil_not_mem_filesBelow nofun
  | cons n names ih =>
    rw [cons_mem_filesBelow, LiesBelow.cons_iff, sightAt_child hat]
    rcases hchild : (Node.dir es).child? n with _ | (content | target | es')
    · rw [entryFiles, hchild]
      exact iff_of_false List.not_mem_nil id
    · rw [entryFiles, hchild]
      simp [Node.sight]
    · have hname := Node.isEntryName_of_child? hchild
      rw [cons_mem_entryFiles_through_link hreached hat hchild]
      -- the way goes on from where the link leads, with the links that are left
      refine or_congr_right ⟨?_, ?_⟩
      · rintro ⟨p, es', hfollow, hat', hnew, hmem⟩
        have hon := hreached.concat hname ((hreached.follow_iff hname).mp hfollow).2
        exact ⟨p, hfollow, sightAt_eq_dir.mpr ⟨es', hat'⟩, hnew, (ih hon hat').mp hmem⟩
      · rintro ⟨p, hfollow, hdir, hnew, hbelow⟩
        obtain ⟨es', hat'⟩ := sightAt_eq_dir.mp hdir
        have hon := hreached.concat hname ((hreached.follow_iff hname).mp hfollow).2
        exact ⟨p, es', hfollow, hat', hnew, (ih hon hat').mpr hbelow⟩
    · have hstep : t.walk links place [.enter n] = .ok ⟨links, place ++ [n]⟩ :=
        walk_enter_of_dir hat hchild
      rw [entryFiles, hchild]
      dsimp only [Option.map_some, Node.sight]
      rw [← Path.descend_concat]
      by_cases hshort : (root.descend (dirs ++ [n])).Short
      · rw [if_neg (Nat.not_le_of_lt hshort), cons_mem_map_cons,
          ih (hreached.concat (Node.isEntryName_of_child? hchild) hstep) (at?_child hat hchild)]
        exact (and_iff_right hshort).symm
      · rw [if_pos (Nat.le_of_not_lt hshort)]
        exact iff_of_false List.not_mem_nil fun h => hshort h.1

/-! ## The order in which it is found -/

/-- A scan finds the files below a directory in the order of the names that lead to them. -/
theorem filesBelow_sorted (t : FileTree) (path : Path) (links : Nat) (place : Location)
    (above : List Location) (node : Node) :
    (t.filesBelow path links place above node).Pairwise (· < ·) := by
  induction path, links, place, above, node using filesBelow.induct t with
  | case1 path links place above node ihDir ihLink =>
    have hcons : ∀ {name : Bytes} {below : List (List Bytes)}, below.Pairwise (· < ·) →
        (below.map (name :: ·)).Pairwise (· < ·) := by
      intro name below h
      refine List.pairwise_map.mpr (h.imp fun hlt => ?_)
      exact List.cons_lt_cons_iff.mpr (.inr ⟨rfl, hlt⟩)
    rw [filesBelow_eq, List.pairwise_flatMap]
    refine ⟨fun name _ => ?_, node.names_sorted.imp fun {first second} hlt x hx y hy => ?_⟩
    · -- through one entry: a file, or what is below a directory
      unfold entryFiles
      split
      · exact .nil
      · exact List.pairwise_singleton ..
      · next es hchild =>
        split
        · exact .nil
        · exact hcons (ihDir name es hchild)
      · next target hchild =>
        split
        · exact .nil
        split
        · next hlinks =>
          split
          · exact .nil
          · next p hwalk =>
            split
            · exact List.pairwise_singleton ..
            · next es hat =>
              split
              · exact .nil
              · exact hcons (ihLink name target hlinks p hwalk es)
            · exact .nil
        · exact .nil
    · -- through two entries: the names of the entries come first
      obtain ⟨-, rest, rfl, -⟩ := eq_cons_of_mem_entryFiles hx
      obtain ⟨-, rest', rfl, -⟩ := eq_cons_of_mem_entryFiles hy
      exact List.cons_lt_cons_iff.mpr (.inl hlt)

/-! ## Where the way leads -/

/-- Where something is to be seen there is an entry of a directory. -/
theorem exists_child_of_sightAt {sight : Sight} (h : t.sightAt (place ++ [name]) = some sight) :
    ∃ es node, t.top.at? place = some (.dir es) ∧ (Node.dir es).child? name = some node ∧
      node.sight = sight := by
  rw [sightAt, Node.at?_append] at h
  obtain ⟨node, hnode, hsight⟩ := Option.map_eq_some_iff.mp h
  obtain ⟨parent, hparent, hat⟩ := Option.bind_eq_some_iff.mp hnode
  rw [Node.at?] at hat
  cases hchild : parent.child? name with
  | none =>
    rw [hchild] at hat
    cases hat
  | some child =>
    rw [hchild] at hat
    cases hat
    cases parent with
    | dir es => exact ⟨es, node, hparent, hchild, hsight⟩
    | file content => simp [Node.child?, Node.entries] at hchild
    | link target => simp [Node.child?, Node.entries] at hchild

/-- The names that lead down to a file lead there for anyone who follows them. -/
theorem LiesBelow.leadsToFile (h : t.LiesBelow opens root dirs place above names)
    (hreached : t.Reached root dirs ⟨links, place⟩) :
    t.LeadsToFile links place (names.map .enter) := by
  induction h generalizing links with
  | file hfile =>
    obtain ⟨es, node, hat, hchild, hsight⟩ := exists_child_of_sightAt hfile
    cases Node.sight_eq_file.mp hsight
    have hend : t.LeadsToFile links (_ ++ [_]) (([] : List Bytes).map .enter) :=
      (leadsToFile_of_file (at?_child hat hchild)).mpr rfl
    exact (leadsToFile_of_child? hat hchild nofun).mpr hend
  | linkedFile hlink hfile =>
    obtain ⟨es, node, -, hchild, -⟩ := exists_child_of_sightAt hlink
    obtain ⟨position, content, hfollow, hat⟩ := isFile_eq_true_iff.mp hfile
    have hname := Node.isEntryName_of_child? hchild
    exact ⟨position, content, ((hreached.follow_iff hname).mp hfollow).2, hat⟩
  | dir hdir hopens hbelow ih =>
    obtain ⟨es, node, hat, hchild, hsight⟩ := exists_child_of_sightAt hdir
    obtain ⟨es', rfl⟩ := Node.sight_eq_dir.mp hsight
    have hname := Node.isEntryName_of_child? hchild
    refine leadsToFile_append.mpr ⟨_, walk_enter_of_dir hat hchild, ?_⟩
    exact ih (hreached.concat hname (walk_enter_of_dir hat hchild))
  | linkedDir hlink hfollow hdir hnew hbelow ih =>
    obtain ⟨es, node, -, hchild, -⟩ := exists_child_of_sightAt hlink
    have hname := Node.isEntryName_of_child? hchild
    have hstep := ((hreached.follow_iff hname).mp hfollow).2
    exact leadsToFile_append.mpr ⟨_, hstep, ih (hreached.concat hname hstep)⟩

/-! ## What matters of a tree -/

section Growth

variable {t' : FileTree}

theorem Grows.follow (h : Grows t t') {path : Path} (hfollow : t.follow path = .ok p) :
    t'.follow path = .ok p := by
  obtain ⟨hcheck, hwalk⟩ := follow_eq_ok.mp hfollow
  refine follow_eq_ok.mpr ⟨hcheck, ?_⟩
  rw [h.workingDir]
  exact h.walk hwalk

theorem Grows.isFile (h : Grows t t') {path : Path} (hfile : t.isFile path = true) :
    t'.isFile path = true := by
  obtain ⟨position, content, hfollow, hat⟩ := isFile_eq_true_iff.mp hfile
  obtain ⟨content', hsight⟩ := h.file _ _ (sightAt_eq_file.mpr hat)
  exact isFile_eq_true_iff.mpr ⟨position, content', h.follow hfollow, sightAt_eq_file.mp hsight⟩

theorem Grows.enterRoot (h : Grows t t') (henter : enterRoot t root = .ok p) :
    enterRoot t' root = .ok p := by
  obtain ⟨hfollow, hdir⟩ := enterRoot_eq_ok.mp henter
  exact enterRoot_eq_ok.mpr
    ⟨h.follow hfollow, sightAt_eq_dir.mp (h.dir _ (sightAt_eq_dir.mpr hdir))⟩

/-- In a tree that has grown everything lies below a directory that did before. -/
theorem Grows.liesBelow (h : Grows t t') (hbelow : t.LiesBelow opens root dirs place above names) :
    t'.LiesBelow opens root dirs place above names := by
  induction hbelow with
  | file hfile =>
    obtain ⟨content', hfile'⟩ := h.file _ _ hfile
    exact .file hfile'
  | linkedFile hlink hfile => exact .linkedFile (h.link _ _ hlink) (h.isFile hfile)
  | dir hdir hopens hbelow ih => exact .dir (h.dir _ hdir) hopens ih
  | linkedDir hlink hfollow hdir hnew hbelow ih =>
    exact .linkedDir (h.link _ _ hlink) (h.follow hfollow) (h.dir _ hdir) hnew ih

/-- A tree in which the same is to be seen at every place has grown by nothing. -/
theorem grows_of_sightAt (hworkingDir : t'.workingDir = t.workingDir)
    (hsight : ∀ place, t'.sightAt place = t.sightAt place) : Grows t t' where
  workingDir := hworkingDir
  dir := fun l hl => (hsight l).trans hl
  link := fun l _ hl => (hsight l).trans hl
  file := fun l content hl => ⟨content, (hsight l).trans hl⟩

end Growth

end FileTree

end RoleWiring
