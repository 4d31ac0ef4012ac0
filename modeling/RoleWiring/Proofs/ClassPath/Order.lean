import RoleWiring.Proofs.ClassPath.Listing
import RoleWiring.Proofs.ClassPath.Roots

/-!
# The order of the roots

Where no artifact is below two roots of a class path, no root can shadow another, and so it does not
matter which of them comes first: every look-up finds the same, and a scan yields the same classes.

* `FileTree.Holds` — what it means that an artifact is below a root;
* `holds_of_isFile_join`, `holds_of_mem_segmentsUnder` — look-ups and scans find only such ones;
* `ClassPath.find?_eq_of_perm`, `ClassPath.classes_perm` — the roots in another order.
-/

namespace RoleWiring

variable {t : FileTree} {root : Path} {name : String} {segments : List (List Char)}

/-! ## Artifacts below a root -/

/-- The artifact of the type with these segments is below the root: from the directory that the root
leads to the names of the artifact lead to a file. The empty path stands for the working
directory. -/
def FileTree.Holds (t : FileTree) (root : Path) (segments : List (List Char)) : Prop :=
  ∃ position,
    (enterRoot t root = .ok position ∨ root.bytes = [] ∧ position = ⟨maxLinks, t.workingDir⟩) ∧
      t.LeadsToFile position.links position.place ((artifactNames segments).map .enter)

/-- A look-up finds below a root only what is there. -/
theorem holds_of_isFile_join (hspells : Spells segments name)
    (hfile : t.isFile (root.join ⟨[slash].intercalate (artifactNames segments)⟩) = true) :
    t.Holds root segments := by
  by_cases hroot : root.bytes = []
  · -- the empty path adds nothing to the names, which begin in the working directory
    rw [hspells.join_of_nil hroot] at hfile
    obtain ⟨-, hleads⟩ := FileTree.isFile_iff.mp hfile
    rw [Path.steps_intercalate hspells.plain hspells.names_ne_nil, Path.start,
      Path.isAbsolute_intercalate hspells.plain hspells.names_ne_nil] at hleads
    exact ⟨_, .inr ⟨hroot, rfl⟩, hleads⟩
  · rw [hspells.join root] at hfile
    obtain ⟨-, position, henter, hleads⟩ :=
      FileTree.of_isFile_descend hroot hspells.plain hspells.names_ne_nil hfile
    exact ⟨position, .inl henter, hleads⟩

/-- A scan finds below a root only what is there. -/
theorem holds_of_mem_segmentsUnder (h : segments ∈ segmentsUnder t root) :
    t.Holds root segments := by
  obtain ⟨-, position, henter, hbelow⟩ := ((foundBelow_segmentsUnder t root).mem_iff segments).mp h
  exact ⟨position, .inl henter, hbelow.leadsToFile (FileTree.reached_of_enterRoot henter)⟩

/-- The name of an artifact that a scan finds is that of its segments. -/
theorem typeSegments?_artifactOf (h : segments ∈ segmentsUnder t root) :
    typeSegments? (artifactOf root segments).name = some segments := by
  obtain ⟨⟨hne, hids⟩, -⟩ := ((foundBelow_segmentsUnder t root).mem_iff segments).mp h
  exact typeSegments?_eq_some.mpr ⟨hne, hids, rfl⟩

/-! ## Roots in another order -/

/-- Where all items that are looked for are the same, they are found in any order. -/
theorem find?_eq_of_perm {items items' : List α} {p : α → Bool} (hperm : items'.Perm items)
    (hsame : ∀ a ∈ items, ∀ b ∈ items, p a = true → p b = true → a = b) :
    items'.find? p = items.find? p := by
  cases hfind : items.find? p with
  | none =>
    rw [List.find?_eq_none] at hfind ⊢
    intro a ha
    exact hfind a (hperm.mem_iff.mp ha)
  | some a =>
    have ha := List.mem_of_find?_eq_some hfind
    cases hfind' : items'.find? p with
    | none =>
      rw [List.find?_eq_none] at hfind'
      exact absurd (List.find?_some hfind) (hfind' a (hperm.mem_iff.mpr ha))
    | some b =>
      have hb := hperm.mem_iff.mp (List.mem_of_find?_eq_some hfind')
      rw [hsame b hb a ha (List.find?_some hfind') (List.find?_some hfind)]

namespace ClassPath

variable {cp cp' : ClassPath}

/-- No artifact is below two of the roots. -/
def Unambiguous (cp : ClassPath) : Prop :=
  ∀ segments, segments ≠ [] → (∀ s ∈ segments, isIdentifierChars s = true) →
    ∀ a ∈ cp.roots, ∀ b ∈ cp.roots,
      cp.tree.Holds a segments → cp.tree.Holds b segments → a = b

/-- Every look-up finds the same. -/
theorem find?_eq_of_perm (h : cp.Unambiguous) (htree : cp'.tree = cp.tree)
    (hroots : cp'.roots.Perm cp.roots) (name : String) : cp'.find? name = cp.find? name := by
  rw [find?, find?]
  cases hbelow : artifactPath? name with
  | none => rfl
  | some below =>
    obtain ⟨segments, hspells, rfl⟩ := artifactPath?_eq_some.mp hbelow
    simp only [htree, Option.bind_eq_bind, Option.bind_some, List.find?_map]
    refine congrArg (Option.map _) (RoleWiring.find?_eq_of_perm hroots ?_)
    intro a ha b hb hfile hfile'
    exact h segments hspells.ne_nil hspells.identifiers a ha b hb
      (holds_of_isFile_join hspells hfile) (holds_of_isFile_join hspells hfile')

/-- A scan yields the same classes, in the order of their roots. -/
theorem classes_perm (h : cp.Unambiguous) (htree : cp'.tree = cp.tree)
    (hroots : cp'.roots.Perm cp.roots) : cp'.classes.1.Perm cp.classes.1 := by
  have hnodup : ∀ cp : ClassPath, cp.classes.1.Nodup := by
    intro cp
    rw [classes_fst]
    exact (nodup_unshadowed [] _).of_map
  rw [List.perm_ext_iff_of_nodup (hnodup cp') (hnodup cp)]
  intro c
  rw [classes_fst, classes_fst, mem_unshadowed, mem_unshadowed, htree]
  refine and_congr_right fun _ => ?_
  rw [RoleWiring.find?_eq_of_perm (hroots.flatMap_right _)]
  intro d hd e he hname hname'
  obtain ⟨a, ha, hd⟩ := List.mem_flatMap.mp hd
  obtain ⟨b, hb, he⟩ := List.mem_flatMap.mp he
  rw [artifactsUnder_eq] at hd he
  obtain ⟨segments, hsegments, rfl⟩ := List.mem_map.mp hd
  obtain ⟨segments', hsegments', rfl⟩ := List.mem_map.mp he
  -- artifacts of one name have the same segments, and those are below one root
  have htype := typeSegments?_artifactOf hsegments
  have heq : (artifactOf a segments).name = (artifactOf b segments').name :=
    (eq_of_beq hname).trans (eq_of_beq hname').symm
  rw [heq, typeSegments?_artifactOf hsegments'] at htype
  cases htype
  obtain ⟨⟨hne, hids⟩, -⟩ := ((foundBelow_segmentsUnder cp.tree a).mem_iff _).mp hsegments
  rw [h _ hne hids a ha b hb (holds_of_mem_segmentsUnder hsegments)
    (holds_of_mem_segmentsUnder hsegments')]

end ClassPath

end RoleWiring
