import RoleWiring.ClassPath
import RoleWiring.Proofs.Name.Artifact

/-!
# Names and artifacts determine each other

Below any root a type has one artifact, and an artifact defines one type: the segments of the name
are the directories on the way and the file without its extension. All of them are identifiers, so
no name, whatever it was made of, leads out of the root.

* `mem_probes` — where a look-up looks;
* `names_inverse` — that they are inverse, and stay below the root.
-/

namespace RoleWiring

variable {p : Path} {name : String}

/-! ## Where a look-up looks -/

/-- The paths of a class path where a type of this name could have its artifact, in the order of the
search. -/
def ClassPath.probes (cp : ClassPath) (name : String) : List Path :=
  match artifactPath? name with
  | none => []
  | some below => cp.roots.map (·.join below)

/-- A look-up finds the first of these paths that is a file. -/
theorem ClassPath.find?_eq (cp : ClassPath) (name : String) :
    cp.find? name = (cp.probes name).find? cp.tree.isFile := by
  unfold find? probes
  cases artifactPath? name <;> rfl

/-- A look-up looks below the roots, down the names on the way to an artifact. -/
theorem ClassPath.mem_probes {cp : ClassPath} (h : p ∈ cp.probes name) :
    ∃ root ∈ cp.roots, ∃ segments, Spells segments name ∧
      p = root.descend (artifactNames segments) := by
  unfold probes at h
  split at h
  · cases h
  · next below hbelow =>
    obtain ⟨root, hroot, rfl⟩ := List.mem_map.mp h
    obtain ⟨segments, hspells, rfl⟩ := artifactPath?_eq_some.mp hbelow
    exact ⟨root, hroot, segments, hspells, hspells.join root⟩

/-- Below any root, plain names define a type exactly if they are identifiers, the last one followed
by the extension of artifacts, and the type has these identifiers for its segments. A text has the
path of an artifact exactly if it is such a name; the path then consists of these names, and below
any root it defines the type again. No two lists of names below a root define the same type.
Whatever is looked up, the paths where it is looked for are a root and plain names after it. -/
theorem names_inverse :
    (∀ (root : Path) (names : List Bytes) (name : String), (∀ n ∈ names, Plain n) →
      (artifactName? root (root.descend names) = some name ↔
        ∃ segments, Spells segments name ∧ names = artifactNames segments)) ∧
      (∀ (name : String) (p : Path), artifactPath? name = some p ↔
        ∃ segments, Spells segments name ∧ p = ⟨[slash].intercalate (artifactNames segments)⟩) ∧
      (∀ (name : String) (p : Path), artifactPath? name = some p →
        (∃ segments, Spells segments name ∧ p.components = (artifactNames segments).map .name) ∧
          ∀ root : Path, artifactName? root (root.join p) = some name) ∧
      (∀ (root : Path) (names names' : List Bytes) (name : String),
        (∀ n ∈ names, Plain n) → (∀ n ∈ names', Plain n) →
          artifactName? root (root.descend names) = some name →
            artifactName? root (root.descend names') = some name → names = names') ∧
      ∀ (cp : ClassPath) (name : String),
        cp.find? name = (cp.probes name).find? cp.tree.isFile ∧
          ∀ p ∈ cp.probes name, ∃ root ∈ cp.roots, ∃ names, names ≠ [] ∧ (∀ n ∈ names, Plain n) ∧
            p = root.descend names ∧ p.components = root.components ++ names.map .name := by
  refine ⟨fun root names name => artifactName?_eq_some root, fun name p => artifactPath?_eq_some,
    fun name p hp => ?_, fun root names names' name hnames hnames' hname hname' => ?_,
    fun cp name => ⟨cp.find?_eq name, fun p hp => ?_⟩⟩
  · obtain ⟨segments, hspells, rfl⟩ := artifactPath?_eq_some.mp hp
    refine ⟨⟨segments, hspells, hspells.components⟩, fun root => ?_⟩
    rw [hspells.join root, artifactName?_eq_some root hspells.plain]
    exact ⟨segments, hspells, rfl⟩
  · obtain ⟨segments, hspells, rfl⟩ := (artifactName?_eq_some root hnames).mp hname
    obtain ⟨segments', hspells', rfl⟩ := (artifactName?_eq_some root hnames').mp hname'
    rw [hspells.unique hspells']
  · obtain ⟨root, hroot, segments, hspells, rfl⟩ := ClassPath.mem_probes hp
    exact ⟨root, hroot, _, hspells.names_ne_nil, hspells.plain, rfl,
      Path.components_descend root hspells.plain⟩

theorem spells_nested : Spells [['a'], ['B', '$', 'é']] "a.B$é" :=
  ⟨by decide, by decide +kernel, by decide⟩

/-- A nested class with a letter of two bytes, below a root with a dot at its end and below the
empty path. -/
theorem names_inverse_nested :
    artifactName? (.ofString "cp/.") ((Path.ofString "cp/.").descend
        [utf8Bytes "a", utf8Bytes "B$é.class"]) = some "a.B$é" ∧
      artifactPath? "a.B$é" = some (.ofString "a/B$é.class") ∧
      artifactName? (.ofString "") ((Path.ofString "").join (.ofString "a/B$é.class")) =
        some "a.B$é" := by
  have hplain : ∀ n ∈ [utf8Bytes "a", utf8Bytes "B$é.class"], Plain n :=
    spells_nested.plain
  have hpath : artifactPath? "a.B$é" = some (.ofString "a/B$é.class") :=
    (names_inverse.2.1 _ _).mpr ⟨_, spells_nested, by decide⟩
  exact ⟨(names_inverse.1 _ _ _ hplain).mpr ⟨_, spells_nested, by decide⟩, hpath,
    (names_inverse.2.2.1 _ _ hpath).2 _⟩

end RoleWiring
