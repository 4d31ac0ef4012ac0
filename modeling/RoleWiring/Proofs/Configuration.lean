import RoleWiring.Configuration
import RoleWiring.Proofs.FileTree.Write
import RoleWiring.Proofs.Json.Domain

/-!
# Configurations on paper

A configuration is valid when it has a root and every role has a name and a type with
more than white space in them. Written to a file, it is read from there as it was, with
its roots and its roles in order, as long as its paths are texts.

* `accept_eq_ok` — what is valid;
* `read_of_write` — a configuration that was written to a file.
-/

namespace RoleWiring

open Json (Textual)

namespace Configuration

/-! ## Validity -/

theorem roleComplaint?_eq_none {role : Role} :
    roleComplaint? role = none ↔ isBlank role.name = false ∧ isBlank role.type = false := by
  cases hname : isBlank role.name <;> cases htype : isBlank role.type <;>
    simp [roleComplaint?, hname, htype]

/-- A configuration is valid when it has a root and no role with a blank name or type. -/
theorem accept_eq_ok {c : Configuration} :
    c.accept = .ok () ↔
      c.classPath ≠ [] ∧
        ∀ role ∈ c.roleList, isBlank role.name = false ∧ isBlank role.type = false := by
  unfold accept
  by_cases hroots : c.classPath = []
  · simp [hroots]
  · rw [if_neg hroots]
    cases hcomplaint : c.roleList.findSome? roleComplaint? with
    | some complaint =>
      refine iff_of_false nofun fun h => ?_
      obtain ⟨role, hrole, hsome⟩ := List.exists_of_findSome?_eq_some hcomplaint
      rw [roleComplaint?_eq_none.mpr (h.2 role hrole)] at hsome
      cases hsome
    | none =>
      refine iff_of_true rfl ⟨hroots, fun role hrole => ?_⟩
      exact roleComplaint?_eq_none.mp (List.findSome?_eq_none_iff.mp hcomplaint role hrole)

/-! ## The file -/

/-- All paths of the configuration are spelled by texts. -/
structure IsText (c : Configuration) : Prop where
  /-- the roots are -/
  roots : ∀ root ∈ c.classPath, root.IsText
  /-- the output is -/
  output : c.output.IsText

variable {c : Configuration}

/-- The roots of a configuration, as values. -/
theorem strings?_classPath (c : Configuration) :
    Json.strings? (.array (c.classPath.map Path.toJson)) = some (c.classPath.map Path.display) :=
  Json.strings?_map Path.display c.classPath

theorem ofJson?_toJson (h : c.IsText) : ofJson? c.toJson = some c := by
  have hfields : Json.fields? ["classpath", "roles", "output"] 2 c.toJson =
      some [some (.array (c.classPath.map Path.toJson)), some (c.roles.toJson .ofString),
        some c.output.toJson] :=
    Json.fields?_ofMembers [("classpath", .array (c.classPath.map Path.toJson)),
        ("roles", c.roles.toJson .ofString), ("output", c.output.toJson)] 2
      (show ["classpath", "roles", "output"].Nodup by decide)
  have hroots : (c.classPath.map Path.display).map Path.ofString = c.classPath := by
    rw [List.map_map]
    exact (List.map_congr_left fun root hroot => Path.ofString_display (h.roots root hroot)).trans
      (List.map_id c.classPath)
  simp [ofJson?, hfields, strings?_classPath, hroots, Roster.ofJson?_toJson,
    Path.ofJson?_toJson h.output]

theorem textual_toJson (c : Configuration) : Textual c.toJson := by
  refine .ofMembers (List.forall_mem_cons.mpr ⟨.array fun item hitem => ?_,
    List.forall_mem_cons.mpr ⟨c.roles.textual_toJson,
      List.forall_mem_singleton.mpr c.output.textual_toJson⟩⟩)
  obtain ⟨root, -, rfl⟩ := List.mem_map.mp hitem
  exact root.textual_toJson

/-- The configuration of a value is read from a text of this value. -/
theorem read_of_text {t : FileTree} {file : Path} {text : String} {value : Json}
    (hfile : t.read file = .ok (utf8Bytes text)) (hparse : Json.parse? text = some value)
    (hvalue : ofJson? value = some c) : read t file = .ok c := by
  simp only [read, hfile, utf8Text?_utf8Bytes]
  exact readJson_of_parse? hparse hvalue

/-- A configuration that was written to a file is read from it. -/
theorem read_of_write (h : c.IsText) {t t' : FileTree} {file : Path}
    (hwrite : c.write t file = .ok t') : read t' file = .ok c := by
  unfold write at hwrite
  split at hwrite
  · cases hwrite
  · next hfile =>
    cases hwrite
    exact read_of_text (FileTree.read_write hfile) (Json.parse?_pretty_line c.textual_toJson)
      (ofJson?_toJson h)

/-- A configuration can be written to every file that can be written. -/
theorem exists_write {t : FileTree} {file : Path}
    (hwritable : ∃ content t', t.write file content = .ok t') :
    ∃ t', c.write t file = .ok t' := by
  obtain ⟨content, t', hwrite⟩ := hwritable
  obtain ⟨t'', hfile⟩ := FileTree.exists_write hwrite c.fileContent
  exact ⟨t'', by simp only [write, hfile]⟩

end Configuration

end RoleWiring
