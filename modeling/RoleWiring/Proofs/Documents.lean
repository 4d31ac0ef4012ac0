import RoleWiring.Proofs.Configuration
import RoleWiring.Proofs.Wiring

/-!
# Documents

The JSON documents of the program are read back as they were written
(`documents_readBack`): configuration files, the values of the domain in both spellings,
and service files.
-/

namespace RoleWiring

/-- Documents are read back as they were written. A configuration can be written to every file that
can be written, and is read from it, with its roots and its roles in order. The values
of the domain are read from both of their spellings. The text of the service file for the chosen
classes denotes the object with their roles in order, each with its class and its identifier,
and this text is what a write leaves in the file. -/
theorem documents_readBack :
    (∀ (c : Configuration) (t : FileTree) (file : Path), c.IsText →
      (∃ content t', t.write file content = .ok t') →
        ∃ t', c.write t file = .ok t' ∧ Configuration.read t' file = .ok c) ∧
    (∀ c : Artifact, c.path.IsText → ReadsBack Artifact.toJson Artifact.ofJson? c) ∧
    (∀ k, ReadsBack Kind.toJson Kind.ofJson? k) ∧
    (∀ d, ReadsBack Declaration.toJson Declaration.ofJson? d) ∧
    (∀ r, ReadsBack Role.toJson Role.ofJson? r) ∧
    (∀ i : Implementation, i.artifact.path.IsText →
      ReadsBack Implementation.toJson Implementation.ofJson? i) ∧
    (∀ s : Implementations, (∀ i ∈ s.members, i.artifact.path.IsText) →
      ReadsBack Implementations.toJson Implementations.ofJson? s) ∧
    ∀ chosen : Roster String,
      Json.parse? ((Wiring.ofChosen chosen).text ++ "\n") =
        some (.ofMembers (chosen.entries.map fun e =>
          (e.1, .array [.ofMembers
            [("class", .ofString e.2), ("id", .ofString (lowerCase e.1))]]))) ∧
      ∀ (t t' : FileTree) (file : Path), (Wiring.ofChosen chosen).write t file = (t', none) →
        t'.read file = .ok (utf8Bytes ((Wiring.ofChosen chosen).text ++ "\n")) := by
  refine ⟨fun c t file hc hwritable => ?_, fun c hc => ?_, fun k => ?_, fun d => ?_, fun r => ?_,
    fun i hi => ?_, fun s hs => ?_, fun chosen => ⟨?_, fun t t' file h => Wiring.read_of_write h⟩⟩
  · obtain ⟨t', hwrite⟩ := Configuration.exists_write hwritable
    exact ⟨t', hwrite, Configuration.read_of_write hc hwrite⟩
  · exact readsBack_of_textual c.textual_toJson (Artifact.ofJson?_toJson hc)
  · exact readsBack_of_textual k.textual_toJson k.ofJson?_toJson
  · exact readsBack_of_textual d.textual_toJson d.ofJson?_toJson
  · exact readsBack_of_textual r.textual_toJson r.ofJson?_toJson
  · exact readsBack_of_textual i.textual_toJson (Implementation.ofJsonAt?_toJson hi 1)
  · exact readsBack_of_textual s.textual_toJson (Implementations.ofJson?_toJson hs)
  · rw [Wiring.parse?_text, Wiring.toJson_ofChosen]

/-- A configuration whose texts need every sort of escape, with roles out of alphabetical order. -/
def escapedConfig : Configuration :=
  ⟨[.ofString "a \"b\"", .ofString "", .ofString "c\\d\x01\n"],
    .ofList [("Z\t", "é.😀"), ("A", "\u007f/"), ("", "\x08\x0c\r")], .ofString "out\u2028"⟩

/-- The configuration is written to a new file of an empty directory and read from it, and an
implementation with the same path as its output is read from both spellings. -/
theorem documents_readBack_escapedConfig :
    (∃ t', escapedConfig.write ⟨.dir [], []⟩ (.ofString "f") = .ok t' ∧
      Configuration.read t' (.ofString "f") = .ok escapedConfig) ∧
    ReadsBack Implementation.toJson Implementation.ofJson?
      ⟨⟨"é.😀", escapedConfig.output⟩, .enum⟩ := by
  obtain ⟨hconfig, -, -, -, -, himplementation, -, -⟩ := documents_readBack
  have htext : escapedConfig.IsText :=
    ⟨List.forall_mem_cons.mpr ⟨⟨_, rfl⟩, List.forall_mem_cons.mpr ⟨⟨_, rfl⟩,
      List.forall_mem_singleton.mpr ⟨_, rfl⟩⟩⟩, ⟨_, rfl⟩⟩
  have hwritable : ∃ content t',
      (⟨.dir [], []⟩ : FileTree).write (.ofString "f") content = .ok t' :=
    ⟨[], FileTree.exists_write_of_entryAt rfl rfl rfl []⟩
  exact ⟨hconfig escapedConfig _ _ htext hwritable, himplementation _ htext.output⟩

end RoleWiring
