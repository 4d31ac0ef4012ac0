import RoleWiring.Proofs.FileTree.Write
import RoleWiring.Proofs.Json.RoundTrip
import RoleWiring.Wiring

/-!
# The service file

The text of a wiring denotes it as a JSON value, and what a write leaves in the service
file is this text.

* `parse?_text` — the text, read as JSON;
* `read_of_write` — the file after a write that did not fail.
-/

namespace RoleWiring

theorem Service.textual_toJson (s : Service) : Json.Textual s.toJson := by
  refine .ofMembers (List.forall_mem_cons.mpr ⟨.text s.className, ?_⟩)
  exact List.forall_mem_singleton.mpr (.text s.id)

namespace Wiring

theorem textual_toJson (w : Wiring) : Json.Textual w.toJson := by
  refine .ofMembers fun m hm => ?_
  obtain ⟨e, -, rfl⟩ := List.mem_map.mp hm
  refine .array fun item hitem => ?_
  obtain ⟨s, -, rfl⟩ := List.mem_map.mp hitem
  exact s.textual_toJson

/-- The text of a wiring denotes it, also with the line break that ends the file. -/
theorem parse?_text (w : Wiring) : Json.parse? (w.text ++ "\n") = some w.toJson :=
  Json.parse?_pretty_line w.textual_toJson

/-- The entries of the services that the chosen classes provide: for every role a list of the one
service. -/
theorem toJson_ofChosen (chosen : Roster String) :
    (ofChosen chosen).toJson =
      .ofMembers (chosen.entries.map fun e =>
        (e.1, .array [.ofMembers
          [("class", .ofString e.2), ("id", .ofString (lowerCase e.1))]])) := by
  show Json.ofMembers (List.map _ (List.map _ chosen.entries)) = _
  rw [List.map_map]
  rfl

/-- The service file that a write leaves holds the text of the wiring. -/
theorem read_of_write {w : Wiring} {t t' : FileTree} {p : Path} (h : w.write t p = (t', none)) :
    t'.read p = .ok (utf8Bytes (w.text ++ "\n")) := by
  unfold write at h
  split at h
  · cases h
  · split at h
    · cases h
    · next hwrite =>
      cases h
      exact FileTree.read_write hwrite

end Wiring

end RoleWiring
