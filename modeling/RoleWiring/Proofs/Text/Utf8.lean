import RoleWiring.Text.Utf8

/-!
# Bytes that spell one character

The spelling of a text is that of its characters, one after the other. Only bytes from
the upper half stand for a part of a character, so a byte of the lower half that occurs
in a spelling is a character of the text.
-/

namespace RoleWiring

theorem utf8Bytes_ofList (cs : List Char) :
    utf8Bytes (String.ofList cs) = cs.flatMap String.utf8EncodeChar := by
  unfold utf8Bytes
  rw [String.toByteArray_ofList]
  exact List.toList_data_toByteArray

/-- A byte of the lower half spells a character of its own. -/
theorem toNat_of_mem_utf8EncodeChar {c : Char} {b : UInt8} (hb : b.toNat < 128)
    (h : b ∈ String.utf8EncodeChar c) : c.toNat = b.toNat := by
  have hv : c.val.toNat = c.toNat := rfl
  unfold String.utf8EncodeChar at h
  dsimp only at h
  split at h
  · rcases List.mem_singleton.mp h with rfl
    rw [UInt8.toNat_ofNat'] at hb ⊢
    omega
  · exfalso
    have hupper : ∀ v, v % 64 + 128 < 256 ∧ ¬ (v % 64 + 128) % 256 < 128 := by omega
    split at h
    · simp only [List.mem_cons, List.not_mem_nil, or_false] at h
      rcases h with rfl | rfl <;> rw [UInt8.toNat_ofNat'] at hb <;> omega
    · split at h
      · simp only [List.mem_cons, List.not_mem_nil, or_false] at h
        rcases h with rfl | rfl | rfl <;> rw [UInt8.toNat_ofNat'] at hb <;> omega
      · simp only [List.mem_cons, List.not_mem_nil, or_false] at h
        rcases h with rfl | rfl | rfl | rfl <;> rw [UInt8.toNat_ofNat'] at hb <;> omega

/-- Where a byte of the lower half occurs in a spelling, its character is in the text. -/
theorem mem_of_mem_utf8Bytes {cs : List Char} {c : Char} {b : UInt8} (hb : b.toNat < 128)
    (hc : c.toNat = b.toNat) (h : b ∈ utf8Bytes (String.ofList cs)) : c ∈ cs := by
  rw [utf8Bytes_ofList] at h
  obtain ⟨d, hd, hmem⟩ := List.mem_flatMap.mp h
  have hdc : d.toNat = c.toNat := (toNat_of_mem_utf8EncodeChar hb hmem).trans hc.symm
  rw [← Char.ofNat_toNat c, ← hdc, Char.ofNat_toNat]
  exact hd

/-- Only the empty text is spelled without bytes. -/
theorem utf8Bytes_ofList_ne_nil {cs : List Char} (h : cs ≠ []) :
    utf8Bytes (String.ofList cs) ≠ [] := by
  intro hnil
  have hempty : String.ofList cs = String.ofList [] := utf8Bytes_inj hnil
  exact h (String.ofList_injective hempty)

end RoleWiring
