import RoleWiring.Assignment
import RoleWiring.Proofs.Except
import RoleWiring.Proofs.Text.WhiteSpace

/-!
# What an assignment says

An assignment is read exactly in the form `KEY=VALUE`, where the first equals sign counts
and white space around the two halves does not. So no key that is read holds an equals
sign or has white space at an end; a name with either is never the key of an assignment,
however it is written.

* `readAssignment_eq_ok` — what is read from which text;
* `isKey_of_ofAssignment`, `ofAssignment_of_isKey` — which names can be the key.
-/

namespace RoleWiring

/-- The first equals sign divides the text. -/
theorem splitAssignment?_eq_some {cs left right : List Char} :
    splitAssignment? cs = some (left, right) ↔ '=' ∉ left ∧ cs = left ++ '=' :: right := by
  induction cs generalizing left with
  | nil => simp [splitAssignment?]
  | cons c cs ih =>
    by_cases hc : c = '='
    · subst hc
      rw [splitAssignment?, if_pos rfl]
      cases left with
      | nil => simp
      | cons d left =>
        refine iff_of_false nofun ?_
        rintro ⟨hnot, heq⟩
        cases heq
        exact hnot (List.mem_cons_self ..)
    · rw [splitAssignment?, if_neg hc, Option.map_eq_some_iff]
      refine ⟨?_, ?_⟩
      · rintro ⟨⟨left', right'⟩, hrest, heq⟩
        cases heq
        obtain ⟨hnot, rfl⟩ := ih.mp hrest
        exact ⟨fun hmem => (List.mem_cons.mp hmem).elim (fun h => hc h.symm) hnot, rfl⟩
      · rintro ⟨hnot, heq⟩
        cases left with
        | nil =>
          cases heq
          exact absurd rfl hc
        | cons d left =>
          cases heq
          exact ⟨(left, right), ih.mpr ⟨fun h => hnot (List.mem_cons_of_mem _ h), rfl⟩, rfl⟩

/-- What is read from an assignment are its two halves without white space around them, and
neither is empty. -/
theorem readAssignment_eq_ok {s key value : String} :
    readAssignment s = .ok (key, value) ↔
      ∃ left right, '=' ∉ left ∧ s.toList = left ++ '=' :: right ∧
        trimChars left = key.toList ∧ trimChars right = value.toList ∧ key ≠ "" ∧ value ≠ "" := by
  have hempty : ∀ {text : String} {cs : List Char}, cs = text.toList → (cs = [] ↔ text = "") := by
    rintro text _ rfl
    exact String.toList_eq_nil_iff
  unfold readAssignment
  refine ⟨?_, ?_⟩
  · intro h
    split at h
    · cases h
    · next left right hsplit =>
      dsimp only at h
      split at h
      · cases h
      · next hfull =>
        cases h
        obtain ⟨hnot, hs⟩ := splitAssignment?_eq_some.mp hsplit
        rw [not_or] at hfull
        exact ⟨left, right, hnot, hs, String.toList_ofList.symm, String.toList_ofList.symm,
          mt (hempty String.toList_ofList.symm).mpr hfull.1,
          mt (hempty String.toList_ofList.symm).mpr hfull.2⟩
  · rintro ⟨left, right, hnot, hs, hleft, hright, hkey, hvalue⟩
    rw [splitAssignment?_eq_some.mpr ⟨hnot, hs⟩]
    dsimp only
    rw [if_neg (not_or.mpr ⟨mt (hempty hleft).mp hkey, mt (hempty hright).mp hvalue⟩), hleft,
      hright, String.ofList_toList, String.ofList_toList]

theorem Role.ofAssignment_eq_ok {s : String} {role : Role} :
    Role.ofAssignment s = .ok role ↔ readAssignment s = .ok (role.name, role.type) := by
  rw [ofAssignment, bind_eq_ok]
  refine ⟨?_, fun h => ⟨_, h, rfl⟩⟩
  rintro ⟨⟨name, type⟩, hread, heq⟩
  cases heq
  exact hread

/-- No half that is read is blank. -/
theorem not_blank_of_ofAssignment {s : String} {role : Role} (h : Role.ofAssignment s = .ok role) :
    isBlank role.name = false ∧ isBlank role.type = false := by
  have hhalf : ∀ {cs : List Char} {text : String}, trimChars cs = text.toList → text ≠ "" →
      isBlank text = false := by
    intro cs text htext hne
    have htrimmed : Trimmed text.toList := htext ▸ trimmed_trimChars cs
    rw [← Bool.not_eq_true, isBlank_iff, trimChars_eq_self_iff.mpr htrimmed,
      String.toList_eq_nil_iff]
    exact hne
  obtain ⟨left, right, -, -, hleft, hright, hname, htype⟩ :=
    readAssignment_eq_ok.mp (Role.ofAssignment_eq_ok.mp h)
  exact ⟨hhalf hleft hname, hhalf hright htype⟩

/-! ## Keys -/

/-- The text can stand in front of an equals sign and is read from there as it is. -/
structure IsKey (s : String) : Prop where
  /-- no equals sign comes before the one that divides -/
  noEquals : '=' ∉ s.toList
  /-- no white space is taken away -/
  trimmed : Trimmed s.toList

instance : DecidablePred IsKey := fun s =>
  decidable_of_iff ('=' ∉ s.toList ∧ Trimmed s.toList)
    ⟨fun h => ⟨h.1, h.2⟩, fun h => ⟨h.noEquals, h.trimmed⟩⟩

/-- Only keys are read as the name of a role or of a selection. -/
theorem isKey_of_ofAssignment {s : String} {role : Role} (h : Role.ofAssignment s = .ok role) :
    IsKey role.name := by
  obtain ⟨left, right, hnot, -, hleft, -⟩ := readAssignment_eq_ok.mp (Role.ofAssignment_eq_ok.mp h)
  obtain ⟨htrimmed, before, after, -, -, rfl⟩ := trimChars_eq_iff.mp hleft
  refine ⟨fun hmem => hnot ?_, htrimmed⟩
  exact List.mem_append_left _ (List.mem_append_right _ hmem)

/-- Every key is read, with every value that has no white space to be taken away. -/
theorem ofAssignment_of_isKey {name type : String} (hname : IsKey name) (hne : name ≠ "")
    (htype : Trimmed type.toList) (htype_ne : type ≠ "") :
    Role.ofAssignment (name ++ "=" ++ type) = .ok ⟨name, type⟩ := by
  refine Role.ofAssignment_eq_ok.mpr (readAssignment_eq_ok.mpr
    ⟨name.toList, type.toList, hname.noEquals, ?_, trimChars_eq_self_iff.mpr hname.trimmed,
      trimChars_eq_self_iff.mpr htype, hne, htype_ne⟩)
  rw [String.toList_append, String.toList_append, List.append_assoc]
  rfl

end RoleWiring
