import RoleWiring.Proofs.Assignment

/-!
# The spellings of an assignment

A key and a value are assigned to each other by an equals sign between them, with white
space allowed around each of the two. The key has no equals sign, and neither of them is
empty or has white space at its ends. Every such spelling is read, and it is the spelling
of nothing else: the first equals sign divides it, and in each half the white space ends
where the key or the value begins. All other texts are refused.

* `readAssignment_eq_ok_iff` — the texts that are read;
* `readAssignment_eq_error_iff` — the texts that are refused;
* `Padding.spell_inj` — what a text spells, and how;
* `assignment_spellings` — spellings and pairs determine each other; every other text is refused.
-/

namespace RoleWiring

/-- The texts can be assigned to each other. -/
structure IsPair (key value : String) : Prop where
  /-- the key can stand in front of an equals sign -/
  isKey : IsKey key
  /-- there is a key -/
  key_ne : key ≠ ""
  /-- no white space is taken away from the value -/
  trimmed : Trimmed value.toList
  /-- there is a value -/
  value_ne : value ≠ ""

instance (key value : String) : Decidable (IsPair key value) :=
  decidable_of_iff (IsKey key ∧ key ≠ "" ∧ Trimmed value.toList ∧ value ≠ "")
    ⟨fun h => ⟨h.1, h.2.1, h.2.2.1, h.2.2.2⟩,
      fun h => ⟨h.isKey, h.key_ne, h.trimmed, h.value_ne⟩⟩

/-- What stands around the key and the value of an assignment. -/
@[ext]
structure Padding where
  /-- in front of the key -/
  beforeKey : String
  /-- between the key and the equals sign -/
  afterKey : String
  /-- between the equals sign and the value -/
  beforeValue : String
  /-- behind the value -/
  afterValue : String

namespace Padding

/-- Nothing but white space stands there. -/
structure IsWhite (p : Padding) : Prop where
  /-- in front of the key -/
  beforeKey : AllWhite p.beforeKey.toList
  /-- between the key and the equals sign -/
  afterKey : AllWhite p.afterKey.toList
  /-- between the equals sign and the value -/
  beforeValue : AllWhite p.beforeValue.toList
  /-- behind the value -/
  afterValue : AllWhite p.afterValue.toList

/-- The assignment spelled with this around its key and its value. -/
def spell (p : Padding) (key value : String) : String :=
  p.beforeKey ++ key ++ p.afterKey ++ "=" ++ (p.beforeValue ++ value ++ p.afterValue)

/-- The half of the assignment in front of the equals sign. -/
def left (p : Padding) (key : String) : List Char :=
  p.beforeKey.toList ++ key.toList ++ p.afterKey.toList

/-- The half of the assignment behind the equals sign. -/
def right (p : Padding) (value : String) : List Char :=
  p.beforeValue.toList ++ value.toList ++ p.afterValue.toList

theorem toList_spell (p : Padding) (key value : String) :
    (p.spell key value).toList = p.left key ++ '=' :: p.right value := by
  simp [spell, left, right]

variable {p p' : Padding} {key value key' value' : String}

theorem equals_not_mem_of_allWhite {cs : List Char} (h : AllWhite cs) : '=' ∉ cs := by
  intro hmem
  have hequals : isWhiteSpace '=' = false := by decide
  rw [h _ hmem] at hequals
  cases hequals

/-- The first equals sign of a spelling is the one between its halves. -/
theorem equals_not_mem_left (hp : p.IsWhite) (hkey : IsKey key) : '=' ∉ p.left key := by
  simp only [left, List.mem_append, not_or]
  exact ⟨⟨equals_not_mem_of_allWhite hp.beforeKey, hkey.noEquals⟩,
    equals_not_mem_of_allWhite hp.afterKey⟩

/-- A text spells one assignment at most, and in one way. -/
theorem spell_inj (hp : p.IsWhite) (hp' : p'.IsWhite) (hpair : IsPair key value)
    (hpair' : IsPair key' value') (h : p.spell key value = p'.spell key' value') :
    p = p' ∧ key = key' ∧ value = value' := by
  have hsplit := splitAssignment?_eq_some.mpr
    ⟨equals_not_mem_left hp hpair.isKey, toList_spell p key value⟩
  have hsplit' := splitAssignment?_eq_some.mpr
    ⟨equals_not_mem_left hp' hpair'.isKey, toList_spell p' key' value'⟩
  rw [← h, hsplit, Option.some.injEq, Prod.mk.injEq] at hsplit'
  obtain ⟨hleft, hright⟩ := hsplit'
  obtain ⟨h₁, hkey, h₂⟩ := append_trimmed_inj hp.beforeKey hpair.isKey.trimmed
    (mt String.toList_eq_nil_iff.mp hpair.key_ne) hp.afterKey hp'.beforeKey hpair'.isKey.trimmed
    hp'.afterKey hleft
  obtain ⟨h₃, hvalue, h₄⟩ := append_trimmed_inj hp.beforeValue hpair.trimmed
    (mt String.toList_eq_nil_iff.mp hpair.value_ne) hp.afterValue hp'.beforeValue hpair'.trimmed
    hp'.afterValue hright
  have hpadding : p = p' :=
    Padding.ext (String.toList_injective h₁) (String.toList_injective h₂)
      (String.toList_injective h₃) (String.toList_injective h₄)
  exact ⟨hpadding, String.toList_injective hkey, String.toList_injective hvalue⟩

end Padding

/-- The text spells an assignment. -/
def IsAssignment (s : String) : Prop :=
  ∃ key value, IsPair key value ∧ ∃ p : Padding, p.IsWhite ∧ s = p.spell key value

variable {s key value : String} {fault : Fault}

/-- The key and the value of an assignment are read from every spelling of it, and from no other
text. -/
theorem readAssignment_eq_ok_iff :
    readAssignment s = .ok (key, value) ↔
      IsPair key value ∧ ∃ p : Padding, p.IsWhite ∧ s = p.spell key value := by
  rw [readAssignment_eq_ok]
  constructor
  · rintro ⟨left, right, hnot, hs, hleft, hright, hkey, hvalue⟩
    obtain ⟨hkeyTrimmed, w₁, w₂, hw₁, hw₂, rfl⟩ := trimChars_eq_iff.mp hleft
    obtain ⟨hvalueTrimmed, w₃, w₄, hw₃, hw₄, rfl⟩ := trimChars_eq_iff.mp hright
    have hkeyEquals : '=' ∉ key.toList := fun hmem => hnot (by simp [hmem])
    refine ⟨⟨⟨hkeyEquals, hkeyTrimmed⟩, hkey, hvalueTrimmed, hvalue⟩,
      ⟨.ofList w₁, .ofList w₂, .ofList w₃, .ofList w₄⟩, ?_, ?_⟩
    · constructor <;> simpa
    · apply String.toList_injective
      simp [hs, Padding.toList_spell, Padding.left, Padding.right]
  · rintro ⟨hpair, p, hp, rfl⟩
    exact ⟨p.left key, p.right value, Padding.equals_not_mem_left hp hpair.isKey,
      p.toList_spell key value, trimChars_append hp.beforeKey hpair.isKey.trimmed hp.afterKey,
      trimChars_append hp.beforeValue hpair.trimmed hp.afterValue, hpair.key_ne, hpair.value_ne⟩

/-- A text that is refused is the text of the complaint. -/
theorem fault_of_readAssignment (h : readAssignment s = .error fault) :
    fault = .config (.notAssignment s) := by
  simp only [readAssignment] at h
  split at h
  · cases h
    rfl
  · split at h
    · cases h
      rfl
    · cases h

/-- All texts that spell no assignment are refused, and no others. -/
theorem readAssignment_eq_error_iff :
    readAssignment s = .error fault ↔
      fault = .config (.notAssignment s) ∧ ¬ IsAssignment s := by
  constructor
  · intro h
    refine ⟨fault_of_readAssignment h, ?_⟩
    rintro ⟨key, value, hspelled⟩
    rw [readAssignment_eq_ok_iff.mpr hspelled] at h
    cases h
  · rintro ⟨rfl, hnot⟩
    cases hread : readAssignment s with
    | ok pair => exact absurd ⟨pair.1, pair.2, readAssignment_eq_ok_iff.mp hread⟩ hnot
    | error fault => rw [fault_of_readAssignment hread]

/-- Exactly the spellings of assignments are read. A text is read as a key and a value if it is the
key, an equals sign and the value, with any white space in the four places around the two, where the
key and the value are not empty and have no white space at their ends, and the key has no equals
sign. It can be taken apart so in one way only. Every other text is refused, with a complaint about
the configuration that says the text. Roles are read likewise. -/
theorem assignment_spellings :
    (∀ s key value, readAssignment s = .ok (key, value) ↔
      IsPair key value ∧ ∃ p : Padding, p.IsWhite ∧ s = p.spell key value) ∧
    (∀ (p p' : Padding) (key value key' value' : String), p.IsWhite → p'.IsWhite →
      IsPair key value → IsPair key' value' → p.spell key value = p'.spell key' value' →
        p = p' ∧ key = key' ∧ value = value') ∧
    (∀ s fault, readAssignment s = .error fault ↔
      fault = .config (.notAssignment s) ∧ ¬ IsAssignment s) ∧
    ∀ s, Role.ofAssignment s = (readAssignment s).map fun pair => ⟨pair.1, pair.2⟩ := by
  refine ⟨fun s key value => readAssignment_eq_ok_iff, ?_,
    fun s fault => readAssignment_eq_error_iff, fun s => ?_⟩
  · intro p p' key value key' value' hp hp' hpair hpair' h
    exact Padding.spell_inj hp hp' hpair hpair' h
  · rw [Role.ofAssignment]
    cases readAssignment s <;> rfl

/-- White space of several sorts, in three of the four places. -/
def mixedPadding : Padding :=
  ⟨"\u3000\n", "", "\u00a0", " \t\u2028"⟩

/-- An assignment whose value has an equals sign and white space inside is read from among white
space, and the text spells nothing else. -/
theorem assignment_spellings_mixedPadding :
    readAssignment (mixedPadding.spell "Parser" "a =b") = .ok ("Parser", "a =b") ∧
      ∀ (p : Padding) (key value : String), p.IsWhite → IsPair key value →
        p.spell key value = mixedPadding.spell "Parser" "a =b" →
          p = mixedPadding ∧ key = "Parser" ∧ value = "a =b" := by
  obtain ⟨hread, hinj, -, -⟩ := assignment_spellings
  have hwhite : mixedPadding.IsWhite := ⟨by decide, by decide, by decide, by decide⟩
  have hpair : IsPair "Parser" "a =b" := by decide
  refine ⟨(hread _ _ _).mpr ⟨hpair, mixedPadding, hwhite, rfl⟩, ?_⟩
  intro p key value hp hkey h
  exact hinj p mixedPadding key value _ _ hp hwhite hkey hpair h

end RoleWiring
