import Mathlib.Data.List.DropRight
import RoleWiring.Name.Identifier
import RoleWiring.Text.WhiteSpace

/-!
# What trimming leaves

A text without the white space at its ends is the one part of it that neither begins
nor ends with white space and has only white space around it.

* `trimChars_eq_iff` — what is left of a text;
* `isWhiteSpace_of_isIdentifierPart` — no character of an identifier is white space.
-/

namespace RoleWiring

/-- The characters neither begin nor end with white space. -/
structure Trimmed (cs : List Char) : Prop where
  /-- the first character is not white space -/
  head : ∀ c ∈ cs.head?, isWhiteSpace c = false
  /-- the last character is not white space -/
  last : ∀ c ∈ cs.getLast?, isWhiteSpace c = false

/-- All characters are white space. -/
def AllWhite (cs : List Char) : Prop :=
  ∀ c ∈ cs, isWhiteSpace c = true

variable {cs : List Char}

theorem Trimmed.of_forall (h : ∀ c ∈ cs, isWhiteSpace c = false) : Trimmed cs where
  head := fun c hc => h c (List.mem_of_head? hc)
  last := fun c hc => h c (List.mem_of_getLast? hc)

theorem trimmed_trimChars (cs : List Char) : Trimmed (trimChars cs) where
  head := by
    intro c hc
    have hkept : trimChars cs <+: cs.dropWhile isWhiteSpace := List.rdropWhile_prefix _ _
    obtain ⟨rest, hrest⟩ := hkept
    have hhead : (cs.dropWhile isWhiteSpace).head? = some c := by
      rw [← hrest, List.head?_append, hc]
      rfl
    have hnot := List.head?_dropWhile_not isWhiteSpace cs
    rw [hhead] at hnot
    exact hnot
  last := by
    intro c hc
    obtain ⟨hne, hlast⟩ := List.mem_getLast?_eq_getLast hc
    rw [hlast, ← Bool.not_eq_true]
    exact List.rdropWhile_last_not isWhiteSpace (cs.dropWhile isWhiteSpace) hne

/-- What is left of a text has only white space around it in the text. -/
theorem exists_allWhite_trimChars (cs : List Char) :
    ∃ before after, AllWhite before ∧ AllWhite after ∧ cs = before ++ trimChars cs ++ after := by
  refine ⟨cs.takeWhile isWhiteSpace, (cs.dropWhile isWhiteSpace).rtakeWhile isWhiteSpace,
    fun c hc => List.mem_takeWhile_imp hc, fun c hc => List.mem_rtakeWhile_imp hc, ?_⟩
  have hback : trimChars cs ++ (cs.dropWhile isWhiteSpace).rtakeWhile isWhiteSpace =
      cs.dropWhile isWhiteSpace :=
    List.rdropWhile_append_rtakeWhile
  rw [List.append_assoc, hback, List.takeWhile_append_dropWhile]

/-- White space around a trimmed text is taken away, and nothing else. -/
theorem trimChars_append {before core after : List Char} (hbefore : AllWhite before)
    (hcore : Trimmed core) (hafter : AllWhite after) :
    trimChars (before ++ core ++ after) = core := by
  have hfront : (before ++ core ++ after).dropWhile isWhiteSpace =
      (core ++ after).dropWhile isWhiteSpace := by
    rw [List.append_assoc, List.dropWhile_append_of_pos hbefore]
  rw [trimChars, hfront]
  cases core with
  | nil =>
    have hnil : ([] ++ after).dropWhile isWhiteSpace = [] :=
      List.dropWhile_eq_nil_iff.mpr hafter
    rw [hnil]
    rfl
  | cons c core =>
    have hc : ¬ isWhiteSpace c = true := Bool.eq_false_iff.mp (hcore.head c rfl)
    have hkept : (c :: core).rdropWhile isWhiteSpace = c :: core := by
      refine List.rdropWhile_eq_self_iff.mpr fun hne => ?_
      rw [hcore.last _ (List.getLast?_eq_getLast_of_ne_nil hne)]
      exact Bool.false_ne_true
    rw [List.cons_append, List.dropWhile_cons_of_neg hc, ← List.cons_append, List.reverse_append,
      List.dropWhile_append_of_pos fun d hd => hafter d (List.mem_reverse.mp hd)]
    exact hkept

/-- What is left of a text is trimmed and has only white space around it, and nothing else is. -/
theorem trimChars_eq_iff {core : List Char} :
    trimChars cs = core ↔
      Trimmed core ∧
        ∃ before after, AllWhite before ∧ AllWhite after ∧ cs = before ++ core ++ after := by
  refine ⟨?_, ?_⟩
  · rintro rfl
    exact ⟨trimmed_trimChars cs, exists_allWhite_trimChars cs⟩
  · rintro ⟨hcore, before, after, hbefore, hafter, rfl⟩
    exact trimChars_append hbefore hcore hafter

/-- White space in front of a trimmed text that is not empty ends where the text begins. -/
theorem takeWhile_append_trimmed {before core after : List Char} (hbefore : AllWhite before)
    (hcore : Trimmed core) (hne : core ≠ []) :
    (before ++ core ++ after).takeWhile isWhiteSpace = before := by
  obtain ⟨c, rest, rfl⟩ := List.exists_cons_of_ne_nil hne
  have hc : ¬ isWhiteSpace c = true := Bool.eq_false_iff.mp (hcore.head c rfl)
  rw [List.append_assoc, List.takeWhile_append_of_pos hbefore, List.cons_append,
    List.takeWhile_cons_of_neg hc, List.append_nil]

/-- White space around a trimmed text that is not empty can be told from the text in only one
way. -/
theorem append_trimmed_inj {before core after before' core' after' : List Char}
    (hbefore : AllWhite before) (hcore : Trimmed core) (hne : core ≠ []) (hafter : AllWhite after)
    (hbefore' : AllWhite before') (hcore' : Trimmed core') (hafter' : AllWhite after')
    (h : before ++ core ++ after = before' ++ core' ++ after') :
    before = before' ∧ core = core' ∧ after = after' := by
  have hsame : core = core' := by
    rw [← trimChars_append hbefore hcore hafter, h, trimChars_append hbefore' hcore' hafter']
  subst hsame
  have hfront : before = before' := by
    rw [← takeWhile_append_trimmed hbefore hcore hne, h,
      takeWhile_append_trimmed hbefore' hcore hne]
  subst hfront
  exact ⟨rfl, rfl, List.append_cancel_left h⟩

/-- Exactly the trimmed texts stay as they are. -/
theorem trimChars_eq_self_iff : trimChars cs = cs ↔ Trimmed cs := by
  refine ⟨fun h => h ▸ trimmed_trimChars cs, fun h => ?_⟩
  have hnone : AllWhite [] := fun _ hc => absurd hc List.not_mem_nil
  exact trimChars_eq_iff.mpr ⟨h, [], [], hnone, hnone, (List.append_nil cs).symm⟩

instance : DecidablePred Trimmed := fun cs =>
  decidable_of_iff (trimChars cs = cs) trimChars_eq_self_iff

instance : DecidablePred AllWhite := fun _ =>
  decidable_of_iff _ List.all_eq_true

theorem isBlank_iff {s : String} : isBlank s = true ↔ trimChars s.toList = [] := by
  simp [isBlank, trim]

/-! ## Identifiers -/

/-- Tables without a common code point have no common character. -/
theorem inRanges_of_disjoint {first second : List (Nat × Nat)}
    (h : ∀ r ∈ first, ∀ s ∈ second, r.2 < s.1 ∨ s.2 < r.1) {c : Char}
    (hc : inRanges first c = true) : inRanges second c = false := by
  rw [← Bool.not_eq_true]
  intro hc'
  obtain ⟨r, hr, hfrom, hto⟩ := inRanges_iff.mp hc
  obtain ⟨s, hs, hfrom', hto'⟩ := inRanges_iff.mp hc'
  have := h r hr s hs
  omega

/-- Letters and numbers are not white space. -/
theorem isWhiteSpace_of_isIdentifierPart {c : Char} (h : isIdentifierPart c = true) :
    isWhiteSpace c = false := by
  simp only [isIdentifierPart, Bool.or_eq_true, beq_iff_eq] at h
  rcases h with ((hletter | hnumber) | rfl) | rfl
  · exact inRanges_of_disjoint (by decide +kernel) hletter
  · exact inRanges_of_disjoint (by decide +kernel) hnumber
  · decide
  · decide

end RoleWiring
