import RoleWiring.ClassFile.ModifiedUtf8
import RoleWiring.Proofs.Text.Utf8

/-!
# Spellings that are UTF-8

A text of characters of the basic plane is spelled in modified UTF-8 as it is in UTF-8:
no character of it needs a pair of surrogates, and a null that is spelled by one byte is
read as well.

* `modifiedUtf8Text?_utf8Bytes` — such a text is read from its UTF-8 spelling.
-/

namespace RoleWiring

variable {b c d : UInt8} {x : Char} {bs : Bytes}

/-! ## Sequences of one, two and three bytes -/

theorem modifiedUtf8Chars?_one (hx : x.toNat < 0x80) (hb : b.toNat = x.toNat) :
    modifiedUtf8Chars? none (b :: bs) = (modifiedUtf8Chars? none bs).map (x :: ·) := by
  have hone : b < 0x80 := by
    simp only [UInt8.lt_iff_toNat_lt, hb, UInt8.reduceToNat]
    exact hx
  rw [modifiedUtf8Chars?.eq_def]
  dsimp only
  rw [if_pos hone, hb, Char.ofNat_toNat]
  rfl

theorem modifiedUtf8Chars?_two (hx : 0x80 ≤ x.toNat ∧ x.toNat < 0x800)
    (hb : b.toNat = x.toNat / 64 + 0xC0) (hc : c.toNat = x.toNat % 64 + 0x80) :
    modifiedUtf8Chars? none (b :: c :: bs) = (modifiedUtf8Chars? none bs).map (x :: ·) := by
  have hone : ¬ b < 0x80 := by
    simp only [UInt8.lt_iff_toNat_lt, hb, UInt8.reduceToNat]
    omega
  have htwo : startsTwo b = true := by
    simp only [startsTwo, UInt8.le_iff_toNat_le, UInt8.lt_iff_toNat_lt, hb, UInt8.reduceToNat,
      Bool.and_eq_true, decide_eq_true_eq]
    omega
  have hnull : ¬ (b = 0xC0 ∧ c = 0x80) := by
    simp only [← UInt8.toNat_inj, hb, hc, UInt8.reduceToNat]
    omega
  have hshort : 0xC2 ≤ b ∧ isContinuation c = true := by
    simp only [isContinuation, UInt8.le_iff_toNat_le, UInt8.lt_iff_toNat_lt, hb, hc,
      UInt8.reduceToNat, Bool.and_eq_true, decide_eq_true_eq]
    omega
  have hcode : (b.toNat - 0xC0) * 64 + (c.toNat - 0x80) = x.toNat := by omega
  have hchar : twoByteChar? b c = some x := by
    rw [twoByteChar?, if_neg hnull, if_pos hshort, hcode, Char.ofNat_toNat]
  rw [modifiedUtf8Chars?.eq_def]
  dsimp only
  rw [if_neg hone, if_pos htwo, hchar]
  rfl

theorem modifiedUtf8Chars?_three (hx : 0x800 ≤ x.toNat ∧ x.toNat < 0x10000)
    (hb : b.toNat = x.toNat / 4096 + 0xE0) (hc : c.toNat = x.toNat / 64 % 64 + 0x80)
    (hd : d.toNat = x.toNat % 64 + 0x80) :
    modifiedUtf8Chars? none (b :: c :: d :: bs) = (modifiedUtf8Chars? none bs).map (x :: ·) := by
  have hone : ¬ b < 0x80 := by
    simp only [UInt8.lt_iff_toNat_lt, hb, UInt8.reduceToNat]
    omega
  have htwo : ¬ startsTwo b = true := by
    simp only [startsTwo, UInt8.le_iff_toNat_le, UInt8.lt_iff_toNat_lt, hb, UInt8.reduceToNat,
      Bool.and_eq_true, decide_eq_true_eq]
    omega
  have hthree : startsThree b = true := by
    simp only [startsThree, UInt8.le_iff_toNat_le, UInt8.lt_iff_toNat_lt, hb, UInt8.reduceToNat,
      Bool.and_eq_true, decide_eq_true_eq]
    omega
  have hunit : threeByteUnit b c d = x.toNat := by
    rw [threeByteUnit, hb, hc, hd]
    omega
  -- a character is no surrogate
  have hvalid : x.toNat < 0xD800 ∨ 0xDFFF < x.toNat := x.valid.imp_right And.left
  have hhigh : isHighSurrogate x.toNat = false := by
    simp only [isHighSurrogate, Bool.and_eq_false_iff, decide_eq_false_iff_not]
    omega
  have hlow : isLowSurrogate x.toNat = false := by
    simp only [isLowSurrogate, Bool.and_eq_false_iff, decide_eq_false_iff_not]
    omega
  have hshort : isContinuation c = true ∧ isContinuation d = true ∧
      0x800 ≤ threeByteUnit b c d := by
    simp only [isContinuation, UInt8.le_iff_toNat_le, UInt8.lt_iff_toNat_lt, hc, hd, hunit,
      UInt8.reduceToNat, Bool.and_eq_true, decide_eq_true_eq]
    omega
  have hchar : threeByteChar? b c d = some x := by
    rw [threeByteChar?, if_pos hshort, hunit, Char.ofNat_toNat]
  rw [modifiedUtf8Chars?.eq_def]
  dsimp only
  rw [if_neg hone, if_neg htwo, if_pos hthree, hunit, hhigh, hlow, hchar]
  rfl

/-! ## Texts -/

/-- The spelling of a character of the basic plane is read as this character. -/
theorem modifiedUtf8Chars?_utf8EncodeChar (hx : x.toNat < 0x10000) :
    modifiedUtf8Chars? none (String.utf8EncodeChar x ++ bs) =
      (modifiedUtf8Chars? none bs).map (x :: ·) := by
  have hbyte : ∀ n, n < 256 → (UInt8.ofNat n).toNat = n := fun n => UInt8.toNat_ofNat_of_lt'
  have hv : x.val.toNat = x.toNat := rfl
  unfold String.utf8EncodeChar
  dsimp only
  rw [hv]
  split
  · next hone => exact modifiedUtf8Chars?_one (by omega) (hbyte _ (by omega))
  · next hone =>
    split
    · next htwo =>
      exact modifiedUtf8Chars?_two (by omega) ((hbyte _ (by omega)).trans (by omega))
        (hbyte _ (by omega))
    · next htwo =>
      rw [if_pos (Nat.le_of_lt_succ hx)]
      exact modifiedUtf8Chars?_three (by omega) ((hbyte _ (by omega)).trans (by omega))
        (hbyte _ (by omega)) (hbyte _ (by omega))

/-- All characters of the text are in the basic plane. -/
def IsBasic (s : String) : Prop :=
  ∀ x ∈ s.toList, x.toNat < 0x10000

instance : DecidablePred IsBasic := fun s =>
  decidable_of_iff (s.toList.all fun x => x.toNat < 0x10000) (by simp [IsBasic])

/-- A text of characters of the basic plane is read from its UTF-8 spelling. -/
theorem modifiedUtf8Text?_utf8Bytes {s : String} (h : IsBasic s) :
    modifiedUtf8Text? (utf8Bytes s) = some s := by
  have hchars : ∀ cs : List Char, (∀ x ∈ cs, x.toNat < 0x10000) →
      modifiedUtf8Chars? none (cs.flatMap String.utf8EncodeChar) = some cs := by
    intro cs hcs
    induction cs with
    | nil => rfl
    | cons x cs ih =>
      obtain ⟨hx, hrest⟩ := List.forall_mem_cons.mp hcs
      rw [List.flatMap_cons, modifiedUtf8Chars?_utf8EncodeChar hx, ih hrest]
      rfl
  rw [modifiedUtf8Text?, ← String.ofList_toList (s := s), utf8Bytes_ofList, hchars _ h]
  rfl

end RoleWiring
