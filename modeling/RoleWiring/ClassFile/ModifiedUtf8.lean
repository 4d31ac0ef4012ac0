import RoleWiring.Text.Display
import RoleWiring.Text.Surrogate

/-!
# Modified UTF-8

The spelling of texts inside a class file. It differs from UTF-8 in three ways:

* the null character may be spelled by the two bytes `C0 80`;
* a character beyond the basic plane is spelled as a pair of surrogates, three
  bytes each;
* a surrogate that is not part of such a pair reads as the replacement
  character.

Everything else must be well-formed UTF-8 of one, two or three bytes.
-/

namespace RoleWiring

/-- The byte may continue a sequence. -/
def isContinuation (b : UInt8) : Bool :=
  0x80 ≤ b && b < 0xC0

/-- The byte starts a sequence of two. -/
def startsTwo (b : UInt8) : Bool :=
  0xC0 ≤ b && b < 0xE0

/-- The byte starts a sequence of three. -/
def startsThree (b : UInt8) : Bool :=
  0xE0 ≤ b && b < 0xF0

/-- The character spelled by two bytes: null by `C0 80`, all others in the shortest way. -/
def twoByteChar? (b c : UInt8) : Option Char :=
  if b = 0xC0 ∧ c = 0x80 then some '\x00'
  else if 0xC2 ≤ b ∧ isContinuation c then
    some (Char.ofNat ((b.toNat - 0xC0) * 64 + (c.toNat - 0x80)))
  else none

/-- The code unit spelled by three bytes, of which the lower bits count. -/
def threeByteUnit (b c d : UInt8) : Nat :=
  b.toNat % 16 * 4096 + c.toNat % 64 * 64 + d.toNat % 64

/-- The character of the basic plane spelled by three bytes in the shortest way. -/
def threeByteChar? (b c d : UInt8) : Option Char :=
  if isContinuation c ∧ isContinuation d ∧ 0x800 ≤ threeByteUnit b c d then
    some (Char.ofNat (threeByteUnit b c d))
  else none

/-- What is written for the first half of a pair whose second half did not follow. -/
def unpaired : Option Nat → List Char
  | none => []
  | some _ => [replacementChar]

/-- The characters that the bytes spell, if they spell any, where `half` is the first half of
a pair that ended just before them. -/
def modifiedUtf8Chars? (half : Option Nat) : Bytes → Option (List Char)
  | [] => some (unpaired half)
  | b :: bs =>
    if b < 0x80 then
      (modifiedUtf8Chars? none bs).map (unpaired half ++ Char.ofNat b.toNat :: ·)
    else if startsTwo b then
      match bs with
      | c :: bs =>
        match twoByteChar? b c with
        | some x => (modifiedUtf8Chars? none bs).map (unpaired half ++ x :: ·)
        | none => none
      | [] => none
    else if startsThree b then
      match bs with
      | c :: d :: bs =>
        let unit := threeByteUnit b c d
        if isHighSurrogate unit then
          (modifiedUtf8Chars? (some unit) bs).map (unpaired half ++ ·)
        else if isLowSurrogate unit then
          match half with
          | some high => (modifiedUtf8Chars? none bs).map (pairedChar high unit :: ·)
          | none => (modifiedUtf8Chars? none bs).map (replacementChar :: ·)
        else
          match threeByteChar? b c d with
          | some x => (modifiedUtf8Chars? none bs).map (unpaired half ++ x :: ·)
          | none => none
      | _ => none
    else none

/-- The text that the bytes spell, if they spell one. -/
def modifiedUtf8Text? (bs : Bytes) : Option String :=
  (modifiedUtf8Chars? none bs).map String.ofList

end RoleWiring
