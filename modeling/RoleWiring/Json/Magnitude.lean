import RoleWiring.Json.Value

/-!
# The magnitude of numbers

A number that is set aside is turned into a double-precision number in one
multiplication: the leading digits that fit a word of 64 bits and the power of ten
that goes with them are each rounded to 53 bits, and so is their product. A number
is *finite* when no step leaves the range, so some numbers just below the largest
double-precision number are not.
-/

namespace RoleWiring.Json

/-- The value of the last place that is kept when only so many leading bits are. -/
def lastPlace (bits n : Nat) : Nat :=
  Nat.pow 2 (n.log2 + 1 - bits)

/-- The nearest number with so many leading bits and zeros after them. Of two nearest ones it
is the even one. -/
def roundBits (bits n : Nat) : Nat :=
  let unit := lastPlace bits n
  let up := unit < 2 * (n % unit) || (unit == 2 * (n % unit) && n / unit % 2 == 1)
  (if up then n / unit + 1 else n / unit) * unit

/-- The leading digits of a significand that are below the limit, with the exponent that goes
with them. -/
def leadingDigits (limit significand : Nat) (exponent : Int) : Nat × Int :=
  if significand < limit ∨ significand = 0 then (significand, exponent)
  else leadingDigits limit (significand / 10) (exponent + 1)
termination_by significand
decreasing_by omega

/-- The least number that rounds to one too large for a double-precision number. -/
def doubleLimit : Nat :=
  Nat.pow 2 1024 - Nat.pow 2 970

/-- The number does not become too large when it is turned into a double-precision number. Powers
of ten above the 308th are too large by themselves, and negative ones only make a number smaller. -/
def Decimal.isFinite (n : Decimal) : Bool :=
  let (digits, exponent) := leadingDigits (Nat.pow 2 64) n.significand n.exponent
  digits = 0 || exponent < 0 ||
    (exponent ≤ 308 && roundBits 53 digits * roundBits 53 (Nat.pow 10 exponent.toNat) < doubleLimit)

end RoleWiring.Json
