import VersionInfo.Text.Integer

/-!
# Binary floating point numbers

A finite number of 64 bits is a whole mantissa below 2^53 times a power of two from 2^-1074 to
2^971, with a sign; zero has one too. `ofDecimal?` is the number nearest to a decimal, where a tie
goes to the even mantissa, and nothing for a decimal beyond the greatest.

Out of scope: the error in the last place that a reader makes which computes in floating point. The
number here is always the nearest.
-/

namespace VersionInfo.Decimal

/-- The whole number nearest to a quotient; a tie goes to the even one. -/
def roundDiv (num den : Nat) : Nat :=
  let low := num / den
  let twice := 2 * (num % den)
  if twice < den then low
  else if den < twice then low + 1
  else if low % 2 = 0 then low
  else low + 1

/-- A finite number of 64 bits: `mantissa * 2 ^ exponent`, negated if `negative`. -/
structure Binary64 where
  negative : Bool
  mantissa : Nat
  exponent : Int
deriving DecidableEq

namespace Binary64

/-- The exponent of the least positive number, and of every number too small for a full mantissa. -/
def leastExponent : Int := -1074

/-- The exponent of the greatest number. -/
def greatestExponent : Int := 971

/-- The least mantissa of 53 bits, 2^52. -/
def leastFull : Nat := 4503599627370496

/-- Zero, which keeps its sign. -/
def zero (negative : Bool) : Binary64 := ⟨negative, 0, leastExponent⟩

/-- The exponent of the power of two at or below a positive quotient. -/
def floorLog2 (num den : Nat) : Int :=
  let guess : Int := num.log2 - den.log2
  if den <<< guess.toNat ≤ num <<< (-guess).toNat then guess else guess - 1

/-- The number nearest to a positive quotient, unless it is beyond the greatest. -/
def ofQuotient? (negative : Bool) (num den : Nat) : Option Binary64 :=
  let exponent := max (floorLog2 num den - 52) leastExponent
  let mantissa := roundDiv (num <<< (-exponent).toNat) (den <<< exponent.toNat)
  let rounded : Binary64 :=
    if mantissa = 2 * leastFull then ⟨negative, leastFull, exponent + 1⟩
    else ⟨negative, mantissa, exponent⟩
  if rounded.exponent ≤ greatestExponent then some rounded else none

/-- The number nearest to `significand * 10 ^ exponent`, unless it is beyond the greatest. Powers
are only taken for a decimal of a size that could be told from zero and from infinity. -/
def ofDecimal? (negative : Bool) (significand : Nat) (exponent : Int) : Option Binary64 :=
  if significand = 0 then some (zero negative)
  else
    let size := (Text.writeNat significand).length + exponent
    if size < -330 then some (zero negative)
    else if 330 < size then none
    else ofQuotient? negative (significand * Nat.pow 10 exponent.toNat)
      (Nat.pow 10 (-exponent).toNat)

end Binary64

end VersionInfo.Decimal
