/-! Double precision numbers, with 53 binary digits, and the rounding of quotients to them. -/

namespace Overlap

/-- A double precision number; a finite one is its mantissa times a power of two. -/
inductive Double where
  -- Zero is finite, with a sign.
  | nan
  | infinite (negative : Bool)
  | finite (negative : Bool) (mantissa : Nat) (exponent : Int)
deriving DecidableEq, Repr

namespace Double

/-- Binary digits of a mantissa. -/
def precision : Nat := 53

/-- The smallest exponent of a double precision number. -/
def minExponent : Int := -1074

/-- The largest exponent of a finite double precision number. -/
def maxExponent : Int := 971

/-- The quotient to the nearest integer, and halfway to the even one. -/
def roundQuotient (numerator denominator : Nat) : Nat :=
  -- The remainder decides how far the quotient is from the next integer.
  let quotient := numerator / denominator
  let twice := 2 * (numerator % denominator)
  if twice > denominator ∨ (twice = denominator ∧ quotient % 2 = 1) then quotient + 1 else quotient

/-- Numerator and denominator of a quotient divided by a power of two. -/
def descale (numerator denominator : Nat) (exponent : Int) : Nat × Nat :=
  -- Powers with a negative exponent go to the other side of the fraction.
  if exponent < 0 then (numerator * Nat.pow 2 (-exponent).toNat, denominator)
  else (numerator, denominator * Nat.pow 2 exponent.toNat)

/-- The exponent at which the mantissa of a quotient has all of its binary
digits, or the smallest one. -/
def quotientExponent (numerator denominator : Nat) : Int :=
  -- Comparing binary lengths finds the exponent up to one.
  let guess : Int := numerator.log2 - denominator.log2 - (precision - 1 : Nat)
  let (high, low) := descale numerator denominator guess
  -- The mantissa of a smaller exponent would have one binary digit too many.
  max minExponent (if high / low < Nat.pow 2 (precision - 1) then guess - 1 else guess)

/-- The number zero, which has a sign as well. -/
def zero (negative : Bool) : Double :=
  -- Any exponent would do, and the smallest one makes zero unique.
  .finite negative 0 minExponent

/-- The double precision number nearest to a quotient, and halfway the one with an even mantissa. -/
def ofQuotient (negative : Bool) (numerator denominator : Nat) : Double :=
  -- Zero has no leading binary digit to count from.
  if numerator = 0 then zero negative
  else
    let exponent := quotientExponent numerator denominator
    let (high, low) := descale numerator denominator exponent
    let mantissa := roundQuotient high low
    -- Rounding up may need one more binary digit.
    let (mantissa, exponent) :=
      if mantissa = Nat.pow 2 precision then (Nat.pow 2 (precision - 1), exponent + 1)
        else (mantissa, exponent)
    -- An exponent that is too large after the rounding means infinity.
    if exponent > maxExponent then .infinite negative else .finite negative mantissa exponent

/-- The double precision number nearest to a whole number times a power of ten. -/
def ofDecimal (negative : Bool) (digits : Nat) (exponent : Int) : Double :=
  -- Powers of ten are exact, so there is a single rounding.
  if exponent < 0 then ofQuotient negative digits (Nat.pow 10 (-exponent).toNat)
  else ofQuotient negative (digits * Nat.pow 10 exponent.toNat) 1

/-- The least integer that is not below a finite number. -/
def ceil? : Double → Option Int
  | .finite negative mantissa exponent =>
    -- Rounding up a negative number moves it towards zero.
    let signed : Int := if negative then -mantissa else mantissa
    some (if exponent < 0 then -((-signed) / Nat.pow 2 (-exponent).toNat)
      else signed * Nat.pow 2 exponent.toNat)
  -- Infinity has no integer above it, and neither has what is no number.
  | _ => none

end Double

end Overlap
