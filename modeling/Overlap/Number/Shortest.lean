import Overlap.Number.Double

/-! The shortest decimal text of a double precision number. -/

namespace Overlap.Double

/-- Significant digits as a whole number, and the place of the decimal point, counted from the front
of the digits: the digits `15` with the point at place `1` are one and a half. -/
structure Decimal where
  -- The digits have no zeros in front, except for zero itself.
  digits : Nat
  place : Int
deriving DecidableEq, Repr

/-- The number of decimal digits of a whole number. -/
def digitCount (value : Nat) : Nat :=
  -- The digits are counted in the text of the number.
  (toString value).length

/-- A positive number with the distances on either side within which numbers round to it, all of
them divided by a common unit. -/
structure Surroundings where
  -- All distances are whole numbers in this unit.
  value : Nat
  below : Nat
  above : Nat
  unit : Nat
deriving DecidableEq, Repr

namespace Surroundings

/-- The surroundings of a mantissa times a power of two. They reach half of the way to the next
number on either side; the way down is shorter by half at a power of two. -/
def ofFinite (mantissa : Nat) (exponent : Int) : Surroundings :=
  -- Everything is counted in quarters of the last binary digit.
  let below := if mantissa = Nat.pow 2 (precision - 1) ∧ exponent > minExponent then 1 else 2
  -- The unit is the quarter itself while that is a fraction.
  if exponent < 2 then ⟨4 * mantissa, below, 2, Nat.pow 2 (2 - exponent).toNat⟩
  else
    let scale := Nat.pow 2 (exponent - 2).toNat
    ⟨4 * mantissa * scale, below * scale, 2 * scale, 1⟩

/-- The place of the decimal point: the value is below the power of ten there, and not below the one
before. -/
def place (around : Surroundings) : Int :=
  -- From one on, the digits of the whole part tell the place.
  if around.unit ≤ around.value then digitCount (around.value / around.unit)
  -- Below one, the zeros behind the point do.
  else 1 - digitCount ((around.unit - 1) / around.value)

/-- The same surroundings divided by a power of ten. -/
def divide (around : Surroundings) (power : Int) : Surroundings :=
  -- A negative power multiplies the values and leaves the unit.
  if power < 0 then
    let scale := Nat.pow 10 (-power).toNat
    ⟨around.value * scale, around.below * scale, around.above * scale, around.unit⟩
  else { around with unit := around.unit * Nat.pow 10 power.toNat }

/-- The whole number nearest to the value that rounds to it. The ends of the surroundings belong to
them when `closed` is set, and of two whole numbers at the same distance the even one is taken. -/
def nearestWhole? (around : Surroundings) (closed : Bool) : Option Nat :=
  -- The candidates are the whole numbers right below and above.
  let floor := around.value / around.unit
  let down := around.value - floor * around.unit
  let up := (floor + 1) * around.unit - around.value
  let reaches (distance limit : Nat) : Bool := distance < limit || (closed && distance = limit)
  match reaches down around.below, reaches up around.above with
  -- Both round to the value, so the distance decides between them.
  | true, true => some (if down < up || (down = up && floor % 2 = 0) then floor else floor + 1)
  | true, false => some floor
  | false, true => some (floor + 1)
  | false, false => none

/-- Decimal digits of the given number that round to the value. -/
def digits? (around : Surroundings) (closed : Bool) (count : Nat) : Option Decimal :=
  -- The value is divided such that its whole part has the given number of digits.
  let place := around.place
  ((around.divide (place - count)).nearestWhole? closed).map fun digits =>
    -- A carry into a new digit moves the decimal point.
    if digitCount digits > count then ⟨digits / 10, place + 1⟩ else ⟨digits, place⟩

end Surroundings

/-- The number of decimal digits that always suffices. -/
def maxDigits : Nat := 17

/-- The fewest decimal digits that round to a positive number, and of these the nearest ones. -/
def shortest (mantissa : Nat) (exponent : Int) : Decimal :=
  let around := Surroundings.ofFinite mantissa exponent
  -- Halfway between two numbers, the even mantissa wins, so its ends belong to it.
  let closed := mantissa % 2 = 0
  -- The first number of digits that succeeds is the least one.
  ((List.range maxDigits).findSome? fun count => around.digits? closed (count + 1)).getD
    ⟨mantissa, 0⟩

/-- Digits are written in positional form when the decimal point is not far from them. -/
def isPositional (place : Int) : Bool :=
  -- Up to three zeros behind the point, and up to sixteen digits in front of it.
  decide (-4 < place ∧ place ≤ 16)

/-- The text of an exponent: its sign and at least two digits. -/
def exponentText (exponent : Int) : String :=
  -- A second digit is put in front if there is only one.
  let digits := toString exponent.natAbs
  (if exponent < 0 then "-" else "+") ++ (if digits.length < 2 then "0" ++ digits else digits)

/-- Digits with a decimal point at the given place, or with an exponent
when the point is far away. -/
def decimalText (digits : List Char) (place : Int) : String :=
  let zeros (count : Int) := List.replicate count.toNat '0'
  if isPositional place then
    String.ofList (
      -- The number is below one.
      if place ≤ 0 then '0' :: '.' :: zeros (-place) ++ digits
      -- The number is whole, and shows that it is no integer by a zero behind the point.
      else if digits.length ≤ place then digits ++ zeros (place - digits.length) ++ ['.', '0']
      else digits.take place.toNat ++ '.' :: digits.drop place.toNat)
  else
    -- A single digit has no point.
    let mantissa := match digits with
      | first :: second :: rest => first :: '.' :: second :: rest
      | short => short
    String.ofList mantissa ++ "e" ++ exponentText (place - 1)

/-- The text of a number: the fewest digits that read back as the number. -/
def text : Double → String
  | .nan => "nan"
  | .infinite negative => if negative then "-inf" else "inf"
  | .finite negative mantissa exponent =>
    let sign := if negative then "-" else ""
    -- Zero keeps its sign.
    if mantissa = 0 then sign ++ "0.0"
    else
      let decimal := shortest mantissa exponent
      sign ++ decimalText (toString decimal.digits).toList decimal.place

end Overlap.Double
