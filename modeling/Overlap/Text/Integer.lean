import Overlap.Text.Digit

/-! Decimal integers. -/

namespace Overlap

/-- The most digits that a number may be written with. -/
def maxNumeralDigits : Nat := 4300

/-- The least number that has too many digits. -/
def numeralBound : Nat :=
  -- The power is taken once, and every number is compared with it.
  Nat.pow 10 maxNumeralDigits

/-- A number can be written with as many digits as are allowed. -/
def Writable (value : Int) : Prop :=
  -- The sign does not count as a digit.
  value.natAbs < numeralBound

/-- Writability is settled by comparing with a power of ten. -/
instance (value : Int) : Decidable (Writable value) :=
  -- The comparison is between natural numbers.
  inferInstanceAs (Decidable (_ < _))

/-- The value of an ASCII digit. -/
def digitValue (c : Char) : Nat :=
  -- Other characters give some number, so they have to be excluded before.
  c.toNat - '0'.toNat

/-- The value of a run of ASCII digits. -/
def digitsValue (digits : List Char) : Nat :=
  -- The digits are taken from the front, and zeros there do not matter.
  digits.foldl (fun value c => 10 * value + digitValue c) 0

/-- The value of a run of ASCII digits, unless it is longer than allowed. -/
def boundedValue? (digits : List Char) : Option Nat :=
  -- Zeros in front count as digits.
  if digits.length ≤ maxNumeralDigits then some (digitsValue digits) else none

/-- An ASCII digit. -/
def isDigit (c : Char) : Bool :=
  -- Digits of other scripts are not among them.
  '0' ≤ c && c ≤ '9'

/-- A number without the underscores that separate its digits; each of
them stands between two digits. -/
def dropSeparators? : List Char → Option (List Char)
  | [] => some []
  | c :: '_' :: d :: rest =>
    -- The digit behind the underscore stays, as another one may follow it.
    if isDigit c && isDigit d then (dropSeparators? (d :: rest)).map (c :: ·) else none
  -- An underscore that is reached here has no digit on one of its sides.
  | c :: rest => if c = '_' then none else (dropSeparators? rest).map (c :: ·)

/-- A sign in front of a number, as whether the number is negative. -/
def takeSign : List Char → Bool × List Char
  | '-' :: rest => (true, rest)
  | '+' :: rest => (false, rest)
  -- No sign means a positive number.
  | rest => (false, rest)

/-- The integer that a text stands for: a sign and digits, with blanks around them and
underscores between digits. -/
def integer? (text : List Char) : Option Int := do
  -- The sign stands in front of everything but blanks.
  let (negative, unsigned) := takeSign (← plainNumeral? text)
  let digits ← dropSeparators? unsigned
  if digits.isEmpty || !digits.all isDigit then none
  else
    -- The digits are counted without underscores.
    let value ← boundedValue? digits
    return if negative then -value else value

end Overlap
