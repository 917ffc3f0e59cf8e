import Overlap.Number.Double
import Overlap.Text.Integer

/-! Decimal fractions and the words for numbers that are not finite. -/

namespace Overlap

/-- The exponent of a number in scientific form, behind its mark. -/
def exponent? (text : List Char) : Option Int :=
  -- The exponent may have a sign, but no underscores are left in it.
  let (negative, digits) := takeSign text
  if digits.isEmpty || !digits.all isDigit then none
  else
    let value : Int := digitsValue digits
    some (if negative then -value else value)

/-- Places of the decimal point outside of which every number is infinite or zero. -/
def decimalReach : Int := 400

/-- The number with the given digits, times a power of ten. -/
def scaledDigits (negative : Bool) (digits : List Char) (exponent : Int) : Double :=
  -- The number of digits tells the size of the number, once the zeros in front are gone.
  let digits := digits.dropWhile (· = '0')
  let place : Int := digits.length + exponent
  if digits.isEmpty ∨ place < -decimalReach then .zero negative
  else if place > decimalReach then .infinite negative
  else .ofDecimal negative (digitsValue digits) exponent

/-- A number without sign: digits with a decimal point somewhere, and an exponent behind them. -/
def unsignedReal? (negative : Bool) (text : List Char) : Option Double := do
  -- The first letter counts, so a second one ends up in the exponent and is refused there.
  let (mantissa, scientific) := text.span fun c => c != 'e' && c != 'E'
  let exponent ← match scientific with
    | [] => some 0
    | _ :: rest => exponent? rest
  -- Digits end at the point, or the number is over.
  let (whole, point) := mantissa.span isDigit
  let fraction ← match point with
    | [] => some []
    | '.' :: rest => if rest.all isDigit then some rest else none
    | _ => none
  -- A point alone is no number.
  if whole.isEmpty && fraction.isEmpty then none
  -- Every digit behind the point lowers the exponent by one.
  else return scaledDigits negative (whole ++ fraction) (exponent - fraction.length)

/-- The number that a text stands for, with blanks around it and underscores between digits; `inf`,
`infinity` and `nan` are numbers in any case of letters. -/
def real? (text : List Char) : Option Double := do
  let plain ← plainNumeral? text
  -- Underscores are dropped before the sign is taken, and none may stand next to it.
  let (negative, unsigned) := takeSign (← dropSeparators? plain)
  match String.ofList (unsigned.map Char.toLower) with
  -- Infinity has a sign, and what is no number has none.
  | "inf" | "infinity" => return .infinite negative
  | "nan" => return .nan
  | _ => unsignedReal? negative unsigned

end Overlap
