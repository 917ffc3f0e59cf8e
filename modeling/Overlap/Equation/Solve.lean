import Overlap.Equation.Bezout
import Overlap.Equation.Division

/-! Linear equations in two integer unknowns: `a * x + b * y = c`. -/

namespace Overlap

/-- Parameters at which a rising line stays within two values, as a first and a last one; there are
none when the last one comes before the first. -/
def Line.window (line : Line) (low high : Int) : Except Fault (Int × Int) :=
  -- A line that falls or stands still has no first parameter.
  if line.slope ≤ 0 then .error (.breach (.slope line))
  else do
    -- The first parameter is rounded up and the last one down, so that both stay inside.
    let first ← ceilQuotient (low - line.constant) line.slope
    let last ← floorQuotient (high - line.constant) line.slope
    return (first, last)

/-- All solutions of an equation: the two unknowns run along lines with a shared parameter. -/
structure Solution where
  -- One parameter gives a value of each unknown.
  x : Line
  y : Line
deriving DecidableEq, Repr

/-- All solutions of `a * x + b * y = c`, or none when the common divisor of the coefficients
does not divide the right-hand side. The first line rises, and its constant is the least value
of `x` that is not negative. -/
def solve (a b c : Int) : Except Fault (Option Solution) :=
  -- An equation in a single unknown is not solved here.
  if a = 0 ∨ b = 0 then .error (.breach (.zeroCoefficient a b))
  else do
    let divisor := commonDivisor a b
    if (← floorRemainder c divisor.value) ≠ 0 then return none
    let scale ← floorQuotient c divisor.value
    -- The combination of the divisor, taken often enough, solves the equation.
    let x := divisor.left * scale
    let y := divisor.right * scale
    -- Going along the line trades multiples of one coefficient for multiples of the other.
    let rise ← floorQuotient (-b) divisor.value
    let run ← floorQuotient a divisor.value
    -- The rise is made positive, so the run takes the opposite sign with it.
    let (rise, run) := if rise < 0 then (-rise, -run) else (rise, run)
    -- Going back by whole rises leaves the least value that is not negative.
    let shift ← floorQuotient x rise
    return some ⟨⟨x - shift * rise, rise⟩, ⟨y - shift * run, run⟩⟩

end Overlap
