import Overlap.Equation.Division
import Overlap.Storage

/-! Checks on a single axis, and the indices that it runs through. -/

namespace Overlap.Axis

/-- Accepts a well-formed axis, and names the first field that is out of order otherwise. -/
def check (axis : Axis) : Except Fault Axis :=
  -- An axis may have several faults, and the order decides which of them is named.
  if axis.start < 0 then .error (.breach (.start axis))
  else if axis.step ≤ 0 then .error (.breach (.step axis))
  else if axis.count ≤ 0 then .error (.breach (.count axis))
  else if axis.size < 0 then .error (.breach (.size axis))
  -- A size of zero is no bound at all.
  else if axis.size ≠ 0 ∧ axis.size ≤ axis.last then .error (.breach (.bounds axis))
  else .ok axis

/-- Tells whether an index lies between the ends of an axis, a whole
number of steps from its start. -/
def contains (axis : Axis) (index : Int) : Except Fault Bool :=
  -- Outside the ends the step is never divided by, so a step of zero does no harm there.
  if axis.start ≤ index ∧ index ≤ axis.last then
    (floorRemainder (index - axis.start) axis.step).map (· == 0)
  else .ok false

/-- The largest length that fits a machine word. -/
def maxLength : Int := 0x7fffffffffffffff

/-- The number of indices as a length, which is neither negative nor too large for a word. -/
def length (axis : Axis) : Except Fault Int :=
  -- Only the count decides, whatever the other fields hold.
  if axis.count < 0 then .error .negativeLength
  else if axis.count > maxLength then .error .wordOverflow
  else .ok axis.count

/-- The indices from the start in steps, up to the last one, or downwards for a negative step.
Listing them asks for their number first. -/
def indices [Limits] (axis : Axis) : Except Fault (List Int) :=
  -- A range without a step is refused before its length is asked for.
  if axis.step = 0 then .error .zeroStep
  else do
    let length ← axis.length
    checkBytes (wordBytes * length.toNat)
    -- The half-open range ends one past the last index, whichever way the steps go.
    let span := if axis.step > 0 then axis.last + 1 - axis.start else axis.start - (axis.last + 1)
    let stride := axis.step.natAbs
    let count := (span.toNat + (stride - 1)) / stride
    return (List.range count).map fun (steps : Nat) => axis.start + axis.step * steps

end Overlap.Axis
