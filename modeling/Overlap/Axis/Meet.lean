import Overlap.Axis.Check
import Overlap.Equation.Solve

/-! Indices that two axes have in common. -/

namespace Overlap.Axis

/-- One of two axes ends before the other one starts. -/
def Apart (left right : Axis) : Prop :=
  -- For well-formed axes this is a matter of the ends alone.
  left.last < right.start ∨ right.last < left.start

/-- Apartness is settled by comparing the ends. -/
instance (left right : Axis) : Decidable (left.Apart right) :=
  -- The two comparisons are between integers.
  inferInstanceAs (Decidable (_ ∨ _))

/-- The indices common to two axes, again as an axis, or nothing if they share none. They are
reached from both starts after `x` and `y` steps with `left.step * x - right.step * y` equal to the
distance between the starts, and both numbers of steps stay below the counts. -/
def meet (left right : Axis) : Except Fault (Option Axis) :=
  -- Axes that lie apart are never compared through an equation.
  if left.Apart right then .ok none
  else do
    match ← solve left.step (-right.step) (right.start - left.start) with
    | none => return none
    | some solution =>
      -- The window of each line holds the parameters for which the number
      -- of steps is within its count.
      let (leftFirst, leftLast) ← solution.x.window 0 (left.count - 1)
      let (rightFirst, rightLast) ← solution.y.window 0 (right.count - 1)
      let first := max leftFirst rightFirst
      let last := min leftLast rightLast
      -- The solutions within both counts are those of one run of parameters, which may be empty.
      if last < first then return none
      else
        -- The start and the step are counted on the left axis, and its size is kept.
        let start := left.start + left.step * solution.x.valueAt first
        let step := left.step * solution.x.slope
        return some (← check ⟨start, step, last - first + 1, left.size⟩)

end Overlap.Axis
