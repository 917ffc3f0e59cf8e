import Overlap.Relation.Account

/-! Operations that tell what they do. Telling fails on a number that has too many digits to be
written, and then the operation gives no answer. -/

namespace Overlap

/-- Tells events in order; the steps of a trace only if one is asked for. -/
def tell (traced : Bool) (events : List Event) : Except Fault (List Event) := do
  -- What is not heard is not written, so its numbers may be of any length.
  let heard := events.filter fun event => traced || !event.isTrace
  checkNumbers (heard.flatMap Event.numbers)
  return heard

/-- Solves an equation and tells the solutions. -/
def solveTold (a b c : Int) : Except Fault (Option Solution) := do
  -- A fault of the equation comes before anything is told.
  let solution ← withTold (solve a b c)
  let _ ← tell false [.equation a b c]
  return solution

/-- The indices common to two axes, where the equation that leads to them is told. -/
def Axis.meetTold (left right : Axis) : Except Fault (Option Axis) := do
  -- Axes that lie apart have no equation to tell.
  if ¬ left.Apart right then
    let _ ← solveTold left.step (-right.step) (right.start - left.start)
  -- The common part follows from the same solutions.
  withTold (left.meet right)

/-- What a part leaves of an axis, where it is told when more phases are
skipped than the budget allows. -/
def Axis.differenceTold (whole part : Axis) (budget : Int) : Except Fault (Option (List Axis)) := do
  -- A part that does not fit is refused before the budget is told.
  let pieces ← withTold (whole.difference part budget)
  let _ ← tell false (tellBudget whole part budget true)
  return pieces

namespace Region

/-- A byte interval expressed by the axes of an array, or nothing, where the reason is told. -/
def reshapeTold (array target : Region) : Except Fault (Option Region) := do
  match array.reshape target with
  | .error .unsuited => return none
  | result =>
    -- The reason or the result is told, and both may be too long.
    let _ ← tell false [.reshaped array target result]
    return result.toOption

/-- The bytes common to two intervals; what is left of either is put behind the lists that are kept.
That the intervals are apart, or that it stays open which bytes they share, is told beforehand. -/
def meetBytesInto (left right : Region) (kept : Kept) : Except Fault IntervalMeet × Kept :=
  match tell false (tellIntervals left right) with
  -- The lists are written last, so a text that cannot be told leaves them as they are.
  | .error fault => (.error fault, kept)
  | .ok _ =>
    let meet := left.meetBytes right
    (.ok meet, kept.add (meet.leftover left) (meet.leftover right))

/-- Relates two regions and tells the steps, those of the trace if it is asked for. -/
def intersectTold (left right : Region) (budget : Int) (wanted : Wanted) (traced : Bool) :
    Except Fault (Comparison × List Event) := do
  -- Only regions of one object are brought into one shape, and that is told
  -- before any axis is checked.
  if left.object ≠ none ∧ SameObject left.object right.object then
    let _ ← tell traced (tellShapes left right)
  let comparison ← withTold (left.intersect right budget wanted)
  let events ← tell traced (account left right budget wanted comparison)
  return (comparison, events)

/-- Relates two regions and puts the leftover parts behind the lists that are kept. The
lists are written before an exact answer is summed up, so a fault leaves them as they are
unless the summary is at fault. -/
def intersectInto (left right : Region) (budget : Int) (kept : Kept) (traced : Bool := false) :
    Except Fault (Comparison × List Event) × Kept :=
  let told := left.intersectTold right budget kept.wanted traced
  match left.intersect right budget kept.wanted,
    tell traced (tellSteps left right budget kept.wanted) with
  | .ok comparison, .ok _ => (told, kept.add comparison.left comparison.right)
  | _, _ => (told, kept)

/-- The written form of a region, unless it holds a number that is too long. -/
def textTold (region : Region) : Except Fault String :=
  -- The text is made of the numbers that are checked, and of the name.
  written region.numbers region.text

end Region

/-- The numbers in the text of an outcome. -/
def Outcome.numbers (outcome : Outcome) : List Int :=
  -- Without an exact relation the region is not part of the text.
  outcome.shared?.toList.flatMap Region.numbers

/-- The text of an outcome, unless it holds a number that is too long. -/
def Outcome.textTold (outcome : Outcome) : Except Fault String :=
  -- The relation is a fixed word, so only the region matters.
  written outcome.numbers outcome.text

end Overlap
