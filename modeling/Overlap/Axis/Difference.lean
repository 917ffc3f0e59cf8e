import Overlap.Axis.Check

/-! Indices of an axis that remain when a coarser axis inside it is taken away. -/

namespace Overlap.Axis

/-- Accepts two axes when the steps and the ends of the first one are
steps and places of the second. -/
def checkPart (part whole : Axis) : Except Fault Unit := do
  -- The steps are compared first, because the places only make sense for steps that divide.
  if (← floorRemainder part.step whole.step) ≠ 0 then
    throw (.breach (.strideMismatch part whole))
  -- Both ends lie inside, and the start lies on an index of the whole axis.
  if part.start < whole.start ∨ whole.last < part.last ∨
      (← floorRemainder (part.start - whole.start) whole.step) ≠ 0 then
    throw (.breach (.notPart part whole))

/-- The number of positions of the finer axis that lie between two neighbours of the coarser one. -/
def phases (part whole : Axis) : Int :=
  -- A single index has no neighbour.
  if part.count > 1 then part.step.fdiv whole.step - 1 else 0

/-- The indices of the finer axis that keep a fixed distance from the indices of the
coarser one. The progression reaches one index further at either end when that index
is still in the finer axis. -/
def phase (part whole : Axis) (lead trail number : Int) : Axis :=
  -- The phases are numbered upwards from the part, so the highest ones
  -- continue in front of it first.
  let before := if phases part whole - number ≤ lead then 1 else 0
  -- Behind the part, the lowest ones do.
  let after := if number < trail then 1 else 0
  { start := part.start + whole.step * (number + 1) - part.step * before
    step := part.step
    count := part.count - 1 + before + after
    size := whole.size }

/-- The indices of an axis outside a part of it, as axes that do not overlap: what comes before the
part, the skipped phases in order, and what comes after. There is no answer when more phases are
skipped than the budget allows. -/
def difference (whole part : Axis) (budget : Int) : Except Fault (Option (List Axis)) := do
  -- Nothing is divided below that this check has not accepted.
  checkPart part whole
  let skipped := phases part whole
  -- A negative budget is exceeded even where nothing is skipped.
  if skipped > budget then return none
  let before ← floorQuotient (part.start - whole.start) whole.step
  let after ← floorQuotient (whole.last - part.last) whole.step
  -- Neighbours of the part that continue a skipped phase belong to that phase.
  let lead := min before skipped
  let trail := min after skipped
  let front := if before > lead then [⟨whole.start, whole.step, before - lead, whole.size⟩] else []
  let between :=
    (List.range skipped.toNat).map fun (number : Nat) => phase part whole lead trail number
  -- What follows the last continued phase starts behind the indices that these have used up.
  let back := if after > trail then
      [⟨part.last + whole.step * (trail + 1), whole.step, after - trail, whole.size⟩]
    else []
  return some (front ++ between ++ back)

end Overlap.Axis
