/-! An axis is a progression of array indices, together with the text that describes it. -/

namespace Overlap

/-- Indices `start`, `start + step`, and so on, `count` of them, along an array axis of `size`
positions. A size of zero says that the number of positions is not known. -/
structure Axis where
  start : Int
  step : Int
  count : Int
  size : Int := 0
deriving DecidableEq, Repr

namespace Axis

/-- The last index of a progression. -/
def last (axis : Axis) : Int :=
  -- The first index is reached after no step, so the last one takes one step less than the count.
  axis.start + axis.step * (axis.count - 1)

/-- An index belongs to an axis when it is reached after a whole number
of steps within the count. -/
instance : Membership Int Axis where
  mem axis index :=
    -- The steps are counted from zero, so that the start itself belongs to an axis with any index.
    ∃ steps : Int, 0 ≤ steps ∧ steps < axis.count ∧ index = axis.start + axis.step * steps

/-- A well-formed axis climbs through at least one index, all of them inside the array axis. -/
def Valid (axis : Axis) : Prop :=
  -- The start, the step, the count and the size come first, as each makes sense without the others.
  0 ≤ axis.start ∧ 0 < axis.step ∧ 0 < axis.count ∧ 0 ≤ axis.size ∧
    -- The last index has a bound only where the number of positions is known.
    (axis.size = 0 ∨ axis.last < axis.size)

/-- Well-formedness is settled by comparing the fields. -/
instance (axis : Axis) : Decidable axis.Valid :=
  -- Both the conjunction and the disjunction in it are between comparisons of integers.
  inferInstanceAs (Decidable (_ ∧ _))

/-- The written form of an axis, which leaves out a step of one. -/
def text (axis : Axis) : String :=
  -- The other fields are always written, also a size that is not known.
  let step := if axis.step = 1 then "" else s!" step {axis.step}"
  s!"{axis.start}{step} count {axis.count} of {axis.size}"

/-- The numbers of an axis. -/
def fields (axis : Axis) : List Int :=
  -- The order is that of the written form.
  [axis.start, axis.step, axis.count, axis.size]

/-- The record form of an axis, with every field named. -/
def record (axis : Axis) : String :=
  -- Unlike in the written form, no field is left out here.
  s!"Dimension(start={axis.start}, step={axis.step}, trip_count={axis.count}, dim_size={axis.size})"

end Axis

end Overlap
