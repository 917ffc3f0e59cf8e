import Overlap.Region.Basic

/-! Byte intervals of an array, expressed axis by axis. -/

namespace Overlap

/-- Why a byte interval is not expressed axis by axis. -/
inductive Obstacle where
  /-- The two regions are not an array of known element size and a proper
  interval of its elements. -/
  | unsuited
  /-- An inner axis has no known size. -/
  | unknownSize (axis : Nat)
  /-- The interval ends behind the array. -/
  | beyond (bytes : Int)
  /-- Whole rows are covered, but not all of the rows of an inner axis. -/
  | partlyCovered (axis : Nat)
  /-- Parts of more than one row are covered. -/
  | severalRows (axis : Nat)
deriving DecidableEq, Repr

/-- The first and the last index that an interval reaches along one axis. -/
structure Extent where
  -- The axis itself supplies the number of its positions.
  first : Int
  last : Int
  axis : Axis
deriving DecidableEq, Repr

namespace Extent

/-- Every position of the axis is reached. -/
def Full (extent : Extent) : Prop :=
  -- A size that is not known is never full, as the last index of an interval is not negative.
  extent.first = 0 ∧ extent.last + 1 = extent.axis.size

/-- Fullness is settled by comparing the ends. -/
instance (extent : Extent) : Decidable extent.Full :=
  -- The two equations are between integers.
  inferInstanceAs (Decidable (_ ∧ _))

/-- A single position of the axis is reached. -/
def Single (extent : Extent) : Prop :=
  -- The position may be any, and the size of the axis does not matter.
  extent.first = extent.last

/-- A single position shows in equal ends. -/
instance (extent : Extent) : Decidable extent.Single :=
  -- The ends are integers.
  inferInstanceAs (Decidable (_ = _))

/-- The reached positions as an axis of their own. -/
def toAxis (extent : Extent) : Axis :=
  -- Neighbouring positions are one step apart, whatever the steps of the array were.
  ⟨extent.first, 1, extent.last - extent.first + 1, extent.axis.size⟩

/-- The number of the first extent that fails a test, where the innermost one is not tested. -/
def firstFailing (passes : Extent → Bool) (number : Nat) : List Extent → Option Nat
  -- Extents are numbered from the outside in, like axes.
  | extent :: next :: rest =>
    if passes extent then firstFailing passes (number + 1) (next :: rest) else some number
  | _ => none

/-- Extents describe an interval of bytes when all rows below the outermost axis are covered, or
when a single row is reached. -/
def checkRows (extents : List Extent) : Except Obstacle Unit :=
  -- The innermost axis decides which of the two shapes is looked for.
  let full := match extents.getLast? with
    | some innermost => decide innermost.Full
    | none => false
  if full then
    -- The outermost axis need not be full, so the numbers start behind it.
    match firstFailing (fun extent => decide extent.Full) 1 extents.tail with
    | some axis => .error (.partlyCovered axis)
    | none => .ok ()
  else
    -- All axes but the innermost one have to stay at a single position.
    match firstFailing (fun extent => decide extent.Single) 0 extents with
    | some axis => .error (.severalRows axis)
    | none => .ok ()

end Extent

namespace Region

/-- Bytes of an array with the given axes and element size. -/
def span (element : Int) : List Axis → Int
  -- Without axes there is one element.
  | [] => element
  -- An axis without a known size makes the product zero, which stands for unknown.
  | axis :: inner => axis.size * span element inner

/-- The index along one axis at which a byte offset falls; the axis covers `span` bytes, and one
step along it takes `unit` of them. -/
def axisIndex (offset span unit : Int) : Int :=
  -- Without a known span nothing wraps around.
  if span > 0 then (offset % span).fdiv unit else offset.fdiv unit

/-- What the bytes from one offset to another reach along each axis. -/
def extents (element low last : Int) : List Axis → List Extent
  | [] => []
  | axis :: inner =>
    -- One step along this axis passes over all axes inside it.
    let unit := span element inner
    let covered := axis.size * unit
    ⟨axisIndex low covered unit, axisIndex last covered unit, axis⟩ ::
      extents element low last inner

/-- The number of the innermost axis without a known size. -/
def lastUnsized (number : Nat) : List Axis → Option Nat
  | [] => none
  | axis :: inner =>
    -- An axis further inside takes precedence.
    (lastUnsized (number + 1) inner).or (if axis.size = 0 then some number else none)

/-- The byte interval `target` expressed by the axes of `array`. Only two shapes are recovered: rows
that are covered completely, and a part of a single row. -/
def reshape (array target : Region) : Except Obstacle Region :=
  -- The array has to be known by its elements, and the interval by both of its bounds.
  match array.kind, target.kind, target.bounds?, array.elementSize? with
  | .perAxis, .flat, some (low, high), some element =>
    -- The interval holds whole elements, at least one of them, from the start of the object on.
    if high ≤ low ∨ low < 0 ∨ array.axes = [] ∨ element ≤ 0 ∨ low % element ≠ 0 ∨
        high % element ≠ 0 then
      .error .unsuited
    else
      -- The size of the outermost axis does not matter for the place of a byte.
      match lastUnsized 1 array.axes.tail with
      | some axis => .error (.unknownSize axis)
      | none =>
        let total := span element array.axes
        -- Where the outermost size is not known, nothing can lie beyond it.
        if total ≠ 0 ∧ total < high then .error (.beyond total)
        else
          -- The last byte counts, and not the end behind it.
          let reached := extents element low (high - 1) array.axes
          (Extent.checkRows reached).map fun _ =>
            -- The object is that of the interval, and the rest comes from the array.
            { object := target.object
              kind := .perAxis
              lower := array.lower
              upper := some element
              axes := reached.map Extent.toAxis }
  | _, _, _, _ => .error .unsuited

end Region

end Overlap
