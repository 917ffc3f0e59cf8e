import Overlap.Equation.Division
import Overlap.Number.Double
import Overlap.Storage

/-! The addresses of a region, listed in 64-bit words. -/

namespace Overlap

/-- A quotient rounded up. It is exact as long as both numbers are among the whole numbers that
double precision holds without gaps; otherwise it is rounded to double precision first, and may then
be infinite. A quotient that is not zero does not count as zero, however small it is. -/
def upperQuotient? (a b : Int) : Option Int :=
  -- Up to this size double precision has all whole numbers.
  if a.natAbs ≤ Nat.pow 2 Double.precision ∧ b.natAbs ≤ Nat.pow 2 Double.precision then
    some (-((-a).fdiv b))
  else
    -- The sign is settled in front, so that the rounding works on sizes.
    let negative := decide (a < 0) != decide (b < 0)
    match Double.ofQuotient negative a.natAbs b.natAbs with
    -- The mantissa was rounded to zero, and the true quotient need not be zero.
    | .finite _ 0 _ => some (if a = 0 ∨ negative then 0 else 1)
    | rounded => rounded.ceil?

/-- The number of steps from a start before a stop, as a word. -/
def stepCount (start stop step : Int) : Except Fault Int :=
  if step = 0 then .error .zeroDivisor
  else
    -- A step that is not zero gives a count, which may be negative: then there are no steps.
    match upperQuotient? (stop - start) step with
    | some count =>
      -- The count is a word; the one beyond the largest is wrapped to the smallest.
      if count.natAbs ≤ 0x8000000000000000 then .ok (Word.wrap count) else .error .tooMany
    | none => .error .tooMany

/-- Words from a start in steps until a stop. The first two of them have to fit; the
others follow by adding words. -/
def wordRange [Limits] (start stop step : Int) : Except Fault (List Int) := do
  let count ← stepCount start stop step
  -- Room for all words is asked for before any of them is built.
  checkWords count.toNat
  -- Only the first two words are converted, so only they are refused.
  if count ≥ 1 ∧ ¬ Word.Fits start then throw .wordOverflow
  if count ≥ 2 ∧ ¬ Word.Fits (start + step) then throw .wordOverflow
  -- The others come about by adding words, and adding wraps around.
  return (List.range count.toNat).map fun (steps : Nat) => Word.wrap (start + step * steps)

/-- Every number is smaller than the one behind it. -/
def isRising : List Int → Bool
  -- Neighbours that are equal break the order as well.
  | first :: second :: rest => first < second && isRising (second :: rest)
  | _ => true

/-- Drops every number that equals the one behind it. -/
def dropRepeats (values : List Int) : List Int :=
  -- The list is taken from its end, and of equal numbers the last one stays.
  values.foldr (fun value rest => if rest.head? = some value then rest else value :: rest) []

/-- The numbers of a list in rising order, each of them once. -/
def ascending (values : List Int) : List Int :=
  -- Lists that are in order already are not sorted again.
  if isRising values then values
  else dropRepeats (values.mergeSort fun left right => decide (left ≤ right))

/-- The indices of an axis as words. -/
def Axis.wordIndices [Limits] (axis : Axis) : Except Fault (List Int) :=
  -- The end of the range lies behind the last index.
  wordRange axis.start (axis.last + 1) axis.step

/-- Words taken by one step along each axis, for the axes from a given number on. The size of every
axis but the outermost has to be known. -/
def strides (region : Region) (number : Nat) : List Axis → Except Fault (List Int)
  -- The strides of the inner axes come first, so the innermost size that
  -- is missing is the one named.
  | _ :: next :: rest => do
    let inner ← strides region (number + 1) (next :: rest)
    if next.size ≤ 0 then throw (.unlisted (.axisSize (number + 1) region))
    if ¬ Word.Fits next.size then throw .wordOverflow
    -- The stride of an axis is the number of elements that one row of the axes inside it takes.
    return Word.wrap (inner.headD 1 * next.size) :: inner
  -- The innermost axis moves by single elements, and no axes have no strides.
  | axes => return axes.map fun _ => 1

/-- Sums of one index from every list, each index taken times the stride of its axis. -/
def combineOffsets : List (List Int) → List Int → List Int
  | indices :: rest, stride :: strides =>
    -- The inner axes vary fastest.
    let inner := combineOffsets rest strides
    indices.flatMap fun index => inner.map fun offset => Word.wrap (index * stride + offset)
  -- Without axes there is one choice, at the start.
  | _, _ => [0]

/-- Accepts lists of the given lengths when there is room for one word for each choice from them.
The choices are built up list by list, and an empty list takes the room of a single word. -/
def checkChoices [Limits] (choices : Nat) : List Nat → Except Fault Unit
  | [] => .ok ()
  | length :: rest => do
    -- An empty list leaves no choice, but the room is asked for all the same.
    checkWords (choices * max length 1)
    checkChoices (choices * max length 1) rest

/-- The most axes along which offsets are combined. -/
def maxAxes : Nat := 64

namespace Region

/-- Offsets of the elements of a region, counted in elements from the start of its object. -/
def elementOffsets [Limits] (region : Region) : Except Fault (List Int) := do
  -- A region without axes has no elements to count, whatever its kind.
  if region.kind ≠ .perAxis ∨ region.axes = [] then
    throw (.unlisted (.offsets region))
  -- Sizes are needed for the strides, and those are asked for before any index is listed.
  let strides ← strides region 0 region.axes
  let indices ← region.axes.mapM Axis.wordIndices
  -- More axes than these are refused once all of them are listed.
  if region.axes.length > maxAxes then throw .tooMany
  checkChoices 1 (indices.map List.length)
  -- Axes that are not in row order give offsets out of order, or the same ones again.
  return ascending (combineOffsets indices strides)

/-- Addresses of the bytes of a region. -/
def byteOffsets [Limits] (region : Region) : Except Fault (List Int) :=
  match region.kind with
  | .flat =>
    match region.bounds? with
    -- Bounds in the wrong order hold no bytes, and no bytes are listed.
    | some (low, high) => wordRange low (max low high) 1
    | none => .error (.unlisted (.openBounds region))
  | .perAxis =>
    match region.elementSize? with
    | some size => do
      -- A size that is not positive counts as unknown.
      if size ≤ 0 then throw (.unlisted (.elementSize region))
      let offsets ← region.elementOffsets
      -- The size has to be a word by itself, although only its products are used.
      if ¬ Word.Fits size then throw .wordOverflow
      let bytes ← wordRange 0 size 1
      checkChoices 1 [offsets.length, bytes.length]
      -- Bytes of neighbouring elements may come in any order when elements overlap.
      return ascending (offsets.flatMap fun offset =>
        bytes.map fun byte => Word.wrap (offset * size + byte))
    | none => .error (.unlisted (.elementSize region))
  | .whole => .error (.unlisted (.everything region))

end Region

end Overlap
