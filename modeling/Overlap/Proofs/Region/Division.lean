import Overlap.Proofs.Equation.Solve
import Overlap.Proofs.Region.Reshape
import Overlap.Relation.Intersect

/-! No divisor is zero on the way from a byte interval to the shape of an array,
whatever the sizes of its axes. -/

namespace Overlap.Region

/-- The index along one axis at which a byte offset falls, where a zero divisor is a fault. -/
def axisIndexChecked (offset span unit : Int) : Except Fault Int := do
  -- As in the unchecked form, nothing wraps around without a known span.
  if span > 0 then
    let place ← floorRemainder offset span
    floorQuotient place unit
  else floorQuotient offset unit

/-- What the bytes from one offset to another reach along each axis,
where a zero divisor is a fault. -/
def extentsChecked (element low last : Int) : List Axis → Except Fault (List Extent)
  | [] => .ok []
  | axis :: inner => do
    -- The unit is what every index is divided by.
    let unit := span element inner
    let covered := axis.size * unit
    let first ← axisIndexChecked low covered unit
    let final ← axisIndexChecked last covered unit
    let others ← extentsChecked element low last inner
    return ⟨first, final, axis⟩ :: others

/-- The byte interval `target` expressed by the axes of `array`, where a zero divisor is a fault. -/
def reshapeChecked (array target : Region) : Except Fault (Except Obstacle Region) :=
  match array.kind, target.kind, target.bounds?, array.elementSize? with
  | .perAxis, .flat, some (low, high), some element =>
    -- The bounds are divided by the element size only once that is known to be positive.
    if high ≤ low ∨ low < 0 ∨ array.axes = [] ∨ element ≤ 0 then .ok (.error .unsuited)
    else do
      let lowRest ← floorRemainder low element
      let highRest ← floorRemainder high element
      if lowRest ≠ 0 ∨ highRest ≠ 0 then return .error .unsuited
      match lastUnsized 1 array.axes.tail with
      | some axis => return .error (.unknownSize axis)
      | none =>
        -- A total of zero belongs to an array whose outermost size is unknown.
        let total := span element array.axes
        if total ≠ 0 ∧ total < high then return .error (.beyond total)
        let reached ← extentsChecked element low (high - 1) array.axes
        return (Extent.checkRows reached).map fun _ =>
          { object := target.object
            kind := .perAxis
            lower := array.lower
            upper := some element
            axes := reached.map Extent.toAxis }
  | _, _, _, _ => .ok (.error .unsuited)

/-- Brings a byte interval into the shape of the array that it is compared with,
where a zero divisor is a fault. -/
def alignShapesChecked (left right : Region) : Except Fault (Region × Region) :=
  match left.kind, right.kind with
  | .flat, .perAxis => do
    -- Only these two pairs of kinds are brought into one shape.
    let shape ← right.reshapeChecked left
    return (shape.toOption.getD left, right)
  | .perAxis, .flat => do
    let shape ← left.reshapeChecked right
    return (left, shape.toOption.getD right)
  | _, _ => .ok (left, right)

/-- An index is found along every axis whose step takes some bytes. -/
theorem axisIndexChecked_eq (offset span : Int) {unit : Int} (nonzero : unit ≠ 0) :
    axisIndexChecked offset span unit = .ok (axisIndex offset span unit) := by
  unfold axisIndexChecked axisIndex
  split
  · -- The span is positive, so the remainder is the one that is never negative.
    rename_i known
    simp [floorRemainder_of_pos offset known, floorQuotient, nonzero, Bind.bind, Except.bind]
  · simp [floorQuotient, nonzero]

/-- An array with a known number of positions along every axis takes
some bytes, up to their sign. -/
theorem span_ne_zero {element : Int} (nonzero : element ≠ 0) {axes : List Axis}
    (known : ∀ axis ∈ axes, axis.size ≠ 0) : span element axes ≠ 0 := by
  -- The bytes are a product of the element size and all sizes.
  induction axes with
  | nil => exact nonzero
  | cons axis inner ih =>
    obtain ⟨first, others⟩ := List.forall_mem_cons.mp known
    exact Int.mul_ne_zero first (ih others)

/-- Extents are found when all inner axes have a known number of positions, be it negative. -/
theorem extentsChecked_eq {element : Int} (nonzero : element ≠ 0) (low last : Int)
    {axes : List Axis} (known : ∀ axis ∈ axes.tail, axis.size ≠ 0) :
    extentsChecked element low last axes = .ok (extents element low last axes) := by
  -- The divisor along one axis is the number of bytes of all axes further in.
  induction axes with
  | nil => rfl
  | cons axis inner ih =>
    have unit : span element inner ≠ 0 := span_ne_zero nonzero known
    have rest := ih fun other member => known other (List.mem_of_mem_tail member)
    simp [extentsChecked, extents, axisIndexChecked_eq _ _ unit, rest, Bind.bind,
      Except.bind, Pure.pure, Except.pure]

/-- Where no axis is found without a size, no size is zero. -/
theorem size_ne_zero_of_lastUnsized {number : Nat} {axes : List Axis}
    (none : lastUnsized number axes = none) :
    ∀ axis ∈ axes, axis.size ≠ 0 := by
  -- An axis without a size would have been named.
  induction axes generalizing number with
  | nil => simp
  | cons axis inner ih =>
    rw [lastUnsized, Option.or_eq_none_iff] at none
    exact List.forall_mem_cons.mpr ⟨by simpa using none.2, ih none.1⟩

/-- No divisor is zero when a byte interval is expressed by the axes of any array. -/
theorem reshapeChecked_eq (array target : Region) :
    array.reshapeChecked target = .ok (array.reshape target) := by
  -- Only an interval with both bounds next to an array with a known element
  -- size leads to a division.
  unfold reshapeChecked reshape
  cases arrayKind : array.kind <;> cases targetKind : target.kind
  case perAxis.flat =>
    cases bounds : target.bounds? with
    | none => rfl
    | some pair =>
      cases size : array.elementSize? with
      | none => rfl
      | some element =>
        obtain ⟨low, high⟩ := pair
        dsimp only
        by_cases unsuited : high ≤ low ∨ low < 0 ∨ array.axes = [] ∨ element ≤ 0
        · -- Nothing has been divided yet.
          rw [if_pos unsuited, if_pos (by tauto)]
        have positive : 0 < element := by
          simp only [not_or, not_le] at unsuited
          exact unsuited.2.2.2
        rw [if_neg unsuited]
        simp only [floorRemainder_of_pos _ positive, Bind.bind, Except.bind, Pure.pure, Except.pure]
        by_cases uneven : low % element ≠ 0 ∨ high % element ≠ 0
        · rw [if_pos uneven, if_pos (by tauto)]
        have suited : ¬ (high ≤ low ∨ low < 0 ∨ array.axes = [] ∨ element ≤ 0 ∨ low % element ≠ 0 ∨
            high % element ≠ 0) := by
          tauto
        rw [if_neg uneven, if_neg suited]
        cases unsized : lastUnsized 1 array.axes.tail with
        | some axis => rfl
        | none =>
          -- From here on the divisors are the bytes of inner axes, and their sizes are known.
          have reached := extentsChecked_eq (Int.ne_of_gt positive) low (high - 1)
            (size_ne_zero_of_lastUnsized unsized)
          simp only [reached]
          split <;> rfl
  all_goals rfl

/-- No divisor is zero when two regions are brought into one shape. -/
theorem alignShapesChecked_eq (left right : Region) :
    alignShapesChecked left right = .ok (alignShapes left right) := by
  unfold alignShapesChecked alignShapes
  -- Only an interval next to an array is reshaped.
  split <;> simp_all [reshapeChecked_eq, Bind.bind, Except.bind, Pure.pure, Except.pure]

end Overlap.Region
