import Overlap.Proofs.Region.Reshape
import Overlap.Proofs.Relation.Intersect

/-! Regions of one object are compared by their bytes, or by tuples once both
have the shape of an array. -/

namespace Overlap.Region

/-- Sameness of objects does not depend on their order. -/
theorem sameObject_symm {left right : Option Identity} (same : SameObject left right) :
    SameObject right left := by
  -- Identities agree when their representatives are equal.
  revert same
  cases left <;> cases right <;> simp [SameObject, Identity.Same, eq_comm]

namespace Reshaped

variable {shaped array target : Region} {element low high : Int}

/-- A region and its shape have the same bytes. -/
theorem touches_iff (reshaped : Reshaped shaped array target element low high) {address : Int} :
    shaped.Touches address ↔ target.Touches address := by
  -- Both are the bytes between the bounds of the interval.
  have shape : shaped.Touches address ↔ low ≤ address ∧ address < high := by
    simp [Touches, reshaped.kind, reshaped.upper, reshaped.fills.covers]
  rw [shape, touches_flat_iff reshaped.targetKind reshaped.bounds]

/-- The elements of a shape can be compared with those of the array. -/
theorem comparable (reshaped : Reshaped shaped array target element low high)
    (valid : AllValid array.axes) (object : target.object ≠ none)
    (same : SameObject target.object array.object) : shaped.Comparable array where
  -- The shape was made from the array, so only the object is not settled by that.
  object := reshaped.object ▸ object
  same := reshaped.object ▸ same
  leftKind := reshaped.kind
  rightKind := reshaped.arrayKind
  leftValid := reshaped.fills.valid
  rightValid := valid
  element := reshaped.upper.trans reshaped.arrayUpper.symm
  sizes := reshaped.sizes

end Reshaped

/-- Comparability does not depend on the order of the regions. -/
theorem Comparable.symm {left right : Region} (comparable : left.Comparable right) :
    right.Comparable left where
  -- Every condition is turned around.
  object := object_ne_none_of_same comparable.object comparable.same
  same := sameObject_symm comparable.same
  leftKind := comparable.rightKind
  rightKind := comparable.leftKind
  leftValid := comparable.rightValid
  rightValid := comparable.leftValid
  element := comparable.element.symm
  sizes := comparable.sizes.symm

/-- How two regions of one object come to an answer: as intervals, as arrays, as an array and an
interval in its shape, or not precisely. -/
inductive Route (left right : Region) (budget : Int) (wanted : Wanted)
    (comparison : Comparison) : Prop where
  -- The kinds decide which of the two comparisons is made, and of which shapes.
  | bytes (leftKind : left.kind = .flat) (rightKind : right.kind = .flat)
      (related : left.relateBytes right wanted = comparison)
  | axes (leftKind : left.kind = .perAxis) (rightKind : right.kind = .perAxis)
      (related : left.relateAxes right budget wanted = .ok comparison)
  | leftShaped (shaped : Region) (element low high : Int)
      (reshaped : Reshaped shaped right left element low high)
      (related : shaped.relateAxes right budget wanted = .ok comparison)
  | rightShaped (shaped : Region) (element low high : Int)
      (reshaped : Reshaped shaped left right element low high)
      (related : left.relateAxes shaped budget wanted = .ok comparison)
  | imprecise (outcome : comparison.outcome = .imprecise)

/-- Every answer for two regions of one object was reached on one of the routes. -/
theorem route_of_intersect {left right : Region} {budget : Int} {wanted : Wanted}
    {comparison : Comparison} (same : SameObject left.object right.object)
    (leftValid : AllValid left.axes) (rightValid : AllValid right.axes)
    (answered : left.intersect right budget wanted = .ok comparison) :
    left.object ≠ none ∧ Route left right budget wanted comparison := by
  -- The kinds of the regions decide about the route.
  by_cases object : left.object = none
  · simp [intersect, object, throw, throwThe, MonadExceptOf.throw, Bind.bind, Except.bind]
      at answered
  · have other := object_ne_none_of_same object same
    refine ⟨object, ?_⟩
    simp only [intersect, object, other, same, or_self, not_true_eq_false, if_false] at answered
    -- Only an interval next to an array changes its shape, and only if the shape is found.
    cases leftKind : left.kind <;> cases rightKind : right.kind
    all_goals simp only [alignShapes, leftKind, rightKind] at answered
    case flat.flat => exact .bytes leftKind rightKind (Except.ok.inj answered)
    case perAxis.perAxis => exact .axes leftKind rightKind answered
    case flat.perAxis =>
      cases made : right.reshape left with
      | error obstacle =>
        simp only [made, Except.toOption, Option.getD_none, leftKind] at answered
        exact .imprecise (Except.ok.inj answered ▸ rfl)
      | ok shaped =>
        obtain ⟨element, low, high, reshaped⟩ := reshaped_of_reshape rightValid made
        simp only [made, Except.toOption, Option.getD_some, reshaped.kind] at answered
        exact .leftShaped shaped element low high reshaped answered
    case perAxis.flat =>
      cases made : left.reshape right with
      | error obstacle =>
        simp only [made, Except.toOption, Option.getD_none, rightKind] at answered
        exact .imprecise (Except.ok.inj answered ▸ rfl)
      | ok shaped =>
        obtain ⟨element, low, high, reshaped⟩ := reshaped_of_reshape leftValid made
        simp only [made, Except.toOption, Option.getD_some, reshaped.kind] at answered
        exact .rightShaped shaped element low high reshaped answered
    all_goals exact .imprecise (Except.ok.inj answered ▸ rfl)

end Overlap.Region
