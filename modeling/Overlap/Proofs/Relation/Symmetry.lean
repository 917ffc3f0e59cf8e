import Overlap.Proofs.Axis.Canonical
import Overlap.Proofs.Relation.Refusals

/-! A comparison has the same answer in either order, with the sides of the answer exchanged. -/

namespace Overlap

/-- The same wish with the sides exchanged. -/
def Wanted.swap (wanted : Wanted) : Wanted :=
  -- The sides change places.
  ⟨wanted.right, wanted.left⟩

/-- The common tuples of two lists of axes do not depend on their order. -/
theorem MeetAll.symm {commons lefts rights : List Axis} (all : MeetAll commons lefts rights) :
    MeetAll commons rights lefts where
  -- Joining steps and sharing tuples does not depend on the order.
  left := all.right
  right := all.left
  steps := by
    rw [all.steps, jointSteps, jointSteps, List.zipWith_comm]
    simp only [Int.lcm_comm]
  mem tuple := (all.mem tuple).trans and_comm

/-- Lists of well-formed axes are found to lie to each other in the same way in either order. -/
theorem meetAxes_comm {lefts rights : List Axis} (leftValid : AllValid lefts)
    (rightValid : AllValid rights) (number : Nat) :
    meetAxes number lefts rights = meetAxes number rights lefts := by
  -- Axis by axis, sizes and common indices are compared.
  induction lefts generalizing rights number with
  | nil => cases rights <;> rfl
  | cons left lefts ih =>
    cases rights with
    | nil => rfl
    | cons right rights =>
      obtain ⟨leftFirst, leftRest⟩ := allValid_cons.mp leftValid
      obtain ⟨rightFirst, rightRest⟩ := allValid_cons.mp rightValid
      by_cases size : left.size = right.size
      · simp only [meetAxes, size, Axis.meet_comm leftFirst rightFirst size, ih leftRest rightRest]
      · simp [meetAxes, size, Ne.symm size, Pure.pure, Except.pure]

namespace Region

/-- A region is plain if it has nothing that its kind does not use: an interval has no axes,
and an array no lower bound. -/
structure Plain (region : Region) : Prop where
  -- Fields that the kind does not use are empty.
  axes : region.kind = .flat → region.axes = []
  lower : region.kind = .perAxis → region.lower = none

end Region

/-- Two answers are the same with their sides exchanged: relation and region agree, and what is left
of a side is the same list. -/
structure Comparison.Mirrors (comparison other : Comparison) : Prop where
  -- The outcomes agree, with regions that are alike, and the leftover parts change sides.
  relation : comparison.outcome.relation = other.outcome.relation
  region : Option.Rel Region.Alike comparison.outcome.region other.outcome.region
  left : comparison.left = other.right
  right : comparison.right = other.left

namespace Comparison

/-- An answer without regions of an object is its own mirror image. -/
theorem mirrors_disjoint : Mirrors { outcome := .disjoint } { outcome := .disjoint } :=
  -- Nothing is compared but the word.
  ⟨rfl, .none, rfl, rfl⟩

/-- An unknown region looks the same from both sides. -/
theorem mirrors_imprecise : Mirrors { outcome := .imprecise } { outcome := .imprecise } :=
  -- The region is the same on both sides.
  ⟨rfl, .some ⟨trivial, rfl, rfl, rfl, rfl⟩, rfl, rfl⟩

/-- Exact answers with the same region and the same parts mirror each other,
whatever is wanted of the parts. -/
theorem mirrors_exact {common other : Region} (alike : common.Alike other)
    (left right : List Region) (wanted : Wanted) :
    Mirrors (Comparison.only ⟨.exact common, left, right⟩ wanted)
      (Comparison.only ⟨.exact other, right, left⟩ wanted.swap) :=
  -- The parts are those of the same sides, under their new names.
  ⟨rfl, .some alike, rfl, rfl⟩

end Comparison

namespace Region

/-- Shapes are brought together in the same way in either order. -/
theorem alignShapes_swap (left right : Region) :
    alignShapes right left = (alignShapes left right).swap := by
  -- The array is taken from whichever side has it.
  unfold alignShapes
  cases left.kind <;> cases right.kind <;> rfl

/-- Arrays with well-formed axes have the same answer in either order. -/
theorem relateAxes_mirrors {left right : Region} (leftKind : left.kind = .perAxis)
    (rightKind : right.kind = .perAxis) (leftValid : AllValid left.axes)
    (rightValid : AllValid right.axes) (same : SameObject left.object right.object)
    (lower : left.lower = right.lower) (budget : Int) (wanted : Wanted) :
    ∃ comparison other, left.relateAxes right budget wanted = .ok comparison ∧
      right.relateAxes left budget wanted.swap = .ok other ∧ comparison.Mirrors other := by
  -- Every test on the way has the same result in both orders.
  by_cases shape : left.axes.length ≠ right.axes.length ∨ left.upper ≠ right.upper
  · exact ⟨_, _, relateAxes_of_shape leftValid rightValid shape budget wanted,
      relateAxes_of_shape rightValid leftValid (shape.imp Ne.symm Ne.symm) budget wanted.swap,
      Comparison.mirrors_imprecise⟩
  have shapeTurned : ¬ (right.axes.length ≠ left.axes.length ∨ right.upper ≠ left.upper) :=
    fun differ => shape (differ.imp Ne.symm Ne.symm)
  have agree := shape
  simp only [not_or, ne_eq, not_not] at agree
  by_cases equal : left.lower = right.lower ∧ left.axes = right.axes
  · refine ⟨_, _, relateAxes_of_equal leftValid rightValid shape equal budget wanted,
      relateAxes_of_equal rightValid leftValid shapeTurned (equal.imp Eq.symm Eq.symm) budget
        wanted.swap, ?_⟩
    exact ⟨rfl, .some ⟨same, leftKind.trans rightKind.symm, lower, agree.2, equal.2⟩, rfl, rfl⟩
  -- How the axes lie to each other does not depend on the order, and each
  -- side takes its rest along.
  have unequal : ¬ (right.lower = left.lower ∧ right.axes = left.axes) :=
    fun both => equal (both.imp Eq.symm Eq.symm)
  obtain ⟨met, found, parts⟩ := meetAxes_found leftValid rightValid agree.1 0
  have foundTurned := (meetAxes_comm rightValid leftValid 0).trans found
  rw [relateAxes_eq_settle leftValid rightValid shape equal found,
    relateAxes_eq_settle rightValid leftValid shapeTurned unequal foundTurned]
  cases met with
  | mismatch axis => exact ⟨_, _, rfl, rfl, Comparison.mirrors_imprecise⟩
  | apart axis => exact ⟨_, _, rfl, rfl, Comparison.mirrors_disjoint⟩
  | shared commons =>
    -- What is left of a side depends on that side and the common axes only.
    have all := parts commons rfl
    obtain ⟨leftRest, rightRest, leftMade, rightMade, -, -, answer⟩ :=
      settle_shared leftKind rightKind all budget
    obtain ⟨first, second, firstMade, secondMade, -, -, turnedAnswer⟩ :=
      settle_shared rightKind leftKind all.symm budget
    cases leftMade.symm.trans secondMade
    cases rightMade.symm.trans firstMade
    refine ⟨_, _, answer wanted, turnedAnswer wanted.swap, Comparison.mirrors_exact ?_ _ _ wanted⟩
    exact ⟨same, rfl, lower, agree.2, rfl⟩

/-- What lies outside a part depends on the bounds of the part only. -/
theorem outside_congr {common other : Region} (alike : common.Alike other) (region : Region) :
    region.outside common = region.outside other := by
  -- Only the bounds of the common part are used.
  obtain ⟨-, -, lower, upper, -⟩ := alike
  simp only [outside, bounds?, lower, upper]

/-- With an open bound, intervals of one object are apart if one of them ends
before the other one starts. -/
theorem meetBytes_of_open {left right : Region} (same : SameObject left.object right.object)
    (missing : left.bounds? = none ∨ right.bounds? = none) :
    left.meetBytes right =
      if EndsBefore left.upper right.lower ∨ EndsBefore right.upper left.lower then .apart
        else .undecided := by
  -- Intervals are intersected only if all four bounds are given.
  simp only [meetBytes, same, not_true_eq_false, if_false]
  rcases missing with missing | missing
  · rw [missing]
  · rw [missing]
    cases left.bounds? <;> rfl

/-- Plain intervals of one object meet in the same way in either order. -/
theorem meetBytes_swap {left right : Region} (leftKind : left.kind = .flat)
    (rightKind : right.kind = .flat) (leftPlain : left.Plain) (rightPlain : right.Plain)
    (same : SameObject left.object right.object) :
    (left.meetBytes right = right.meetBytes left ∧
      ∀ common, left.meetBytes right ≠ .shared common) ∨
      ∃ common other, left.meetBytes right = .shared common ∧ right.meetBytes left = .shared other ∧
        common.Alike other := by
  -- An open bound leaves a verdict only, and both verdicts come from the same two tests.
  have turned := sameObject_symm same
  by_cases missing : left.bounds? = none ∨ right.bounds? = none
  · rw [meetBytes_of_open same missing, meetBytes_of_open turned missing.symm]
    by_cases apart : EndsBefore left.upper right.lower ∨ EndsBefore right.upper left.lower
    · rw [if_pos apart, if_pos apart.symm]
      exact Or.inl ⟨rfl, fun common => by simp⟩
    · rw [if_neg apart, if_neg fun back => apart back.symm]
      exact Or.inl ⟨rfl, fun common => by simp⟩
  · obtain ⟨leftGiven, rightGiven⟩ := not_or.mp missing
    obtain ⟨⟨leftLow, leftHigh⟩, leftBounds⟩ := Option.ne_none_iff_exists'.mp leftGiven
    obtain ⟨⟨rightLow, rightHigh⟩, rightBounds⟩ := Option.ne_none_iff_exists'.mp rightGiven
    simp only [meetBytes, same, turned, leftBounds, rightBounds, not_true_eq_false, if_false]
    by_cases apart : leftHigh ≤ rightLow ∨ rightHigh ≤ leftLow ∨ leftHigh ≤ leftLow ∨
      rightHigh ≤ rightLow
    · rw [if_pos apart, if_pos (by omega)]
      exact Or.inl ⟨rfl, fun common => by simp⟩
    · rw [if_neg apart, if_neg (by omega)]
      -- The bounds of the common bytes are the later start and the earlier end.
      refine Or.inr ⟨_, _, rfl, rfl, same, leftKind.trans rightKind.symm, ?_, ?_,
        (leftPlain.axes leftKind).trans (rightPlain.axes rightKind).symm⟩
      · rw [Int.max_comm]
      · rw [Int.min_comm]

/-- Plain intervals of one object have the same answer in either order. -/
theorem relateBytes_mirrors {left right : Region} (leftKind : left.kind = .flat)
    (rightKind : right.kind = .flat) (leftPlain : left.Plain) (rightPlain : right.Plain)
    (same : SameObject left.object right.object) (wanted : Wanted) :
    (left.relateBytes right wanted).Mirrors (right.relateBytes left wanted.swap) := by
  rcases meetBytes_swap leftKind rightKind leftPlain rightPlain same with
    ⟨equal, unshared⟩ | ⟨common, other, met, turned, alike⟩
  · -- Without a shared part nothing of the two regions is in the answer.
    cases met : left.meetBytes right with
    | shared common => exact absurd met (unshared common)
    | foreign => simpa only [relateBytes, ← equal, met] using Comparison.mirrors_disjoint
    | apart => simpa only [relateBytes, ← equal, met] using Comparison.mirrors_disjoint
    | undecided => simpa only [relateBytes, ← equal, met] using Comparison.mirrors_imprecise
  · have mirrors :=
      Comparison.mirrors_exact alike (left.outside common) (right.outside common) wanted
    simpa only [relateBytes, met, turned, ← outside_congr alike, Comparison.only] using mirrors

/-- Being compared along the axes does not depend on the order of the regions. -/
theorem AlongAxes.symm {left right : Region} (along : AlongAxes left right) :
    AlongAxes right left := by
  -- The array and the interval change sides together.
  rcases along with ⟨leftKind, rightKind⟩ | ⟨leftKind, rightKind, made⟩ |
    ⟨leftKind, rightKind, made⟩
  · exact Or.inl ⟨rightKind, leftKind⟩
  · exact Or.inr (Or.inr ⟨rightKind, leftKind, made⟩)
  · exact Or.inr (Or.inl ⟨rightKind, leftKind, made⟩)

/-- A broken contract does not depend on the order of the regions. -/
theorem Breached.symm {left right : Region} (breached : left.Breached right) :
    right.Breached left := by
  -- Each reason holds on the other side too.
  rcases breached with missing | missing | ⟨same, along, malformed⟩
  · exact Or.inr (Or.inl missing)
  · exact Or.inl missing
  · exact Or.inr (Or.inr ⟨sameObject_symm same, along.symm, malformed.symm⟩)

/-- Regions in the shape of arrays keep their objects, and the arrays of plain
regions have no lower bound. -/
theorem alignShapes_plain {left right : Region} (along : AlongAxes left right)
    (leftPlain : left.Plain) (rightPlain : right.Plain) :
    (alignShapes left right).1.object = left.object ∧
      (alignShapes left right).2.object = right.object ∧
      (alignShapes left right).1.lower = none ∧ (alignShapes left right).2.lower = none := by
  rcases along with ⟨leftKind, rightKind⟩ | ⟨leftKind, rightKind, shaped, made⟩ |
    ⟨leftKind, rightKind, shaped, made⟩
  · simp [alignShapes, leftKind, rightKind, leftPlain.lower leftKind, rightPlain.lower rightKind]
  · -- A shape takes the object from the interval and the rest from the array.
    obtain ⟨element, low, high, -, -, shape⟩ := suits_of_reshape made
    simp [alignShapes, leftKind, rightKind, made, Except.toOption, shape,
      rightPlain.lower rightKind]
  · obtain ⟨element, low, high, -, -, shape⟩ := suits_of_reshape made
    simp [alignShapes, leftKind, rightKind, made, Except.toOption, shape, leftPlain.lower leftKind]

/-- Plain regions of one object that break no contract have the same answer in either order. -/
theorem intersect_mirrors {left right : Region} (same : SameObject left.object right.object)
    (leftPlain : left.Plain) (rightPlain : right.Plain) (free : ¬ left.Breached right)
    (budget : Int) (wanted : Wanted) :
    ∃ comparison other, left.intersect right budget wanted = .ok comparison ∧
      right.intersect left budget wanted.swap = .ok other ∧ comparison.Mirrors other := by
  -- Both orders take the same way: along the axes, by the bytes, or to no precise answer.
  have object : left.object ≠ none := fun missing => free (Or.inl missing)
  have turned := sameObject_symm same
  have otherObject := object_ne_none_of_same object same
  by_cases along : AlongAxes left right
  · -- The shapes are the same in both orders, and no axis in them is malformed.
    obtain ⟨leftKind, rightKind, valid⟩ := alignShapes_along along
    obtain ⟨leftValid, rightValid⟩ :=
      valid.mpr fun malformed => free (Or.inr (Or.inr ⟨same, along, malformed⟩))
    obtain ⟨leftObject, rightObject, leftLower, rightLower⟩ :=
      alignShapes_plain along leftPlain rightPlain
    rw [intersect_eq_relateAxes_aligned object same along,
      intersect_eq_relateAxes_aligned otherObject turned along.symm, alignShapes_swap left right]
    exact relateAxes_mirrors leftKind rightKind leftValid rightValid
      (by rw [leftObject, rightObject]; exact same) (leftLower.trans rightLower.symm) budget wanted
  · rcases intersect_not_along object same along with ⟨leftKind, rightKind, bytes⟩ |
      ⟨other, imprecise⟩
    · rcases intersect_not_along otherObject turned (fun back => along back.symm)
        with ⟨-, -, turnedBytes⟩ | ⟨other, -⟩
      · exact ⟨_, _, bytes budget wanted, turnedBytes budget wanted.swap,
          relateBytes_mirrors leftKind rightKind leftPlain rightPlain same wanted⟩
      · exact absurd ⟨rightKind, leftKind⟩ other
    · rcases intersect_not_along otherObject turned (fun back => along back.symm) with
        ⟨rightKind, leftKind, -⟩ | ⟨-, turnedImprecise⟩
      · exact absurd ⟨leftKind, rightKind⟩ other
      · exact ⟨_, _, imprecise budget wanted, turnedImprecise budget wanted.swap,
          Comparison.mirrors_imprecise⟩

end Region

end Overlap
