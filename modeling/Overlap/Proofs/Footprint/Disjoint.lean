import Overlap.Proofs.Relation.Shapes
import Overlap.Proofs.Relation.Sizes

/-! Regions that are told to be disjoint share no byte, unless sizes differ
behind the axis that decided. -/

namespace Overlap.Region

/-- Intervals with both bounds that are told to be disjoint share no byte. -/
theorem not_touches_of_relateBytes {left right : Region} {wanted : Wanted}
    (same : SameObject left.object right.object) (leftKind : left.kind = .flat)
    (rightKind : right.kind = .flat)
    (disjoint : (left.relateBytes right wanted).outcome.relation = .disjoint) (address : Int) :
    ¬ (left.Touches address ∧ right.Touches address) := by
  -- A common byte lies between all four bounds, and then the intervals are found to meet.
  intro both
  simp only [Touches, leftKind, rightKind] at both
  obtain ⟨⟨low, high, bounds, lowIn, highIn⟩, otherLow, otherHigh, otherBounds, otherLowIn,
      otherHighIn⟩ := both
  have meet : ¬ (high ≤ otherLow ∨ otherHigh ≤ low ∨ high ≤ low ∨ otherHigh ≤ otherLow) := by omega
  simp [relateBytes, meetBytes, same, bounds, otherBounds, meet, Outcome.exact] at disjoint

/-- Comparable arrays with inner axes of known sizes share no byte when
they are told to be disjoint. -/
theorem not_touches_of_relateAxes {left right : Region} (comparable : left.Comparable right)
    (sized : InnerSized left.axes) {budget : Int} {wanted : Wanted} {comparison : Comparison}
    (related : left.relateAxes right budget wanted = .ok comparison)
    (disjoint : comparison.outcome.relation = .disjoint) (address : Int) :
    ¬ (left.Touches address ∧ right.Touches address) := by
  -- An exact answer would not be told to be disjoint.
  intro both
  rcases relateAxes_cases comparable budget wanted with ⟨-, none⟩ |
    ⟨common, leftRest, rightRest, found, -⟩
  · -- A common byte would belong to a common element.
    simp only [Touches, comparable.leftKind, comparable.rightKind, ← comparable.element] at both
    obtain ⟨⟨size, upper, covered⟩, other, otherUpper, otherCovered⟩ := both
    obtain rfl : size = other := Option.some.inj (upper.symm.trans otherUpper)
    obtain ⟨tuple, -, held, otherHeld, -⟩ :=
      inAxes_of_covers comparable.leftValid comparable.rightValid comparable.sizes
      sized covered otherCovered
    exact none tuple ⟨⟨comparable.leftKind, held⟩, comparable.rightKind, otherHeld⟩
  · rw [related] at found
    simp [Except.ok.inj found, Outcome.exact] at disjoint

/-- Located regions of one object that are told to be disjoint share no byte, unless both are arrays
with a hidden mismatch of sizes. Those are always told to be disjoint, whatever bytes they share. -/
theorem intersect_disjoint_bytes {left right : Region} (same : SameObject left.object right.object)
    (leftValid : AllValid left.axes) (rightValid : AllValid right.axes) (located : left.Located)
    {budget : Int} {wanted : Wanted} {comparison : Comparison}
    (answered : left.intersect right budget wanted = .ok comparison) :
    (comparison.outcome.relation = .disjoint →
      (∀ address, ¬ (left.Touches address ∧ right.Touches address)) ∨
        left.kind = .perAxis ∧ right.kind = .perAxis ∧ HiddenMismatch left.axes right.axes) ∧
    (left.kind = .perAxis → right.kind = .perAxis → left.axes.length = right.axes.length →
      left.upper = right.upper → HiddenMismatch left.axes right.axes →
        comparison.outcome.relation = .disjoint) := by
  -- Each route keeps the bytes of both regions, and only the comparison of
  -- arrays can overlook a size.
  obtain ⟨object, route⟩ := route_of_intersect same leftValid rightValid answered
  constructor
  · intro disjoint
    cases route with
    | bytes leftKind rightKind related =>
      exact Or.inl (not_touches_of_relateBytes same leftKind rightKind (related ▸ disjoint))
    | axes leftKind rightKind related =>
      simp only [Located, leftKind] at located
      rcases relateAxes_sizes leftValid rightValid related with imprecise |
        ⟨element, sizes | ⟨hidden, -⟩⟩
      · simp [imprecise, Outcome.imprecise] at disjoint
      · exact Or.inl (not_touches_of_relateAxes
          ⟨object, same, leftKind, rightKind, leftValid, rightValid, element, sizes⟩ located.2.1
            related disjoint)
      · exact Or.inr ⟨leftKind, rightKind, hidden⟩
    | leftShaped shaped element low high reshaped related =>
      -- The interval has the bytes of its shape, which was compared instead.
      left
      intro address
      rw [← reshaped.touches_iff]
      exact not_touches_of_relateAxes (reshaped.comparable rightValid object same)
        (reshaped.sized.congr reshaped.sizes.symm) related disjoint address
    | rightShaped shaped element low high reshaped related =>
      left
      intro address
      rw [← reshaped.touches_iff]
      exact not_touches_of_relateAxes
        (reshaped.comparable leftValid (object_ne_none_of_same object same)
        (sameObject_symm same)).symm reshaped.sized related disjoint address
    | imprecise outcome => simp [outcome, Outcome.imprecise] at disjoint
  · intro leftKind rightKind counts element hidden
    rw [intersect_eq_relateAxes object same leftKind rightKind,
      relateAxes_of_hidden leftValid rightValid counts element hidden] at answered
    exact Except.ok.inj answered ▸ rfl

/-- Rows of five elements and rows of twelve share no row number and are told to be disjoint, but
the byte at address 68 belongs to both. -/
theorem intersect_disjoint_shared_byte :
    let left : Region := ⟨some (.name "A"), .perAxis, none, some 4, [⟨3, 2, 4, 0⟩, ⟨2, 4, 1, 5⟩]⟩
    let right : Region := ⟨some (.name "A"), .perAxis, none, some 4, [⟨1, 2, 1, 0⟩, ⟨3, 2, 3, 12⟩]⟩
    left.intersect right = .ok { outcome := .disjoint } ∧ left.Touches 68 ∧ right.Touches 68 ∧
      HiddenMismatch left.axes right.axes := by
  intro left right
  -- Along the outer axis no index is shared, so the sizes of the inner ones are not compared.
  have answered : left.intersect right = .ok { outcome := .disjoint } := by decide
  -- The fourth row of five and the second of twelve both reach the element seventeen.
  have inLeft : left.Touches 68 := ⟨4, rfl, [3, 2], 0, by decide, by decide, by decide, by decide⟩
  have inRight : right.Touches 68 := ⟨4, rfl, [1, 5], 0, by decide, by decide, by decide, by decide⟩
  have located : left.Located := ⟨by decide, by decide, 4, rfl, by decide⟩
  have same : SameObject left.object right.object := by decide
  -- No byte may be shared unless the sizes differ behind the axis that decided.
  rcases (intersect_disjoint_bytes same (by decide) (by decide) located answered).1 rfl
    with none | hidden
  · exact absurd ⟨inLeft, inRight⟩ (none 68)
  · exact ⟨answered, inLeft, inRight, hidden.2.2⟩

end Overlap.Region
