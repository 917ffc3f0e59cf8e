import Overlap.Proofs.Phrase.Readable
import Overlap.Proofs.Relation.Refusals
import Overlap.Proofs.Relation.Shapes
import Overlap.Proofs.Relation.Sizes

/-! Regions that were read, and all parts that comparing them gives, read
back from their written form. -/

namespace Overlap

namespace Region

section Comparing

/-- Fragments of a readable array are readable. -/
theorem FragmentOf.readable {fragment base : Region} (fragmentOf : fragment.FragmentOf base)
    (kind : base.kind = .perAxis) (readable : base.Readable) : fragment.Readable where
  -- A fragment has everything but its indices from the array.
  named := fragmentOf.object ▸ readable.named
  lower := fragmentOf.lower ▸ readable.lower
  upper := fragmentOf.upper ▸ readable.upper
  array _ := by
    obtain ⟨lower, nonempty, _⟩ := readable.array kind
    exact ⟨fragmentOf.lower.trans lower, fragmentOf.sizes.ne_nil nonempty, fragmentOf.valid⟩
  interval other := absurd fragmentOf.kind other

/-- A readable region stays readable when it is not narrowed down. -/
theorem Readable.widen {region : Region} (readable : region.Readable) : region.widen.Readable where
  -- Once the axes are gone, only the bounds have to be written.
  named := readable.named
  lower := readable.lower
  upper := readable.upper
  array kind := absurd kind (by simp [Region.widen])
  interval _ := rfl

/-- What is left of a readable array is readable. -/
theorem Rest.readable {fragments : List Region} {common base : Region}
    (rest : Rest fragments common base) (kind : base.kind = .perAxis) (readable : base.Readable) :
    ∀ fragment ∈ fragments, fragment.Readable := by
  -- It is the array as a whole, marked, or it is made of fragments.
  rcases rest with rfl | ⟨all, _⟩
  · intro fragment member
    cases List.mem_singleton.mp member
    exact readable.widen
  · exact fun fragment member => (all fragment member).readable kind readable

/-- An interval in the shape of a readable array is readable. -/
theorem Reshaped.readable {shaped array target : Region} {element low high : Int}
    (reshaped : Reshaped shaped array target element low high) (arrayReadable : array.Readable)
    (targetReadable : target.Readable) : shaped.Readable where
  -- The object comes from the interval, and the rest from the array.
  named := reshaped.object ▸ targetReadable.named
  lower := reshaped.lower ▸ arrayReadable.lower
  upper bound given := by
    rw [reshaped.upper] at given
    cases given
    exact Int.le_of_lt reshaped.positive
  array _ := by
    obtain ⟨lower, nonempty, _⟩ := arrayReadable.array reshaped.arrayKind
    exact ⟨reshaped.lower.trans lower, reshaped.sizes.ne_nil nonempty, reshaped.fills.valid⟩
  interval other := absurd reshaped.kind other

/-- An interval with another lower bound is readable unless that is negative. -/
theorem Readable.withLower {region : Region} (readable : region.Readable)
    (kind : region.kind = .flat) {low : Int} (nonneg : 0 ≤ low) :
    ({ region with lower := some low } : Region).Readable where
  -- Only the lower bound is new.
  named := readable.named
  lower bound given := by
    cases given
    exact nonneg
  upper := readable.upper
  array other := by cases kind.symm.trans other
  interval := readable.interval

/-- An interval with another upper bound is readable unless that is negative. -/
theorem Readable.withUpper {region : Region} (readable : region.Readable)
    (kind : region.kind = .flat) {high : Int} (nonneg : 0 ≤ high) :
    ({ region with upper := some high } : Region).Readable where
  -- Only the upper bound is new.
  named := readable.named
  lower := readable.lower
  upper bound given := by
    cases given
    exact nonneg
  array other := by cases kind.symm.trans other
  interval := readable.interval

/-- The bytes of a readable interval outside a readable part are readable. -/
theorem Readable.outside {region common : Region} (readable : region.Readable)
    (kind : region.kind = .flat) (commonReadable : common.Readable) :
    ∀ part ∈ region.outside common, part.Readable := by
  -- At most two parts are left, and each of them takes one bound from the common part.
  intro part member
  unfold Region.outside at member
  split at member
  · rename_i low high first stop bounds commonBounds
    obtain ⟨lower, upper⟩ := bounds?_eq_some_iff.mp commonBounds
    have firstNonneg := commonReadable.lower first lower
    have stopNonneg := commonReadable.upper stop upper
    rcases List.mem_append.mp member with before | after
    · -- The front ends where the common part starts.
      split at before
      · cases List.mem_singleton.mp before
        exact readable.withUpper kind firstNonneg
      · cases before
    · -- The back starts where the common part ends.
      split at after
      · cases List.mem_singleton.mp after
        exact readable.withLower kind stopNonneg
      · cases after
  · cases member

/-- All parts of an exact answer are readable: what is shared and what is left of both sides. -/
def AllReadable (comparison : Comparison) : Prop :=
  -- The shared part and the leftover parts are written alike.
  ∃ common, comparison.outcome = .exact common ∧
    ∀ part ∈ common :: (comparison.left ++ comparison.right), part.Readable

/-- All parts are readable when those of each kind are. -/
theorem allReadable_of_parts {common : Region} {left right : List Region}
    (commonReadable : common.Readable) (leftReadable : ∀ part ∈ left, part.Readable)
    (rightReadable : ∀ part ∈ right, part.Readable) :
    AllReadable ⟨.exact common, left, right⟩ := by
  -- The parts are put together from three sources.
  refine ⟨common, rfl, fun part member => ?_⟩
  rcases List.mem_cons.mp member with rfl | member
  · exact commonReadable
  · exact (List.mem_append.mp member).elim (leftReadable part) (rightReadable part)

/-- Comparing readable intervals gives readable parts. -/
theorem relateBytes_readable {left right : Region} {comparison : Comparison}
    (leftKind : left.kind = .flat) (rightKind : right.kind = .flat) (leftReadable : left.Readable)
    (rightReadable : right.Readable) (related : left.relateBytes right {} = comparison)
    (exact : comparison.outcome.relation = .exact) :
    AllReadable comparison := by
  unfold relateBytes at related
  cases met : left.meetBytes right with
  | shared common =>
    rw [met] at related
    cases related
    -- The bounds of the common part are among those of the two sides.
    have commonReadable : common.Readable := by
      unfold meetBytes at met
      split at met
      · cases met
      · split at met
        · rename_i leftLow leftHigh rightLow rightHigh leftBounds rightBounds
          obtain ⟨leftLower, leftUpper⟩ := bounds?_eq_some_iff.mp leftBounds
          obtain ⟨rightLower, rightUpper⟩ := bounds?_eq_some_iff.mp rightBounds
          split at met
          · cases met
          · cases met
            -- The larger lower bound and the smaller upper one are not negative either.
            have low := leftReadable.lower leftLow leftLower
            have leftHigh := leftReadable.upper leftHigh leftUpper
            have rightHigh := rightReadable.upper rightHigh rightUpper
            have narrowed :=
              leftReadable.withLower leftKind (show 0 ≤ max leftLow rightLow by omega)
            exact narrowed.withUpper leftKind (by omega)
        · split at met <;> cases met
    exact allReadable_of_parts commonReadable (leftReadable.outside leftKind commonReadable)
      (rightReadable.outside rightKind commonReadable)
  | foreign | apart | undecided =>
    rw [met] at related
    cases related
    cases exact

/-- Comparing readable arrays gives readable parts. -/
theorem relateAxes_readable {left right : Region} {budget : Int} {comparison : Comparison}
    (object : left.object ≠ none) (same : SameObject left.object right.object)
    (leftKind : left.kind = .perAxis) (rightKind : right.kind = .perAxis)
    (leftReadable : left.Readable) (rightReadable : right.Readable)
    (related : left.relateAxes right budget {} = .ok comparison)
    (exact : comparison.outcome.relation = .exact) :
    AllReadable comparison := by
  obtain ⟨_, _, leftValid⟩ := leftReadable.array leftKind
  obtain ⟨_, _, rightValid⟩ := rightReadable.array rightKind
  -- Only arrays with elements and axes of the same sizes have an exact answer.
  rcases relateAxes_sizes leftValid rightValid related with other | ⟨element, sizes | ⟨_, other⟩⟩
  · -- Different sizes are not compared, so this is no exact answer.
    rw [other] at exact
    cases exact
  · have comparable : left.Comparable right :=
      ⟨object, same, leftKind, rightKind, leftValid, rightValid, element, sizes⟩
    rcases relateAxes_cases comparable budget {} with ⟨other, _⟩ |
      ⟨_, leftRest, rightRest, found, shared, rests⟩
    · cases related.symm.trans other
      cases exact
    · -- All parts are fragments of readable arrays.
      cases related.symm.trans found
      exact allReadable_of_parts (shared.fragment.readable leftKind leftReadable)
        ((rests.1 rfl).readable leftKind leftReadable)
          ((rests.2 rfl).readable rightKind rightReadable)
  · rw [other] at exact
    cases exact

/-- The axes of a readable region are well formed. -/
theorem Readable.allValid {region : Region} (readable : region.Readable) :
    AllValid region.axes := by
  -- An interval has no axes at all.
  by_cases kind : region.kind = .perAxis
  · exact (readable.array kind).2.2
  · rw [readable.interval kind]
    exact fun axis member => (List.not_mem_nil member).elim

/-- Regions of different objects have no exact answer. -/
theorem sameObject_of_exact {left right : Region} {budget : Int} {wanted : Wanted}
    {comparison : Comparison} (answered : left.intersect right budget wanted = .ok comparison)
    (exact : comparison.outcome.relation = .exact) :
    SameObject left.object right.object := by
  -- Different objects are never exact, and a missing one is refused.
  by_contra different
  by_cases missing : left.object = none ∨ right.object = none
  · simp [intersect, missing, throw, throwThe, MonadExceptOf.throw, Bind.bind, Except.bind]
      at answered
  · simp only [intersect, if_neg missing, if_pos different] at answered
    cases answered
    cases exact

/-- Comparing readable regions gives readable parts, on every route. -/
theorem intersect_readable {left right : Region} {budget : Int} {comparison : Comparison}
    (leftReadable : left.Readable) (rightReadable : right.Readable)
    (answered : left.intersect right budget = .ok comparison)
    (exact : comparison.outcome.relation = .exact) :
    AllReadable comparison := by
  -- An interval that meets an array is compared in the shape of the array.
  have same := sameObject_of_exact answered exact
  obtain ⟨object, route⟩ :=
    route_of_intersect same leftReadable.allValid rightReadable.allValid answered
  cases route with
  | bytes leftKind rightKind related =>
    exact relateBytes_readable leftKind rightKind leftReadable rightReadable related exact
  | axes leftKind rightKind related =>
    exact relateAxes_readable object same leftKind rightKind leftReadable rightReadable
      related exact
  | leftShaped shaped element low high reshaped related =>
    -- The shape has the object of the interval and the sizes of the array.
    exact relateAxes_readable (reshaped.object ▸ object) (reshaped.object ▸ same) reshaped.kind
      reshaped.arrayKind (reshaped.readable rightReadable leftReadable) rightReadable related exact
  | rightShaped shaped element low high reshaped related =>
    exact relateAxes_readable object (reshaped.object ▸ same) reshaped.arrayKind reshaped.kind
      leftReadable (reshaped.readable leftReadable rightReadable) related exact
  | imprecise outcome =>
    rw [outcome] at exact
    cases exact

/-- Leftover parts that are not wanted are left out, and the others are the same. -/
theorem intersect_only {left right : Region} {budget : Int} {wanted : Wanted}
    {comparison : Comparison} (answered : left.intersect right budget wanted = .ok comparison) :
    ∃ full, left.intersect right budget = .ok full ∧ comparison = full.only wanted := by
  -- An answer is one of the full answer, as far as its parts are wanted.
  rcases intersect_cases left right with ⟨_, cause, _, refused⟩ | ⟨_, outcome, full⟩
  · cases answered.symm.trans (refused budget wanted)
  · obtain ⟨full, _, _, answer⟩ := full budget
    refine ⟨full, answer {}, ?_⟩
    exact Except.ok.inj (answered.symm.trans (answer wanted))

end Comparing

end Region

/-- Written regions read back: every region that was read from a text, and of two such regions
every part that comparing them exactly gives, what they share as well as what is left of either,
marked as not narrowed down or not. -/
theorem readRegion_text :
    (∀ text region, readRegion text = .ok region →
      region.textTold = .ok region.text ∧ readRegion region.text = .ok region) ∧
    ∀ leftText rightText left right budget wanted comparison,
      readRegion leftText = .ok left → readRegion rightText = .ok right →
      left.intersect right budget wanted = .ok comparison → comparison.outcome.relation = .exact →
      ∃ common, comparison.outcome = .exact common ∧
        ∀ part ∈ common :: (comparison.left ++ comparison.right), part.ReadsBack := by
  constructor
  · -- A region that was read is readable, and its numbers can be written.
    intro text region read
    obtain ⟨readable, writable⟩ := readable_of_readRegion read
    exact readable.readsBack.2 writable
  · intro leftText rightText left right budget wanted comparison leftRead rightRead answered exact
    obtain ⟨leftReadable, _⟩ := readable_of_readRegion leftRead
    obtain ⟨rightReadable, _⟩ := readable_of_readRegion rightRead
    -- All parts are compared first, and those that are not wanted are dropped then.
    obtain ⟨full, complete, rfl⟩ := Region.intersect_only answered
    obtain ⟨common, outcome, readable⟩ :=
      Region.intersect_readable leftReadable rightReadable complete exact
    refine ⟨common, outcome, fun part member => (readable part ?_).readsBack⟩
    -- Dropping a list of parts leaves the others as they are.
    simp only [Comparison.only, List.mem_cons, List.mem_append] at member ⊢
    rcases member with rfl | left | right
    · exact .inl rfl
    · split at left
      · exact .inr (.inl left)
      · cases left
    · split at right
      · exact .inr (.inr right)
      · cases right

/-- An array with a reserved word as its name is written with quotes. Every third element of it is
shared, and what is left is the array as a whole, marked as not narrowed down, for which the
element size is kept as a bound. -/
theorem readRegion_text_marked :
    let array (axes : List Axis) : Region := ⟨some (.name "bytes"), .perAxis, none, some 4, axes⟩
    let left := array [⟨0, 1, 12, 12⟩]
    let right := array [⟨1, 3, 3, 12⟩]
    let marked : Region := ⟨some (.name "bytes"), .whole, none, some 4, []⟩
    readRegion "bytes dims(0 count 12 of 12) elem 4" = .ok left ∧
      readRegion "\"bytes\"dims(1 step 3 count 3 of 12)elem4" = .ok right ∧
      left.textTold = .ok "\"bytes\" dims(0 count 12 of 12) elem 4" ∧
      readRegion "\"bytes\" dims(0 count 12 of 12) elem 4" = .ok left ∧
      left.intersect right 1 = .ok ⟨.exact right, [marked], []⟩ ∧
      marked.text = "\"bytes\" whole bytes [, 4)" ∧ right.ReadsBack ∧ marked.ReadsBack := by
  intro array left right marked
  -- Both texts are read, the second one without any blanks between its tokens.
  have leftRead : readRegion "bytes dims(0 count 12 of 12) elem 4" = .ok left := by decide +kernel
  have rightRead : readRegion "\"bytes\"dims(1 step 3 count 3 of 12)elem4" = .ok right := by
    decide +kernel
  have answered : left.intersect right 1 = .ok ⟨.exact right, [marked], []⟩ := by decide +kernel
  have written : left.text = "\"bytes\" dims(0 count 12 of 12) elem 4" := by decide
  -- The left region is written with quotes, and read back from them.
  obtain ⟨told, again⟩ := readRegion_text.1 _ _ leftRead
  -- One phase is allowed and two are skipped, so the left region is not narrowed down.
  obtain ⟨common, outcome, parts⟩ := readRegion_text.2 _ _ _ _ _ _ _ leftRead rightRead answered rfl
  rw [written] at told again
  cases outcome
  exact ⟨leftRead, rightRead, told, again, answered, by decide, parts right (by simp),
    parts marked (by simp)⟩

end Overlap
