import Overlap.Proofs.Footprint.Arrays
import Overlap.Proofs.Footprint.Intervals
import Overlap.Proofs.Relation.Shapes
import Overlap.Proofs.Relation.Sizes
import Overlap.Proofs.Relation.Telling

/-! Exact outcomes agree with the listed addresses, whenever the machine can list them. -/

namespace Overlap

namespace Region

/-- Bytes of one element. An element of unknown size counts as a single unit. -/
def unit (region : Region) : Int :=
  -- Without an element size, elements are counted instead of bytes.
  max 1 (region.upper.getD 0)

/-- An address of a region: of one of its bytes, or of an element of unknown size. -/
def Occupies (region : Region) (address : Int) : Prop :=
  match region.kind with
  -- Arrays are counted in their unit, so this makes sense without an element size too.
  | .perAxis => Covers region.axes region.unit address
  | _ => region.Touches address

/-- Addresses and strides of a region lie where words and double precision numbers are exact. -/
structure Moderate (region : Region) : Prop where
  -- Within these bounds double precision has every integer, and words do not wrap around.
  addresses : ∀ address, region.Occupies address → -2 ^ 53 < address ∧ address < 2 ^ 53
  strides : region.kind = .perAxis → ModerateStrides region.axes

/-- The number of addresses of a region. -/
def volume (region : Region) : Nat :=
  match region.kind, region.bounds? with
  -- Bounds in the wrong order hold nothing.
  | .flat, some (low, high) => (high - low).toNat
  -- All tuples count, also those that meet at one address.
  | .perAxis, _ => (region.axes.map fun axis => axis.count.toNat).prod * region.unit.toNat
  | _, _ => 0

/-- A limit of the machine that a region exceeds: the number of axes that can be
combined, or the room in memory. -/
def Overfull [Limits] (region : Region) : Fault → Prop
  -- Only the machine sets these limits, and any other fault has another cause.
  | .tooMany => region.kind = .perAxis ∧ maxAxes < region.axes.length
  | .outOfMemory => memoryBytes < region.volume * wordBytes
  | _ => False

/-- An array of known sizes that takes less than two to the 53rd units is moderate. -/
theorem moderate_of_span {region : Region} (kind : region.kind = .perAxis)
    (valid : AllValid region.axes) (sized : Sized region.axes)
    (small : span region.unit region.axes < 2 ^ 53) : region.Moderate := by
  -- The span bounds all addresses and, part by part, all strides.
  have positive : 1 ≤ region.unit := by
    unfold unit
    omega
  have elements := span_pos Int.one_pos sized
  have units := span_eq_mul region.unit region.axes
  have larger := Int.mul_le_mul_of_nonneg_left positive (Int.le_of_lt elements)
  constructor
  · -- An address lies in the units of an element, and the elements are counted row by row.
    intro address occupied
    simp only [Occupies, kind] at occupied
    obtain ⟨tuple, byte, held, low, high, rfl⟩ := occupied
    obtain ⟨first, last⟩ := rowMajor_bounds valid sized held
    have below := Int.mul_nonneg first (show 0 ≤ region.unit by omega)
    have above := Int.mul_le_mul_of_nonneg_right (show rowMajor region.axes tuple + 1 ≤
      span 1 region.axes by omega) (show 0 ≤ region.unit by omega)
    constructor <;> linarith
  · intro _ inner suffix
    -- A stride counts the elements of a part of the array.
    obtain ⟨front, split⟩ := suffix.trans (List.tail_suffix region.axes)
    have part := span_le_append (split ▸ sized : Sized (front ++ inner))
    rw [split] at part
    omega

/-- A region is not listed, because its addresses are not known or because it exceeds a limit. -/
def Refused [Limits] (listing : Region → Except Fault (List Int)) (region : Region) : Prop :=
  -- Either the region says too little, or it is too large for the machine.
  ∃ fault, listing region = .error fault ∧
    ((∃ cause, fault = .unlisted cause) ∨ region.Overfull fault)

/-- A moderate array is refused, or it is enumerable and within all limits. -/
theorem array_cases [Limits] {listing : Region → Except Fault (List Int)} {region : Region}
    {upper : Option Int} (arrays : ListsArrays listing region.unit upper)
    (kind : region.kind = .perAxis) (known : region.upper = upper) (valid : AllValid region.axes)
    (moderate : region.Moderate) :
    region.Refused listing ∨
      region.Enumerable region.unit upper ∧ ∀ fault, ¬ region.Overfull fault := by
  -- Each way in which listing ends says what is exceeded, or that nothing is.
  have bounded : ∀ address, Covers region.axes region.unit address → address < 2 ^ 53 := by
    intro address covered
    exact (moderate.addresses address (by simpa [Occupies, kind] using covered)).2
  have volume : region.volume = (addresses region.axes region.unit).length := by
    simp [volume, kind, length_addresses]
  have listed := arrays region kind known valid (moderate.strides kind) bounded
  generalize result : listing region = answer at listed
  cases listed with
  | unlisted cause _ => exact Or.inl ⟨_, result, Or.inl ⟨cause, rfl⟩⟩
  | tooMany many => exact Or.inl ⟨_, result, Or.inr ⟨kind, many⟩⟩
  | outOfMemory full => exact Or.inl ⟨_, result, Or.inr (show memoryBytes < _ from volume ▸ full)⟩
  | listed listable =>
    refine Or.inr ⟨⟨kind, known, valid, moderate.strides kind, bounded, listable⟩,
      fun fault overfull => ?_⟩
    -- A listable array keeps to both limits.
    have few := listable.few
    have room := listable.room
    rw [← volume] at room
    cases fault <;> simp only [Overfull] at overfull <;> omega

/-- A moderate interval is refused, or it can be listed and is within all limits. -/
theorem interval_cases [Limits] {region : Region} {low high : Int} (kind : region.kind = .flat)
    (bounds : region.bounds? = some (low, high)) (ordered : low < high)
    (moderate : region.Moderate) :
    region.Refused byteOffsets ∨ region.Interval low high ∧ ∀ fault, ¬ region.Overfull fault := by
  -- The ends of a moderate interval are moderate, so only the room can be missing.
  have touched : ∀ address, low ≤ address → address < high →
      -2 ^ 53 < address ∧ address < 2 ^ 53 := by
    intro address above below
    refine moderate.addresses address ?_
    simp only [Occupies, kind, Touches]
    exact ⟨low, high, bounds, above, below⟩
  have lowest := (touched low (Int.le_refl low) ordered).1
  have highest := (touched (high - 1) (by omega) (by omega)).2
  have volume : region.volume = (high - low).toNat := by simp [volume, kind, bounds]
  have listed := byteOffsets_interval kind bounds ordered lowest (by omega)
  by_cases full : memoryBytes < (high - low).toNat * wordBytes
  · -- The bytes do not fit into memory.
    rw [if_pos full] at listed
    exact Or.inl ⟨_, listed, Or.inr (show memoryBytes < _ from volume ▸ full)⟩
  · -- There is room, so nothing else can stop the listing.
    refine Or.inr ⟨⟨kind, bounds, ordered, lowest, by omega, Nat.not_lt.mp full⟩,
      fun fault overfull => ?_⟩
    cases fault <;> simp only [Overfull, kind, volume] at overfull
    · simp at overfull
    · exact full overfull

/-- An array in the shape of an enumerable one, with the bytes of an interval, is enumerable. -/
theorem Reshaped.enumerable [Limits] {shaped array target : Region} {element low high : Int}
    (reshaped : Reshaped shaped array target element low high) (interval : target.Interval low high)
    (enumerable : array.Enumerable element (some element)) :
    shaped.Enumerable element (some element) := by
  -- The shape has the bytes of the interval, which are moderate and have room.
  -- What is reached can be listed as an interval.
  have bytes : Lists (Axis.toList ⟨low, 1, high - low, 0⟩) _ := Axis.lists_toList Int.one_pos
  exact
    { kind := reshaped.kind
      upper := reshaped.upper
      valid := reshaped.fills.valid
      strides := enumerable.strides.congr reshaped.sizes.symm
      moderate := by
        intro address covered
        exact Int.lt_of_lt_of_le ((reshaped.fills.covers address).mp covered).2 interval.highest
      listable := by
        refine listable_of_sizes enumerable.listable reshaped.sizes reshaped.fills.valid
          reshaped.positive bytes (by simpa using interval.room) fun address covered => ?_
        have := (reshaped.fills.covers address).mp covered
        exact Axis.mem_interval.mpr (by omega) }

/-- An interval is listed by the addresses of its shape. -/
theorem Reshaped.lists [Limits] {shaped array target : Region} {element low high : Int}
    (reshaped : Reshaped shaped array target element low high)
    (interval : target.Interval low high) :
    ListsBy byteOffsets target (Covers shaped.axes element) := by
  -- Interval and shape have the same bytes.
  obtain ⟨numbers, listed, rising, mem⟩ := interval.lists
  refine ⟨numbers, listed, rising, fun address => ?_⟩
  rw [mem, interval.touches_iff, reshaped.fills.covers]

/-- A moderate array that an interval takes the shape of is refused, or it is
enumerable and within all limits. -/
theorem Reshaped.array_cases [Limits] {shaped array target : Region} {element low high : Int}
    (reshaped : Reshaped shaped array target element low high) (valid : AllValid array.axes)
    (moderate : array.Moderate) :
    array.Refused byteOffsets ∨
      array.Enumerable element (some element) ∧ ∀ fault, ¬ array.Overfull fault := by
  -- Both are counted in bytes of one element.
  have positive := reshaped.positive
  have bytes : array.unit = element := by
    simp only [unit, reshaped.arrayUpper, Option.getD_some]
    omega
  have arrays : ListsArrays byteOffsets array.unit (some element) := by
    rw [bytes]
    exact listsArrays_byteOffsets positive
  have cases := Region.array_cases arrays reshaped.arrayKind reshaped.arrayUpper valid moderate
  rwa [bytes] at cases

end Region

/-- The check of an answer passes, and both regions keep to all limits; or it ends with the reason
why one of them is not listed. -/
def Settles [Limits] (left right : Region) (answer : Comparison) : Prop :=
  -- An answer that passed is one of regions that could be listed.
  (verify left right answer.outcome (some answer.left) (some answer.right) = .ok [] ∧
    ∀ fault, ¬ left.Overfull fault ∧ ¬ right.Overfull fault) ∨
  -- An answer that was not checked names a reason that lies in one of the regions.
  ∃ fault, verify left right answer.outcome (some answer.left) (some answer.right) = .error fault ∧
    ((∃ cause, fault = .unlisted cause) ∨ left.Overfull fault ∨ right.Overfull fault)

section Told

variable [Limits] {left right : Region} {answer : Comparison} {fault : Fault}

/-- A check that finds no problem says so. -/
theorem verifyTold_of_none
    (passed : verify left right answer.outcome (some answer.left) (some answer.right) = .ok []) :
    answer.verifyTold left right = .ok [] := by
  -- Where there are no problems there is nothing to tell.
  rw [Comparison.verifyTold, Overlap.verifyTold, passed]
  rfl

/-- A check that stops shows its fault as far as the message can be written. -/
theorem verifyTold_of_error
    (failed : verify left right answer.outcome (some answer.left) (some answer.right) =
      .error fault) :
    answer.verifyTold left right = .error fault.told := by
  -- A fault goes through to the end, where only its numbers are looked at.
  rw [Comparison.verifyTold, Overlap.verifyTold, failed]
  rfl

/-- A limit of the machine is said without a number. -/
theorem told_of_overfull (overfull : left.Overfull fault ∨ right.Overfull fault) :
    fault.told = fault := by
  -- The two faults of the machine have fixed messages, and all other faults are excluded.
  cases fault <;> first | rfl | exact (overfull.elim id id).elim

end Told

/-- The check of an exact outcome ends as the listing of the two regions does: it
passes when both can be listed. -/
theorem verify_settles [Limits] {listing : Region → Except Fault (List Int)}
    {left right common : Region} {leftRest rightRest : List Region} {leftGood rightGood : Prop}
    (way : listingFor left right = listing)
    (leftCases : left.Refused listing ∨ leftGood ∧ ∀ fault, ¬ left.Overfull fault)
    (rightCases : right.Refused listing ∨ rightGood ∧ ∀ fault, ¬ right.Overfull fault)
    (listed : leftGood → ∃ numbers, listing left = .ok numbers) (passes : leftGood → rightGood →
      verify left right (.exact common) (some leftRest) (some rightRest) = .ok []) :
    Settles left right ⟨.exact common, leftRest, rightRest⟩ := by
  -- The left region is listed first, so its fault comes first.
  rcases leftCases with ⟨fault, refused, reason⟩ | ⟨good, within⟩
  · refine Or.inr ⟨fault, ?_, reason.imp_right Or.inl⟩
    simp [verify, Outcome.exact, way, refused, Bind.bind, Except.bind]
  · obtain ⟨numbers, leftListed⟩ := listed good
    rcases rightCases with ⟨fault, refused, reason⟩ | ⟨otherGood, otherWithin⟩
    · refine Or.inr ⟨fault, ?_, reason.imp_right Or.inr⟩
      simp [verify, Outcome.exact, way, leftListed, refused, Bind.bind, Except.bind]
    · exact Or.inl ⟨passes good otherGood, fun fault => ⟨within fault, otherWithin fault⟩⟩

namespace Region

/-- An exact answer for comparable arrays comes with the shared region and what is left of both. -/
theorem relateAxes_exact {left right : Region} (comparable : left.Comparable right) {budget : Int}
    {comparison : Comparison} (related : left.relateAxes right budget {} = .ok comparison)
    (exact : comparison.outcome.relation = .exact) :
    ∃ common leftRest rightRest, comparison = ⟨.exact common, leftRest, rightRest⟩ ∧
      common.Shared left right ∧
      Rest leftRest common left ∧ Rest rightRest common right := by
  -- A disjoint answer is not exact, so the shared region was found.
  rcases relateAxes_cases comparable budget {} with ⟨found, -⟩ |
    ⟨common, leftRest, rightRest, found, shared, leftMade, rightMade⟩
  · rw [related] at found
    simp [Except.ok.inj found, Outcome.disjoint] at exact
  · rw [related] at found
    exact ⟨common, leftRest, rightRest, Except.ok.inj found, shared, leftMade rfl, rightMade rfl⟩

/-- An exact answer for intervals means that both have bounds, and meet. -/
theorem relateBytes_exact {left right : Region} (same : SameObject left.object right.object)
    (exact : (left.relateBytes right {}).outcome.relation = .exact) :
    ∃ low high otherLow otherHigh, left.bounds? = some (low, high) ∧
      right.bounds? = some (otherLow, otherHigh) ∧
      low < high ∧ otherLow < otherHigh ∧ low < otherHigh ∧ otherLow < high ∧
      ∃ common,
        common =
          { left with lower := some (max low otherLow), upper := some (min high otherHigh) } ∧
        left.relateBytes right {} = ⟨.exact common, left.outside common, right.outside common⟩ := by
  cases leftBounds : left.bounds? with
  | none =>
    -- With an open bound the answer is that nothing is shared, or that it is not known.
    by_cases ends : EndsBefore left.upper right.lower ∨ EndsBefore right.upper left.lower
    <;> simp [relateBytes, meetBytes, same, leftBounds, ends, Outcome.disjoint, Outcome.imprecise]
      at exact
  | some pair =>
    cases rightBounds : right.bounds? with
    | none =>
      by_cases ends : EndsBefore left.upper right.lower ∨ EndsBefore right.upper left.lower
      <;> simp [relateBytes, meetBytes, same, leftBounds, rightBounds, ends, Outcome.disjoint,
        Outcome.imprecise] at exact
    | some other =>
      -- Both intervals are closed, so their bounds decide.
      obtain ⟨low, high⟩ := pair
      obtain ⟨otherLow, otherHigh⟩ := other
      by_cases apart : high ≤ otherLow ∨ otherHigh ≤ low ∨ high ≤ low ∨ otherHigh ≤ otherLow
      · -- Empty intervals share nothing either.
        simp [relateBytes, meetBytes, same, leftBounds, rightBounds, apart, Outcome.disjoint]
          at exact
      · refine ⟨low, high, otherLow, otherHigh, rfl,
          rfl, by omega, by omega, by omega, by omega, _, rfl, ?_⟩
        simp [relateBytes, meetBytes, same, leftBounds, rightBounds, apart]

/-- The check of an exact answer for comparable arrays passes, as far
as the arrays can be listed. -/
theorem verify_comparable [Limits] {listing : Region → Except Fault (List Int)}
    {left right common : Region} {leftRest rightRest : List Region}
    (comparable : left.Comparable right) (way : listingFor left right = listing)
    (arrays : ListsArrays listing left.unit left.upper) (leftModerate : left.Moderate)
    (rightModerate : right.Moderate) (shared : common.Shared left right)
    (leftMade : Rest leftRest common left) (rightMade : Rest rightRest common right) :
    Settles left right ⟨.exact common, leftRest, rightRest⟩ := by
  -- Elements of equal size are counted in the same units on both sides.
  have positive : 0 < left.unit := by
    unfold unit
    omega
  -- The right array is listed in the units of the left one.
  have units : right.unit = left.unit := by rw [unit, unit, comparable.element]
  have rightCases :=
    array_cases (units ▸ arrays) comparable.rightKind comparable.element.symm comparable.rightValid
    rightModerate
  rw [units] at rightCases
  refine verify_settles way
    (array_cases arrays comparable.leftKind rfl comparable.leftValid leftModerate) rightCases ?_ ?_
  · intro enumerable
    exact (enumerable.lists arrays positive).imp fun _ listed => listed.1
  · intro enumerable other
    exact verify_arrays comparable enumerable other way arrays positive
      (enumerable.lists arrays positive) (other.lists arrays positive) shared leftMade rightMade

/-- The check of an exact answer for two intervals. -/
theorem settles_relateBytes [Limits] {left right : Region}
    (same : SameObject left.object right.object) (leftKind : left.kind = .flat)
    (rightKind : right.kind = .flat) (leftModerate : left.Moderate) (rightModerate : right.Moderate)
    (exact : (left.relateBytes right {}).outcome.relation = .exact) :
    Settles left right (left.relateBytes right {}) := by
  -- Both intervals are bounded, and their common part lies between the inner bounds.
  obtain ⟨low, high, otherLow, otherHigh, bounds, otherBounds, ordered, otherOrdered, first, second,
    common, shape, found⟩ := relateBytes_exact same exact
  rw [found]
  apply verify_settles (by simp [listingFor, leftKind])
    (interval_cases leftKind bounds ordered leftModerate)
    (interval_cases rightKind otherBounds otherOrdered rightModerate)
  · intro interval
    exact interval.lists.imp fun _ listed => listed.1
  · intro interval other
    exact verify_intervals interval other ⟨first, second⟩ shape

/-- The check of an exact answer for two arrays of the same sizes. -/
theorem settles_relateAxes [Limits] {left right : Region} (comparable : left.Comparable right)
    (leftModerate : left.Moderate) (rightModerate : right.Moderate) {budget : Int}
    {comparison : Comparison} (related : left.relateAxes right budget {} = .ok comparison)
    (exact : comparison.outcome.relation = .exact) :
    Settles left right comparison := by
  -- How the arrays are listed depends on what is known of their elements.
  obtain ⟨common, leftRest, rightRest, rfl, shared, leftMade, rightMade⟩ :=
    relateAxes_exact comparable related exact
  by_cases unknown : left.upper.getD 0 = 0
  · -- Elements of unknown size are compared by their places.
    have single : left.unit = 1 := by simp [unit, unknown]
    exact verify_comparable comparable
      (by simp [listingFor, comparable.leftKind, comparable.rightKind, unknown])
      (single ▸ listsArrays_elementOffsets left.upper) leftModerate rightModerate shared
        leftMade rightMade
  · have way : listingFor left right = byteOffsets := by simp [listingFor, unknown]
    obtain ⟨size, known⟩ : ∃ size, left.upper = some size := by
      cases upper : left.upper with
      | none => simp [upper] at unknown
      | some size => exact ⟨size, rfl⟩
    by_cases positive : 0 < size
    · have bytes : left.unit = size := by
        simp only [unit, known, Option.getD_some]
        omega
      exact verify_comparable comparable way
        (by rw [bytes, known]; exact listsArrays_byteOffsets positive)
        leftModerate rightModerate shared leftMade rightMade
    · -- A size that is not positive is not known.
      refine Or.inr ⟨.unlisted (.elementSize left), ?_, Or.inl ⟨_, rfl⟩⟩
      simp [verify, Outcome.exact, way, byteOffsets, comparable.leftKind, elementSize?, known,
        show size ≤ 0 by omega, Bind.bind, Except.bind, throw, throwThe, MonadExceptOf.throw]

/-- The check of an exact answer for an interval in the shape of the array on its right. -/
theorem settles_leftShaped [Limits] {left right shaped : Region} {element low high : Int}
    (reshaped : Reshaped shaped right left element low high) (comparable : shaped.Comparable right)
    (leftModerate : left.Moderate) (rightModerate : right.Moderate) {budget : Int}
    {comparison : Comparison} (related : shaped.relateAxes right budget {} = .ok comparison)
    (exact : comparison.outcome.relation = .exact) :
    Settles left right comparison := by
  -- The interval is listed by itself, with the bytes of the shape that was compared.
  have arrays := listsArrays_byteOffsets reshaped.positive
  have way : listingFor left right = byteOffsets := by simp [listingFor, reshaped.targetKind]
  obtain ⟨common, leftRest, rightRest, rfl, shared, leftMade, rightMade⟩ :=
    relateAxes_exact comparable related exact
  apply verify_settles way
    (interval_cases reshaped.targetKind reshaped.bounds reshaped.ordered leftModerate)
    (reshaped.array_cases comparable.rightValid rightModerate)
  · intro interval
    exact interval.lists.imp fun _ listed => listed.1
  · intro interval enumerable
    exact verify_arrays comparable (reshaped.enumerable interval enumerable) enumerable way arrays
      reshaped.positive (reshaped.lists interval) (enumerable.lists arrays reshaped.positive) shared
        leftMade rightMade

/-- The check of an exact answer for an interval in the shape of the array on its left. -/
theorem settles_rightShaped [Limits] {left right shaped : Region} {element low high : Int}
    (reshaped : Reshaped shaped left right element low high) (comparable : left.Comparable shaped)
    (leftModerate : left.Moderate) (rightModerate : right.Moderate) {budget : Int}
    {comparison : Comparison} (related : left.relateAxes shaped budget {} = .ok comparison)
    (exact : comparison.outcome.relation = .exact) :
    Settles left right comparison := by
  -- The same with the sides exchanged: now the array is listed first.
  have arrays := listsArrays_byteOffsets reshaped.positive
  have way : listingFor left right = byteOffsets := by simp [listingFor, reshaped.targetKind]
  obtain ⟨common, leftRest, rightRest, rfl, shared, leftMade, rightMade⟩ :=
    relateAxes_exact comparable related exact
  apply verify_settles way (reshaped.array_cases comparable.leftValid leftModerate)
    (interval_cases reshaped.targetKind reshaped.bounds reshaped.ordered rightModerate)
  · intro enumerable
    exact (enumerable.lists arrays reshaped.positive).imp fun _ listed => listed.1
  · intro enumerable interval
    exact verify_arrays comparable enumerable (reshaped.enumerable interval enumerable) way arrays
      reshaped.positive (enumerable.lists arrays reshaped.positive) (reshaped.lists interval) shared
        leftMade rightMade

/-- The check of an exact answer for moderate regions of one object ends as the
listing of the two regions does. -/
theorem settles_intersect [Limits] {left right : Region}
    (same : SameObject left.object right.object) (leftValid : AllValid left.axes)
    (rightValid : AllValid right.axes) (leftModerate : left.Moderate)
    (rightModerate : right.Moderate) {budget : Int} {comparison : Comparison}
    (answered : left.intersect right budget = .ok comparison)
    (exact : comparison.outcome.relation = .exact) :
    Settles left right comparison := by
  -- The answer is exact on four of the five ways that a comparison can take.
  obtain ⟨object, route⟩ := route_of_intersect same leftValid rightValid answered
  cases route with
  | bytes leftKind rightKind related =>
    -- Bytes are compared without any axes.
    subst related
    exact settles_relateBytes same leftKind rightKind leftModerate rightModerate exact
  | axes leftKind rightKind related =>
    -- Arrays are compared only if their sizes agree.
    rcases relateAxes_sizes leftValid rightValid related with imprecise |
      ⟨element, sizes | ⟨-, disjoint⟩⟩
    · simp [imprecise, Outcome.imprecise] at exact
    · have comparable : left.Comparable right :=
        ⟨object, same, leftKind, rightKind, leftValid, rightValid, element, sizes⟩
      exact settles_relateAxes comparable leftModerate rightModerate related exact
    · simp [disjoint, Outcome.disjoint] at exact
  | leftShaped shaped element low high reshaped related =>
    -- One of the regions was brought into the shape of the other one first.
    have comparable := reshaped.comparable rightValid object same
    exact settles_leftShaped reshaped comparable leftModerate rightModerate related exact
  | rightShaped shaped element low high reshaped related =>
    have comparable :=
      (reshaped.comparable leftValid (object_ne_none_of_same object same)
        (sameObject_symm same)).symm
    exact settles_rightShaped reshaped comparable leftModerate rightModerate related exact
  | imprecise outcome => simp [outcome, Outcome.imprecise] at exact

/-- The check of an exact answer for moderate regions of one object passes, unless the
addresses of a region are not known or a region exceeds a limit of the machine. That addresses
are not known is said in a message about the region, and where that message holds a number that
is too long, this shows instead. -/
theorem verify_intersect_exact [Limits] {left right : Region}
    (same : SameObject left.object right.object) (leftValid : AllValid left.axes)
    (rightValid : AllValid right.axes) (leftModerate : left.Moderate)
    (rightModerate : right.Moderate) {budget : Int} {comparison : Comparison}
    (answered : left.intersect right budget = .ok comparison)
    (exact : comparison.outcome.relation = .exact) :
    (comparison.verifyTold left right = .ok [] ∧ ∀ fault, ¬ left.Overfull fault ∧
      ¬ right.Overfull fault) ∨
    (∃ cause, verify left right comparison.outcome (some comparison.left) (some comparison.right) =
        .error (.unlisted cause) ∧
      comparison.verifyTold left right =
        .error (if ∀ number ∈ cause.region.numbers, Writable number then .unlisted cause
          else .longNumber)) ∨
    ∃ fault, comparison.verifyTold left right = .error fault ∧
      (left.Overfull fault ∨ right.Overfull fault) := by
  rcases settles_intersect same leftValid rightValid leftModerate rightModerate answered exact with
    ⟨passed, within⟩ | ⟨fault, failed, ⟨cause, rfl⟩ | overfull⟩
  · exact .inl ⟨verifyTold_of_none passed, within⟩
  · exact .inr (.inl ⟨cause, failed, by rw [verifyTold_of_error failed, Fault.told_eq]; rfl⟩)
  · -- A limit of the machine is said without a number.
    refine .inr (.inr ⟨fault, ?_, overfull⟩)
    rw [verifyTold_of_error failed, told_of_overfull overfull]

open scoped Limits

/-- The bytes of a row against every second element of several rows: the check passes. An array of
65 axes against itself: the answer is exact, and the check gives no answer. An array whose inner
size is not known cannot be listed, and that is not said when its outer size has too many digits. -/
theorem verify_intersect_exact_limits :
    let row : Region := ⟨some (.name "A"), .flat, some 20, some 40, []⟩
    let array (axes : List Axis) : Region := ⟨some (.name "A"), .perAxis, none, some 4, axes⟩
    let elements := array [⟨0, 1, 3, 4⟩, ⟨1, 2, 2, 5⟩]
    let common := array [⟨1, 1, 1, 4⟩, ⟨1, 2, 2, 5⟩]
    let rowRest := [array [⟨1, 1, 1, 4⟩, ⟨0, 2, 3, 5⟩]]
    let elementsRest := [[⟨0, 1, 1, 4⟩, ⟨1, 2, 2, 5⟩], [⟨2, 1, 1, 4⟩, ⟨1, 2, 2, 5⟩]].map array
    let deep := array (List.replicate 65 ⟨0, 1, 1, 1⟩)
    let vast := array [⟨0, 1, 1, (10 ^ 4300 : Nat)⟩, ⟨0, 1, 1, 0⟩]
    (row.intersect elements = .ok ⟨.exact common, rowRest, elementsRest⟩ ∧
      (⟨.exact common, rowRest, elementsRest⟩ : Comparison).verifyTold row elements = .ok []) ∧
    (deep.intersect deep = .ok ⟨.exact deep, [], []⟩ ∧
      (⟨.exact deep, [], []⟩ : Comparison).verifyTold deep deep = .error .tooMany ∧
        deep.Overfull .tooMany) ∧
    vast.intersect vast = .ok ⟨.exact vast, [], []⟩ ∧
      verify vast vast (.exact vast) (some []) (some []) = .error (.unlisted (.axisSize 1 vast)) ∧
      (⟨.exact vast, [], []⟩ : Comparison).verifyTold vast vast = .error .longNumber := by
  intro row array elements common rowRest elementsRest deep vast
  -- All three regions are moderate, so a check can only fail for the reasons in the theorem.
  have rowModerate : row.Moderate := by
    refine ⟨fun address occupied => ?_, by simp [row]⟩
    obtain ⟨low, high, bounds, above, below⟩ := occupied
    obtain ⟨rfl, rfl⟩ : 20 = low ∧ 40 = high := by simpa [row, bounds?] using bounds
    omega
  have elementsModerate : elements.Moderate :=
    moderate_of_span rfl (by decide) (by decide) (by decide)
  have deepModerate : deep.Moderate := moderate_of_span rfl (by decide) (by decide) (by decide)
  have answered : row.intersect elements = .ok ⟨.exact common, rowRest, elementsRest⟩ := by
    decide +kernel
  have deepAnswered : deep.intersect deep = .ok ⟨.exact deep, [], []⟩ := by decide +kernel
  have failing : (⟨.exact deep, [], []⟩ : Comparison).verifyTold deep deep = .error .tooMany := by
    decide +kernel
  refine ⟨⟨answered, ?_⟩,
    ⟨deepAnswered, failing, ?_⟩, by decide +kernel, by decide +kernel, by decide +kernel⟩
  · -- The check of the row has a result, and neither region is overfull.
    have listed : (verify row elements (.exact common) (some rowRest) (some elementsRest)).isOk =
        true := by
      decide +kernel
    have within : ∀ fault, ¬ (row.Overfull fault ∨ elements.Overfull fault) := by
      rintro (_ | _ | _ | _ | _ | _ | _ | _ | _ | _ | _) <;> simp only [Overfull] <;> decide
    rcases verify_intersect_exact (by decide) (by decide) (by decide) rowModerate elementsModerate
      answered rfl with
      ⟨passed, -⟩ | ⟨cause, failed, -⟩ | ⟨fault, -, overfull⟩
    · exact passed
    · rw [show verify row elements (.exact common) (some rowRest) (some elementsRest) = _
        from failed] at listed
      cases listed
    · exact (within fault overfull).elim
  · -- The array has too many axes, which is what the theorem leaves as the reason.
    rcases verify_intersect_exact (by decide) (by decide) (by decide) deepModerate deepModerate
      deepAnswered rfl with
      ⟨passed, -⟩ | ⟨cause, -, failed⟩ | ⟨fault, failed, overfull⟩
    · cases failing.symm.trans passed
    · -- What cannot be listed is not a limit.
      have other := Except.error.inj (failing.symm.trans failed)
      split at other <;> cases other
    · rw [Except.error.inj (failing.symm.trans failed)]
      exact overfull.elim id id

end Region

end Overlap
