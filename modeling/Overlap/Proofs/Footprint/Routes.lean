import Overlap.Proofs.Footprint.Disjoint
import Overlap.Proofs.Footprint.Exact
import Overlap.Proofs.Relation.Exchange

/-! Byte intervals compare as their shapes do: comparing bytes and comparing axis by axis
are two routes to one answer. -/

namespace Overlap

/-- A part that takes the steps of the whole skips no phase. -/
theorem Axis.phases_of_step {part whole : Axis} (rising : 0 < whole.step)
    (step : part.step = whole.step) :
    part.phases whole = 0 := by
  -- One step of the part passes no other position of the whole.
  rw [phases, step, Int.fdiv_self (Int.ne_of_gt rising)]
  split <;> rfl

/-- Taking away parts that take the steps of their wholes exceeds no budget. -/
theorem leftoverAxes_of_steps {parts wholes : List Axis} (partsOf : PartsOf parts wholes)
    (steps : parts.map Axis.step = wholes.map Axis.step) {budget : Int} (nonneg : 0 ≤ budget) :
    ∃ pieces, leftoverAxes budget wholes parts = .ok (some pieces) := by
  -- No axis skips a phase, so none of them ends the collection.
  induction partsOf with
  | nil => exact ⟨[], rfl⟩
  | @cons part whole parts wholes first others ih =>
    obtain ⟨step, innerSteps⟩ := List.cons.inj steps
    obtain ⟨rests, inner⟩ := ih innerSteps
    have silent := Axis.phases_of_step first.wholeValid.2.1 step
    rcases Axis.difference_cases first.valid first.wholeValid first.aligned first.subset budget with
      ⟨exceeded, -⟩ | ⟨firsts, -, within, -⟩
    · omega
    · refine ⟨firsts.map (· :: wholes) ++ rests.map (part :: ·), ?_⟩
      simp [leftoverAxes, within, inner, Bind.bind, Except.bind, Pure.pure, Except.pure]

namespace Region

/-- What is left of a region outside parts that take its steps is always narrowed down. -/
theorem leftover_narrow {region : Region} {parts : List Axis} (partsOf : PartsOf parts region.axes)
    (steps : parts.map Axis.step = region.axes.map Axis.step) {budget : Int} (nonneg : 0 ≤ budget)
    {fragments : List Region} (made : region.leftover parts budget = .ok fragments) :
    ∀ fragment ∈ fragments, fragment.kind = .perAxis := by
  -- Within the budget, every fragment is given by axes.
  obtain ⟨pieces, within⟩ := leftoverAxes_of_steps partsOf steps nonneg
  simp only [leftover, within, Bind.bind, Except.bind, Pure.pure, Except.pure, Except.ok.injEq]
    at made
  subst made
  intro fragment member
  obtain ⟨axes, -, rfl⟩ := List.mem_map.mp member
  rfl

/-- Comparable regions with the same steps leave fragments that are narrowed down. -/
theorem relateAxes_narrow {left right : Region} (comparable : left.Comparable right)
    (steps : left.axes.map Axis.step = right.axes.map Axis.step) {budget : Int}
    (nonneg : 0 ≤ budget) {comparison : Comparison}
    (related : left.relateAxes right budget {} = .ok comparison) :
    ∀ fragment ∈ comparison.left ++ comparison.right, fragment.kind = .perAxis := by
  obtain ⟨-, -, leftKind, rightKind, leftValid, rightValid, element, sizes⟩ := comparable
  have shape : ¬ (left.axes.length ≠ right.axes.length ∨ left.upper ≠ right.upper) := by
    simp [sizes.length_eq, element]
  by_cases equal : left.lower = right.lower ∧ left.axes = right.axes
  · -- Equal regions leave nothing.
    rw [relateAxes_of_equal leftValid rightValid shape equal] at related
    simp [← Except.ok.inj related]
  · rcases meetAxes_cases leftValid rightValid sizes 0 with ⟨axis, met, -⟩ | ⟨commons, met, all⟩
    · rw [relateAxes_eq_settle leftValid rightValid shape equal met] at related
      simp [← Except.ok.inj related]
    · -- The common steps of equal steps are these steps.
      have leftSteps : commons.map Axis.step = left.axes.map Axis.step := by
        rw [all.steps, ← steps, jointSteps_self leftValid]
      obtain ⟨leftRest, rightRest, leftMade, rightMade, -, -, answer⟩ :=
        settle_shared leftKind rightKind all budget
      rw [relateAxes_eq_settle leftValid rightValid shape equal met, answer] at related
      obtain rfl := Except.ok.inj related
      intro fragment member
      rcases List.mem_append.mp member with inLeft | inRight
      · exact leftover_narrow all.left leftSteps nonneg leftMade fragment inLeft
      · exact leftover_narrow all.right (leftSteps.trans steps) nonneg rightMade fragment inRight

end Region

/-- The distance of two numbers that are not negative can be written if both numbers can. -/
theorem Writable.distance {value other : Int} (writable : Writable value)
    (otherWritable : Writable other) (nonneg : 0 ≤ value) (otherNonneg : 0 ≤ other) :
    Writable (value - other) := by
  -- The larger one of the two numbers bounds their distance.
  rcases Int.le_total value other with le | le
  · exact otherWritable.of_natAbs_le (by omega)
  · exact writable.of_natAbs_le (by omega)

/-- The part that two axes of the same step share takes this step. -/
theorem Axis.Meets.step_eq {common left right : Axis} (meets : common.Meets left right)
    (rising : 0 < left.step) (step : left.step = right.step) : common.step = left.step := by
  -- The least common multiple of a number with itself is the number.
  rw [meets.step, ← step, Int.lcm_self, Int.natAbs_of_nonneg (Int.le_of_lt rising)]

/-- A difference without skipped phases is not over budget. -/
theorem tellBudget_of_step {whole part : Axis} (rising : 0 < whole.step)
    (step : part.step = whole.step) {budget : Int} (nonneg : 0 ≤ budget) (collecting : Bool) :
    tellBudget whole part budget collecting = [] := by
  -- Equal steps skip nothing, and nothing exceeds no budget.
  simp [tellBudget, Axis.phases_of_step rising step, nonneg]

/-- Comparing axes of the same steps whose numbers can be written
brings up no number that cannot. -/
theorem tellable_tellAxes_of_steps {lefts rights : List Axis} (leftValid : AllValid lefts)
    (rightValid : AllValid rights) (sizes : SameSizes lefts rights)
    (steps : lefts.map Axis.step = rights.map Axis.step)
    (leftWritten : ∀ number ∈ lefts.flatMap Axis.fields, Writable number)
    (rightWritten : ∀ number ∈ rights.flatMap Axis.fields, Writable number)
    {budget : Int} (nonneg : 0 ≤ budget) (number : Nat) (wanted : Wanted) :
    Tellable false (tellAxes budget number wanted lefts rights) := by
  induction sizes.forall₂ generalizing number wanted with
  | nil => simp [tellAxes, Tellable, heard]
  | @cons left right lefts rights _ _ ih =>
    obtain ⟨leftFirst, leftRest⟩ := allValid_cons.mp leftValid
    obtain ⟨rightFirst, rightRest⟩ := allValid_cons.mp rightValid
    obtain ⟨size, innerSizes⟩ := sameSizes_cons.mp sizes
    obtain ⟨step, innerSteps⟩ := List.cons.inj steps
    rw [List.flatMap_cons, List.forall_mem_append] at leftWritten rightWritten
    have rest := ih leftRest rightRest innerSizes innerSteps leftWritten.2 rightWritten.2
    simp only [Axis.fields, List.forall_mem_cons] at leftWritten rightWritten
    -- The equation holds the two steps and the distance of the two starts.
    have equation : Tellable false (if left.Apart right then []
        else [.equation left.step (-right.step) (right.start - left.start)]) := by
      split
      · simp [Tellable, heard]
      · refine tellable_singleton.mpr fun _ => ?_
        have nonzero : left.step ≠ 0 := Int.ne_of_gt leftFirst.2.1
        have otherNonzero : -right.step ≠ 0 := by have := rightFirst.2.1; omega
        refine (writable_equationNumbers nonzero otherNonzero _).mpr ⟨leftWritten.1.2.1, ?_, ?_⟩
        · exact writable_neg.mpr rightWritten.1.2.1
        · exact rightWritten.1.1.distance leftWritten.1.1 rightFirst.1 leftFirst.1
    -- What the axes share is only told in a trace.
    have unheard : ∀ common, Tellable false [.axisMeet number left right common] :=
      fun common => tellable_singleton.mpr (by simp [Event.isTrace, Event.origin?])
    rw [tellAxes, if_neg (by simp [size])]
    refine tellable_append.mpr ⟨equation, tellable_cons.mpr ⟨unheard _, ?_⟩⟩
    rcases Axis.meet_cases leftFirst rightFirst with ⟨met, -⟩ | ⟨common, met, meets⟩
    · simp [met, Except.toOption, Tellable, heard]
    · -- The shared axis skips no phase of either side, so no budget is exceeded.
      have shared := meets.step_eq leftFirst.2.1 step
      simp only [met, Except.toOption, Option.join_some,
        tellBudget_of_step leftFirst.2.1 shared nonneg,
        tellBudget_of_step rightFirst.2.1 (shared.trans step) nonneg, List.nil_append]
      exact rest (number + 1) _

namespace Region

/-- A byte interval and its shape were told, so all of their numbers can be written. -/
theorem reshape_of_reshapeTold {array target shaped : Region}
    (made : array.reshapeTold target = .ok (some shaped)) :
    array.reshape target = .ok shaped ∧
      ∀ number ∈ target.numbers ++ shaped.numbers, Writable number := by
  -- Only a shape that was found is returned, and it is returned behind the note on it.
  unfold reshapeTold at made
  cases result : array.reshape target with
  | error obstacle =>
    rw [result] at made
    cases obstacle
    case unsuited => simp [Pure.pure, Except.pure] at made
    all_goals
      -- The reason is told, and then nothing is returned.
      simp only [tell_eq, Except.toOption, Bind.bind, Except.bind, Pure.pure, Except.pure] at made
      split at made <;> simp_all
  | ok region =>
    simp only [result, tell_eq, Except.toOption, Bind.bind, Except.bind, Pure.pure, Except.pure]
      at made
    by_cases told : Tellable false [.reshaped array target (.ok region)]
    · simp only [told, if_true, Except.ok.injEq, Option.some.injEq] at made
      subst made
      exact ⟨rfl, tellable_singleton.mp told rfl⟩
    · simp [told] at made

/-- A shape has steps of one along every axis. -/
theorem steps_of_reshape {array target shaped : Region} (made : array.reshape target = .ok shaped) :
    shaped.axes.map Axis.step = array.axes.map fun _ => 1 := by
  obtain ⟨element, low, high, -, -, rfl⟩ := suits_of_reshape made
  -- The extents are found axis by axis, and each of them is taken position by position.
  have each : ∀ axes, ((extents element low (high - 1) axes).map Extent.toAxis).map Axis.step =
      axes.map fun _ => (1 : Int) := by
    intro axes
    induction axes with
    | nil => rfl
    | cons axis inner ih => simp [extents, Extent.toAxis, ← ih]
  exact each array.axes

/-- A region given per axis has the bytes of its elements. -/
theorem touches_perAxis_iff {region : Region} {size : Int} (kind : region.kind = .perAxis)
    (upper : region.upper = some size) {address : Int} :
    region.Touches address ↔ Covers region.axes size address := by
  -- The element size is the unit in which the bytes are counted.
  simp [Touches, kind, upper]

end Region

open Region

/-- The same bytes belong to some region of either list. -/
def SameBytes (regions others : List Region) : Prop :=
  -- The regions may overlap, and may be cut in different ways.
  ∀ address, (∃ region ∈ regions, region.Touches address) ↔
    ∃ region ∈ others, region.Touches address

/-- An answer that is right about every byte. Either nothing is shared and no byte is common, or
the shared part has the common bytes, of which there are some, and the leftover parts of either
region have its other bytes. -/
inductive Comparison.Bytewise (comparison : Comparison) (left right : Region) : Prop where
  -- Either nothing is shared and the answer says so, or the answer holds exactly what is shared.
  | disjoint (outcome : comparison.outcome = .disjoint)
      (none : ∀ address, ¬ (left.Touches address ∧ right.Touches address))
  | exact (common : Region) (outcome : comparison.outcome = .exact common)
      (some : ∃ address, left.Touches address ∧ right.Touches address)
      (shared : ∀ address, common.Touches address ↔ left.Touches address ∧ right.Touches address)
      (leftRest : ∀ address, (∃ fragment ∈ comparison.left, fragment.Touches address) ↔
        left.Touches address ∧ ¬ right.Touches address)
      (rightRest : ∀ address, (∃ fragment ∈ comparison.right, fragment.Touches address) ↔
        right.Touches address ∧ ¬ left.Touches address)

namespace Comparison.Bytewise

/-- Regions with the same bytes have the same right answers. -/
theorem congr {comparison : Comparison} {left right other another : Region}
    (bytewise : comparison.Bytewise left right)
    (leftSame : ∀ address, left.Touches address ↔ other.Touches address)
    (rightSame : ∀ address, right.Touches address ↔ another.Touches address) :
    comparison.Bytewise other another := by
  -- All conditions speak of addresses only.
  cases bytewise with
  | disjoint outcome none =>
    simp only [leftSame, rightSame] at none
    exact .disjoint outcome none
  | exact common outcome some shared leftRest rightRest =>
    simp only [leftSame, rightSame] at some shared leftRest rightRest
    exact .exact common outcome some shared leftRest rightRest

/-- Two answers that are right about every byte agree: both are disjoint or both exact, with the
same bytes in the shared parts and in the leftover parts. -/
theorem agrees {first second : Comparison} {left right : Region}
    (firstRight : first.Bytewise left right) (secondRight : second.Bytewise left right) :
    first.outcome = .disjoint ∧ second.outcome = .disjoint ∨
      ∃ common shared, first.outcome = .exact common ∧ second.outcome = .exact shared ∧
        SameBytes [common] [shared] ∧ SameBytes first.left second.left ∧
          SameBytes first.right second.right := by
  cases firstRight with
  | disjoint outcome none =>
    cases secondRight with
    | disjoint otherOutcome _ => exact Or.inl ⟨outcome, otherOutcome⟩
    | exact _ _ some _ _ _ =>
      -- There is a common byte, or there is none.
      obtain ⟨address, both⟩ := some
      exact absurd both (none address)
  | exact common outcome some shared leftRest rightRest =>
    cases secondRight with
    | disjoint _ none =>
      obtain ⟨address, both⟩ := some
      exact absurd both (none address)
    | exact other otherOutcome _ otherShared otherLeft otherRight =>
      -- Two sets of bytes with the same members are the same.
      refine Or.inr ⟨common, other, outcome, otherOutcome, fun address => ?_, fun address => ?_,
        fun address => ?_⟩
      · simp [shared, otherShared]
      · rw [leftRest, otherLeft]
      · rw [rightRest, otherRight]

end Comparison.Bytewise

namespace Region

/-- Two intervals with bounds are compared byte by byte. -/
theorem bytewise_relateBytes {left right : Region} {low high otherLow otherHigh : Int}
    (same : SameObject left.object right.object) (leftKind : left.kind = .flat)
    (rightKind : right.kind = .flat) (bounds : left.bounds? = some (low, high))
    (otherBounds : right.bounds? = some (otherLow, otherHigh)) :
    (left.relateBytes right {}).Bytewise left right := by
  -- Both intervals hold the bytes between their bounds.
  have inLeft := fun address => @touches_flat_iff left low high leftKind bounds address
  have inRight :=
    fun address => @touches_flat_iff right otherLow otherHigh rightKind otherBounds address
  by_cases apart : high ≤ otherLow ∨ otherHigh ≤ low ∨ high ≤ low ∨ otherHigh ≤ otherLow
  · -- A common byte would lie between all four bounds.
    refine .disjoint (by simp [relateBytes, meetBytes, same, bounds, otherBounds, apart])
      fun address both => ?_
    rw [inLeft, inRight] at both
    omega
  · -- The common part starts with the byte at the larger lower bound.
    obtain ⟨common, shape⟩ : ∃ common : Region,
        common =
          { left with lower := some (max low otherLow), upper := some (min high otherHigh) } :=
      ⟨_, rfl⟩
    have answer : left.relateBytes right {} =
        ⟨.exact common, left.outside common, right.outside common⟩ := by
      simp [relateBytes, meetBytes, same, bounds, otherBounds, apart, shape]
    have commonKind : common.kind = .flat := by simp [shape, leftKind]
    have commonBounds : common.bounds? = some (max low otherLow, min high otherHigh) := by
      simp [shape, bounds?]
    rw [answer]
    refine .exact common rfl ⟨max low otherLow, ?_⟩ (fun address => ?_) (fun address => ?_)
      fun address => ?_
    · -- The first byte of the common part lies in both intervals.
      rw [inLeft, inRight]
      omega
    · rw [touches_flat_iff commonKind commonBounds, inLeft, inRight]
      omega
    · -- What is left of either interval is what lies outside the common part.
      rw [touches_outside_iff leftKind bounds commonBounds (by omega) (by omega) (by omega),
        inLeft, inRight]
      omega
    · rw [touches_outside_iff rightKind otherBounds commonBounds (by omega) (by omega) (by omega),
        inLeft, inRight]
      omega

/-- Leftover parts that are narrowed down have the bytes of their region outside the common part. -/
theorem Rest.touches_iff {rest : List Region} {common base : Region} (made : Rest rest common base)
    (narrow : ∀ fragment ∈ rest, fragment.kind = .perAxis) (kind : base.kind = .perAxis)
    (valid : AllValid base.axes) (sized : InnerSized base.axes) {size : Int}
    (upper : base.upper = some size) (commonKind : common.kind = .perAxis)
    (commonUpper : common.upper = some size) (sizes : SameSizes common.axes base.axes)
    (inside : ∀ tuple, common.Holds tuple → base.Holds tuple) (address : Int) :
    (∃ fragment ∈ rest, fragment.Touches address) ↔
      base.Touches address ∧ ¬ common.Touches address := by
  rcases made with widened | ⟨fragments, splits⟩
  · -- The mark for the whole region is not narrowed down.
    subst widened
    cases narrow base.widen List.mem_cons_self
  · rw [touches_perAxis_iff kind upper, touches_perAxis_iff commonKind commonUpper,
      ← covers_fragments_iff fragments splits kind commonKind valid sized sizes inside]
    refine exists_congr fun fragment => and_congr_right fun member => ?_
    have fragmentOf := fragments fragment member
    exact touches_perAxis_iff fragmentOf.kind (fragmentOf.upper.trans upper)

/-- Comparable arrays with the same steps are compared byte by byte, as
far as their bytes are known. -/
theorem bytewise_relateAxes {left right : Region} (comparable : left.Comparable right)
    (steps : left.axes.map Axis.step = right.axes.map Axis.step) (sized : InnerSized left.axes)
    {size : Int} (upper : left.upper = some size) (positive : 0 < size) {budget : Int}
    (nonneg : 0 ≤ budget) {comparison : Comparison}
    (related : left.relateAxes right budget {} = .ok comparison) :
    comparison.Bytewise left right := by
  -- Both arrays have elements of one size.
  have otherUpper : right.upper = some size := comparable.element ▸ upper
  have narrow := relateAxes_narrow comparable steps nonneg related
  rcases relateAxes_cases comparable budget {} with ⟨found, -⟩ |
    ⟨common, leftRest, rightRest, found, shared, leftMade, rightMade⟩
  · -- Arrays without a common tuple have no common byte.
    obtain rfl := Except.ok.inj (found.symm.trans related)
    exact .disjoint rfl (not_touches_of_relateAxes comparable sized related rfl)
  · obtain rfl := Except.ok.inj (found.symm.trans related)
    obtain ⟨leftNarrow, rightNarrow⟩ := List.forall_mem_append.mp narrow
    -- The shared array is a fragment, so it has the sizes and the element of both.
    have fragment := shared.fragment
    have commonUpper := fragment.upper.trans upper
    have inCommon : ∀ address, common.Touches address ↔
        left.Touches address ∧ right.Touches address := by
      intro address
      rw [touches_perAxis_iff fragment.kind commonUpper,
        touches_perAxis_iff comparable.leftKind upper,
        touches_perAxis_iff comparable.rightKind otherUpper]
      exact shared.covers_iff comparable sized
    refine .exact common rfl ?_ inCommon (fun address => ?_) fun address => ?_
    · -- The shared axes are well-formed, so they have a tuple, and its element has a first byte.
      obtain ⟨tuple, held⟩ := exists_inAxes fragment.valid
      refine ⟨rowMajor common.axes tuple * size + 0, (inCommon _).mp ?_⟩
      rw [touches_perAxis_iff fragment.kind commonUpper]
      exact ⟨tuple, 0, held, Int.le_refl 0, positive, rfl⟩
    · -- The fragments on either side have the bytes of the tuples that are not shared.
      rw [(leftMade rfl).touches_iff leftNarrow comparable.leftKind comparable.leftValid sized
        upper fragment.kind commonUpper fragment.sizes
        fun tuple held => ((shared.mem tuple).mp held).1, inCommon]
      tauto
    · rw [(rightMade rfl).touches_iff rightNarrow comparable.rightKind comparable.rightValid
        (sized.congr comparable.sizes) otherUpper fragment.kind commonUpper
        (fragment.sizes.trans comparable.sizes)
        fun tuple held => ((shared.mem tuple).mp held).2, inCommon]
      tauto

/-- The comparison of two intervals tells no other numbers than theirs. -/
theorem tellable_account_intervals {left right : Region} (leftKind : left.kind = .flat)
    (rightKind : right.kind = .flat)
    (written : ∀ number ∈ left.numbers ++ right.numbers, Writable number)
    (budget : Int) (wanted : Wanted) (comparison : Comparison) :
    Tellable false (account left right budget wanted comparison) := by
  have silent : Tellable false [] := by simp [Tellable, heard]
  have note : ∀ meet, Tellable false [.intervals left right meet] :=
    fun meet => tellable_singleton.mpr fun _ => written
  refine tellable_append.mpr ⟨?_, ?_⟩
  · -- No shape is changed, and intervals that do not meet are told with their bounds.
    simp only [tellSteps, alignShapes, tellShapes, leftKind, rightKind, List.nil_append,
      tellIntervals]
    split
    · exact silent
    · split
      · exact note _
      · exact note _
      · exact silent
  · -- Only arrays are summed up.
    simp only [tellSummary, alignShapes, leftKind, rightKind]
    split <;> exact silent

/-- The comparison of two arrays with the same steps tells numbers that can be written
if those of the arrays can. -/
theorem tellable_account_arrays {left right : Region} (comparable : left.Comparable right)
    (steps : left.axes.map Axis.step = right.axes.map Axis.step)
    (leftWritten : ∀ number ∈ left.axes.flatMap Axis.fields, Writable number)
    (rightWritten : ∀ number ∈ right.axes.flatMap Axis.fields, Writable number) {budget : Int}
    (nonneg : 0 ≤ budget) (wanted : Wanted) (comparison : Comparison) :
    Tellable false (account left right budget wanted comparison) := by
  have silent : Tellable false [] := by simp [Tellable, heard]
  refine tellable_append.mpr ⟨?_, ?_⟩
  · -- Two arrays are not reshaped, so only their axes have something to tell.
    simp only [tellSteps, comparable.same, not_true_eq_false, if_false, alignShapes, tellShapes,
      comparable.leftKind, comparable.rightKind, List.nil_append, tellArrays,
      comparable.sizes.length_eq, comparable.element, ne_eq]
    split
    · exact silent
    · exact tellable_tellAxes_of_steps comparable.leftValid comparable.rightValid comparable.sizes
        steps leftWritten rightWritten nonneg 0 wanted
  · -- A summary is only told in a trace.
    simp only [tellSummary, alignShapes, comparable.leftKind, comparable.rightKind]
    split
    · exact silent
    · split
      · exact tellable_singleton.mpr (by simp [Event.isTrace, Event.origin?])
      · exact silent

/-- The numbers of the axes are among those of an array. -/
theorem writable_fields {region : Region} (kind : region.kind = .perAxis)
    (written : ∀ number ∈ region.numbers, Writable number) :
    ∀ number ∈ region.axes.flatMap Axis.fields, Writable number := by
  -- The written form of an array holds all fields of its axes.
  intro number member
  refine written number ?_
  simp only [numbers, kind, List.mem_append]
  exact Or.inl (Or.inr member)

/-- Intervals of one object in the shape of one array can be compared axis by axis. -/
theorem Reshaped.comparable_shapes {array left right leftShape rightShape : Region}
    {size low high otherLow otherHigh : Int}
    (leftReshaped : Reshaped leftShape array left size low high)
    (rightReshaped : Reshaped rightShape array right size otherLow otherHigh)
    (object : left.object ≠ none) (same : SameObject left.object right.object) :
    leftShape.Comparable rightShape where
  -- Both shapes come from one array, so they agree in everything but the indices along the axes.
  object := leftReshaped.object ▸ object
  same := by rw [leftReshaped.object, rightReshaped.object]; exact same
  leftKind := leftReshaped.kind
  rightKind := rightReshaped.kind
  leftValid := leftReshaped.fills.valid
  rightValid := rightReshaped.fills.valid
  element := leftReshaped.upper.trans rightReshaped.upper.symm
  sizes := leftReshaped.sizes.trans rightReshaped.sizes.symm

/-- Two intervals of one object that take the shape of an array are compared alike by their bytes
and axis by axis. Both comparisons give an answer; both answers are disjoint, or both are exact, and
then the shared parts have the same bytes and so have the leftover parts on either side. -/
theorem intersect_routes_agree {array left right leftShape rightShape : Region}
    (valid : AllValid array.axes) (object : left.object ≠ none)
    (same : SameObject left.object right.object)
    (leftMade : array.reshapeTold left = .ok (some leftShape))
    (rightMade : array.reshapeTold right = .ok (some rightShape))
    {budget : Int} (nonneg : 0 ≤ budget) :
    ∃ bytes axes, (left.intersectTold right budget {} false).map Prod.fst = .ok bytes ∧
      (leftShape.intersectTold rightShape budget {} false).map Prod.fst = .ok axes ∧
      (bytes.outcome = .disjoint ∧ axes.outcome = .disjoint ∨
        ∃ common shared, bytes.outcome = .exact common ∧ axes.outcome = .exact shared ∧
          SameBytes [common] [shared] ∧ SameBytes bytes.left axes.left ∧
            SameBytes bytes.right axes.right) := by
  obtain ⟨leftReshape, leftWritten⟩ := reshape_of_reshapeTold leftMade
  obtain ⟨rightReshape, rightWritten⟩ := reshape_of_reshapeTold rightMade
  obtain ⟨size, low, high, leftReshaped⟩ := reshaped_of_reshape valid leftReshape
  obtain ⟨size', otherLow, otherHigh, rightReshaped⟩ := reshaped_of_reshape valid rightReshape
  obtain rfl : size = size' := by simpa [leftReshaped.arrayUpper] using rightReshaped.arrayUpper
  rw [List.forall_mem_append] at leftWritten rightWritten
  -- Both shapes have the axes of the array, in steps of one.
  have comparable := leftReshaped.comparable_shapes rightReshaped object same
  have steps := (steps_of_reshape leftReshape).trans (steps_of_reshape rightReshape).symm
  have sized := leftReshaped.sized.congr leftReshaped.sizes.symm
  -- On either route there is an answer, it is told, and it is right about every byte.
  have byBytes :=
    intersect_eq_relateBytes object same leftReshaped.targetKind rightReshaped.targetKind budget {}
  have flat :=
    bytewise_relateBytes same leftReshaped.targetKind rightReshaped.targetKind leftReshaped.bounds
    rightReshaped.bounds
  obtain ⟨axes, related⟩ : ∃ axes, leftShape.relateAxes rightShape budget {} = .ok axes := by
    rcases relateAxes_cases comparable budget {} with ⟨found, -⟩ |
      ⟨common, leftRest, rightRest, found, -⟩
    · exact ⟨_, found⟩
    · exact ⟨_, found⟩
  have along := bytewise_relateAxes comparable steps sized leftReshaped.upper leftReshaped.positive
    nonneg related
  have byAxes :=
    (intersect_eq_relateAxes comparable.object comparable.same comparable.leftKind
      comparable.rightKind
    budget {}).trans related
  refine ⟨left.relateBytes right {}, axes, ?_, ?_, ?_⟩
  · have written := List.forall_mem_append.mpr ⟨leftWritten.1, rightWritten.1⟩
    exact intersectTold_of_tellable byBytes
      (tellable_account_intervals leftReshaped.targetKind rightReshaped.targetKind written
        budget {} _)
  · have leftFields := writable_fields leftReshaped.kind leftWritten.2
    have rightFields := writable_fields rightReshaped.kind rightWritten.2
    exact intersectTold_of_tellable byAxes
      (tellable_account_arrays comparable steps leftFields rightFields nonneg {} axes)
  · -- A shape has the bytes of its interval, so both answers are about the same bytes.
    exact flat.agrees (along.congr (fun _ => leftReshaped.touches_iff) fun _ =>
      rightReshaped.touches_iff)

/-- Two whole rows and a part of one row: the bytes around that part are two intervals, or the other
row and two parts of the row. Either way they are the same bytes, also with no budget at all. -/
theorem intersect_routes_agree_rows :
    let array : Region := ⟨some (.name "B"), .perAxis, none, some 4, [⟨0, 1, 4, 4⟩, ⟨0, 2, 4, 8⟩]⟩
    let interval (low high : Int) : Region := ⟨some (.name "A"), .flat, some low, some high, []⟩
    let shape (axes : List Axis) : Region := ⟨some (.name "A"), .perAxis, none, some 4, axes⟩
    let rest := [interval 32 40, interval 48 96]
    let shapeRest := [[⟨2, 1, 1, 4⟩, ⟨0, 1, 8, 8⟩], [⟨1, 1, 1, 4⟩, ⟨0, 1, 2, 8⟩],
      [⟨1, 1, 1, 4⟩, ⟨4, 1, 4, 8⟩]].map shape
    array.reshapeTold (interval 32 96) = .ok (some (shape [⟨1, 1, 2, 4⟩, ⟨0, 1, 8, 8⟩])) ∧
      array.reshapeTold (interval 40 48) = .ok (some (shape [⟨1, 1, 1, 4⟩, ⟨2, 1, 2, 8⟩])) ∧
      (interval 32 96).intersect (interval 40 48) 0 = .ok ⟨.exact (interval 40 48), rest, []⟩ ∧
      (shape [⟨1, 1, 2, 4⟩, ⟨0, 1, 8, 8⟩]).intersect (shape [⟨1, 1, 1, 4⟩, ⟨2, 1, 2, 8⟩]) 0 =
        .ok ⟨.exact (shape [⟨1, 1, 1, 4⟩, ⟨2, 1, 2, 8⟩]), shapeRest, []⟩ ∧
      SameBytes rest shapeRest := by
  intro array interval shape rest shapeRest
  -- Both shapes and both answers are computed.
  have leftMade : array.reshapeTold (interval 32 96) =
      .ok (some (shape [⟨1, 1, 2, 4⟩, ⟨0, 1, 8, 8⟩])) := by
    decide +kernel
  have rightMade : array.reshapeTold (interval 40 48) =
      .ok (some (shape [⟨1, 1, 1, 4⟩, ⟨2, 1, 2, 8⟩])) := by
    decide +kernel
  have compared : (interval 32 96).intersect (interval 40 48) 0 =
      .ok ⟨.exact (interval 40 48), rest, []⟩ := by
    decide +kernel
  have shapesCompared :
    (shape [⟨1, 1, 2, 4⟩, ⟨0, 1, 8, 8⟩]).intersect (shape [⟨1, 1, 1, 4⟩, ⟨2, 1, 2, 8⟩]) 0 =
      .ok ⟨.exact (shape [⟨1, 1, 1, 4⟩, ⟨2, 1, 2, 8⟩]), shapeRest, []⟩ := by
    decide +kernel
  obtain ⟨bytes, axes, byBytes, byAxes, agree⟩ :=
    intersect_routes_agree (by decide) (by decide) (by decide) leftMade rightMade (Int.le_refl 0)
  -- The answers of the theorem are the computed ones.
  obtain rfl :=
    Except.ok.inj ((intersectTold_of_tellable compared (by decide +kernel)).symm.trans byBytes)
  obtain rfl :=
    Except.ok.inj ((intersectTold_of_tellable shapesCompared (by decide +kernel)).symm.trans byAxes)
  refine ⟨leftMade, rightMade, compared, shapesCompared, ?_⟩
  rcases agree with ⟨disjoint, -⟩ | ⟨common, shared, -, -, -, leftSame, -⟩
  · cases disjoint
  · exact leftSame

end Region

end Overlap
