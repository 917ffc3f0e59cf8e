import Overlap.Proofs.Footprint.Faults
import Overlap.Proofs.Phrase.RoundTrip

/-! The check of an answer stops for one of two reasons: one of the two regions that were
compared is not known, or a limit of the machine is reached. The parts that the answer is made of
are known whenever the regions are. -/

namespace Overlap

/-- The check of an outcome stops at a limit of the machine, or because one of
the two regions is not known. -/
def Stops (left right : Region) (fault : Fault) : Prop :=
  -- The machine may be too small, or one of the two regions says too little.
  fault ∈ machineFaults ∨
    ∃ cause, fault = .unlisted cause ∧ (cause.region = left ∨ cause.region = right)

/-- Where listing one of the two regions stops, the check may stop. -/
theorem stops_of_listing {left right region : Region} {fault : Fault}
    (side : region = left ∨ region = right)
    (reason : fault ∈ machineFaults ∨ ∃ cause, fault = .unlisted cause ∧ cause.region = region) :
    Stops left right fault := by
  -- What is said of the region that was listed is said of that side.
  rcases reason with limit | ⟨cause, same, named⟩
  · exact Or.inl limit
  · refine Or.inr ⟨cause, same, ?_⟩
    rwa [named]

section Check

open Region

variable {listing : Region → Except Fault (List Int)} {known : Region → Prop} {left right : Region}
  {fault : Fault}

/-- The check of one side stops where a leftover part is not listed. Parts that were not narrowed
down are not listed at all. -/
theorem checkSide_error {side : Side} {base : Region} {addresses common : List Int}
    {fragments : List Region}
    (failed : checkSide listing side base addresses common (some fragments) = .error fault) :
    ∃ part ∈ fragments, part.kind ≠ .whole ∧ listing part = .error fault := by
  simp only [checkSide] at failed
  split at failed
  · cases failed
  · -- No part is marked as not narrowed down, and all of them are listed in order.
    rename_i narrowed
    simp only [List.any_eq_true, beq_iff_eq, not_exists, not_and] at narrowed
    rcases bind_eq_error_iff.mp failed with unlisted | ⟨_, -, failed⟩
    · rcases bind_eq_error_iff.mp unlisted with unlisted | ⟨_, -, failed⟩
      · obtain ⟨front, part, behind, rfl, -, here⟩ := mapM_eq_error_iff.mp unlisted
        exact ⟨part, by simp, narrowed part (by simp), here⟩
      · cases failed
    · cases failed

/-- The check of an exact outcome stops where one of the regions is not listed, in the order left,
right, common part, leftover parts. -/
theorem verify_exact_error [Limits] {common : Region} {leftRest rightRest : List Region}
    (way : listingFor left right = listing)
    (failed : verify left right (.exact common) (some leftRest) (some rightRest) = .error fault) :
    listing left = .error fault ∨ listing right = .error fault ∨
      (∃ numbers, listing left = .ok numbers) ∧ (∃ numbers, listing right = .ok numbers) ∧
        (listing common = .error fault ∨
          ∃ part ∈ leftRest ++ rightRest, part.kind ≠ .whole ∧ listing part = .error fault) := by
  -- Every step is taken only if the one before it gave a list.
  simp only [verify, Outcome.exact, way] at failed
  rcases bind_eq_error_iff.mp failed with leftFailed | ⟨leftNumbers, leftListed, failed⟩
  · exact Or.inl leftFailed
  rcases bind_eq_error_iff.mp failed with rightFailed | ⟨rightNumbers, rightListed, failed⟩
  · exact Or.inr (Or.inl rightFailed)
  refine Or.inr (Or.inr ⟨⟨leftNumbers, leftListed⟩, ⟨rightNumbers, rightListed⟩, ?_⟩)
  simp only [reduceCtorEq, if_false] at failed
  rcases bind_eq_error_iff.mp failed with commonFailed | ⟨numbers, -, failed⟩
  · exact Or.inl commonFailed
  -- The sides are checked one after the other.
  rcases bind_eq_error_iff.mp failed with side | ⟨_, -, failed⟩
  · obtain ⟨part, member, narrowed, here⟩ := checkSide_error side
    exact Or.inr ⟨part, List.mem_append_left _ member, narrowed, here⟩
  rcases bind_eq_error_iff.mp failed with side | ⟨_, -, failed⟩
  · obtain ⟨part, member, narrowed, here⟩ := checkSide_error side
    exact Or.inr ⟨part, List.mem_append_right _ member, narrowed, here⟩
  · cases failed

/-- The check of an exact outcome never stops because of a part, if the parts
of known regions are known. -/
theorem verify_exact_stops [Limits] (knows : ListsKnown listing known)
    (way : listingFor left right = listing) {common : Region} {leftRest rightRest : List Region}
    (leftValid : AllValid left.axes) (rightValid : AllValid right.axes)
    (narrow : common.kind ≠ .whole) (parts : known left → known right →
      ∀ part ∈ common :: (leftRest ++ rightRest), part.kind ≠ .whole →
      AllValid part.axes ∧ known part)
    (failed : verify left right (.exact common) (some leftRest) (some rightRest) = .error fault) :
    Stops left right fault := by
  rcases verify_exact_error way failed with leftFailed | rightFailed |
    ⟨⟨_, leftListed⟩, ⟨_, rightListed⟩, inParts⟩
  · -- A region that is not listed stops the check itself.
    exact stops_of_listing (Or.inl rfl)
      ((knows.stopped left fault leftValid leftFailed).imp_right And.right)
  · exact stops_of_listing (Or.inr rfl)
      ((knows.stopped right fault rightValid rightFailed).imp_right And.right)
  · -- A part of listed regions can only be too large.
    have partsKnown := parts (knows.listed left _ leftListed) (knows.listed right _ rightListed)
    obtain ⟨part, member, narrowed, here⟩ : ∃ part ∈ common :: (leftRest ++ rightRest),
      part.kind ≠ .whole ∧
        listing part = .error fault := by
      rcases inParts with commonFailed | ⟨part, member, narrowed, here⟩
      · exact ⟨common, List.mem_cons_self, narrow, commonFailed⟩
      · exact ⟨part, List.mem_cons_of_mem common member, narrowed, here⟩
    obtain ⟨valid, partKnown⟩ := partsKnown part member narrowed
    rcases knows.stopped part fault valid here with limit | ⟨unknown, -⟩
    · exact Or.inl limit
    · exact absurd partKnown unknown

/-- Whatever is known of an array is known of its fragments. -/
def KnowsFragments (known : Region → Prop) : Prop :=
  -- What is left of an array is known as well as the array, since it has the same sizes.
  ∀ fragment base : Region, base.kind = .perAxis → fragment.FragmentOf base → known base →
    known fragment

theorem knowsFragments_arrayed : KnowsFragments Arrayed := by
  -- A fragment has the sizes of the array.
  intro fragment base _ fragmentOf known
  exact ⟨fragmentOf.kind, fragmentOf.sizes.ne_nil known.2.1, known.2.2.congr fragmentOf.sizes.symm⟩

theorem knowsFragments_located : KnowsFragments Located := by
  intro fragment base kind fragmentOf known
  simp only [Located, kind, fragmentOf.kind] at known ⊢
  -- It also has the element size of the array.
  obtain ⟨nonempty, sized, element⟩ := known
  exact ⟨fragmentOf.sizes.ne_nil nonempty, sized.congr fragmentOf.sizes.symm,
    fragmentOf.upper ▸ element⟩

/-- The parts of an exact answer for arrays are known if the arrays are. -/
theorem verify_axes_stops [Limits] (knows : ListsKnown listing known)
    (fragments : KnowsFragments known) (way : listingFor left right = listing)
    (leftValid : AllValid left.axes) (rightValid : AllValid right.axes) {first second : Region}
    (comparable : first.Comparable second) {budget : Int} {comparison : Comparison}
    (related : first.relateAxes second budget {} = .ok comparison)
    (exact : comparison.outcome.relation = .exact)
    (shapes : known left → known right → known first ∧ known second)
    (failed : verify left right comparison.outcome (some comparison.left) (some comparison.right) =
      .error fault) :
    Stops left right fault := by
  obtain ⟨common, leftRest, rightRest, rfl, shared, leftMade, rightMade⟩ :=
    relateAxes_exact comparable related exact
  -- What is left of an array is made of its fragments, or is not narrowed down.
  have ofRest : ∀ {rest : List Region} {base : Region}, Rest rest common base →
    base.kind = .perAxis → known base →
      ∀ part ∈ rest, part.kind ≠ .whole → AllValid part.axes ∧ known part := by
    intro rest base made kind baseKnown part member narrowed
    rcases made with rfl | ⟨all, -⟩
    · rw [List.mem_singleton.mp member] at narrowed
      exact absurd rfl narrowed
    · exact ⟨(all part member).valid, fragments part base kind (all part member) baseKnown⟩
  -- The common part is a fragment as well.
  refine verify_exact_stops knows way leftValid rightValid
    (by simp [shared.fragment.kind]) ?_ failed
  intro leftKnown rightKnown part member narrowed
  obtain ⟨firstKnown, secondKnown⟩ := shapes leftKnown rightKnown
  rcases List.mem_cons.mp member with rfl | member
  · exact ⟨shared.fragment.valid, fragments _ first comparable.leftKind shared.fragment firstKnown⟩
  · rcases List.mem_append.mp member with inLeft | inRight
    · exact ofRest leftMade comparable.leftKind firstKnown part inLeft narrowed
    · exact ofRest rightMade comparable.rightKind secondKnown part inRight narrowed

/-- The parts of an exact answer for intervals have bounds. -/
theorem verify_bytes_stops [Limits] (leftKind : left.kind = .flat) (rightKind : right.kind = .flat)
    (same : SameObject left.object right.object) (leftValid : AllValid left.axes)
    (rightValid : AllValid right.axes)
    (exact : (left.relateBytes right {}).outcome.relation = .exact)
    (failed : verify left right (left.relateBytes right {}).outcome
      (some (left.relateBytes right {}).left) (some (left.relateBytes right {}).right) =
        .error fault) :
    Stops left right fault := by
  -- Both intervals have bounds, and the common part has those of both.
  obtain ⟨low, high, otherLow, otherHigh, bounds, otherBounds, -, -, -, -, common, shape, found⟩ :=
    relateBytes_exact same exact
  rw [found] at failed
  have commonBounds : common.bounds? = some (max low otherLow, min high otherHigh) := by
    rw [shape]
    rfl
  -- Each part takes one bound from its interval and the other one from the common part.
  have ofOutside : ∀ {region : Region} {first stop : Int}, region.kind = .flat →
    region.bounds? = some (first, stop) →
      AllValid region.axes → ∀ part ∈ region.outside common, AllValid part.axes ∧ part.Located := by
    intro region first stop kind given valid part member
    obtain ⟨lower, upper⟩ := bounds?_eq_some_iff.mp given
    rcases (mem_outside_iff given commonBounds).mp member with ⟨-, rfl⟩ | ⟨-, rfl⟩
    · exact ⟨valid, by simp [Located, kind, bounds?, lower]⟩
    · exact ⟨valid, by simp [Located, kind, bounds?, upper]⟩
  have commonKind : common.kind = .flat := by
    rw [shape]
    exact leftKind
  refine verify_exact_stops listsKnown_byteOffsets (by simp [listingFor, leftKind])
    leftValid rightValid (by simp [commonKind]) ?_ failed
  -- All parts are intervals with both bounds.
  intro _ _ part member _
  rcases List.mem_cons.mp member with rfl | member
  · refine ⟨?_, by simp [Located, commonKind, commonBounds]⟩
    rw [shape]
    exact leftValid
  · rcases List.mem_append.mp member with inLeft | inRight
    · exact ofOutside leftKind bounds leftValid part inLeft
    · exact ofOutside rightKind otherBounds rightValid part inRight

/-- The check of a disjoint outcome lists the two regions and nothing else. -/
theorem verify_disjoint_error [Limits] {outcome : Outcome}
    {leftParts rightParts : Option (List Region)} (disjoint : outcome.relation = .disjoint)
    (failed : verify left right outcome leftParts rightParts = .error fault) :
    ∃ region, (region = left ∨ region = right) ∧ listingFor left right region = .error fault := by
  -- With both lists at hand, comparing them cannot fail.
  simp only [verify, disjoint] at failed
  rcases bind_eq_error_iff.mp failed with leftFailed | ⟨_, -, failed⟩
  · exact ⟨left, Or.inl rfl, leftFailed⟩
  rcases bind_eq_error_iff.mp failed with rightFailed | ⟨_, -, failed⟩
  · exact ⟨right, Or.inr rfl, rightFailed⟩
  · cases failed

/-- A region that is moderate is listed for a comparison up to the limits that it exceeds. -/
theorem listingFor_stopped [Limits] {region : Region} (valid : AllValid region.axes)
    (failed : listingFor left right region = .error fault) :
    (fault ∈ machineFaults ∨ ∃ cause, fault = .unlisted cause ∧ cause.region = region) ∧
      (region.Moderate → fault ∈ machineFaults → region.Overfull fault) := by
  -- Both ways of listing stop for the same reasons.
  unfold listingFor at failed
  split at failed
  · refine ⟨?_, fun moderate => elementOffsets_overfull valid moderate failed⟩
    exact (listsKnown_elementOffsets.stopped region fault valid failed).imp_right And.right
  · refine ⟨?_, fun moderate => byteOffsets_overfull valid moderate failed⟩
    exact (listsKnown_byteOffsets.stopped region fault valid failed).imp_right And.right

/-- The check of an exact answer for two arrays never stops because of a part. -/
theorem verify_arrays_stops [Limits] (comparable : left.Comparable right) {budget : Int}
    {comparison : Comparison} (related : left.relateAxes right budget {} = .ok comparison)
    (exact : comparison.outcome.relation = .exact) (failed : verify left right comparison.outcome
      (some comparison.left) (some comparison.right) = .error fault) :
    Stops left right fault := by
  -- The elements are listed where their size is not known, and the bytes otherwise.
  by_cases elements : left.kind = .perAxis ∧ right.kind = .perAxis ∧ left.upper.getD 0 = 0
  · exact verify_axes_stops listsKnown_elementOffsets knowsFragments_arrayed
      (by rw [listingFor, if_pos elements])
      comparable.leftValid comparable.rightValid comparable related exact (fun first second =>
        ⟨first, second⟩) failed
  · exact verify_axes_stops listsKnown_byteOffsets knowsFragments_located
      (by rw [listingFor, if_neg elements])
      comparable.leftValid comparable.rightValid comparable related exact (fun first second =>
        ⟨first, second⟩) failed

/-- The fault of a check that settles is a limit that one of the regions
exceeds, or a region is not known. -/
theorem overfull_of_settles [Limits] {comparison : Comparison}
    (settles : Settles left right comparison) (failed : verify left right comparison.outcome
      (some comparison.left) (some comparison.right) = .error fault)
    (limit : fault ∈ machineFaults) : left.Overfull fault ∨ right.Overfull fault := by
  -- A check that failed did not pass, and a fault of the machine has no cause in the regions.
  rcases settles with ⟨passed, -⟩ | ⟨other, stopped, reason⟩
  · cases passed.symm.trans failed
  · cases stopped.symm.trans failed
    rcases reason with ⟨cause, rfl⟩ | overfull
    · simp [machineFaults] at limit
    · exact overfull

/-- The check of any answer for well-formed regions stops at a limit of the machine,
or because one of the two regions is not known. Moderate regions stop it only at a
limit that one of them exceeds. -/
theorem verify_intersect_stops [Limits] (leftValid : AllValid left.axes)
    (rightValid : AllValid right.axes) {budget : Int} {comparison : Comparison}
    (answered : left.intersect right budget = .ok comparison)
    (failed : verify left right comparison.outcome (some comparison.left) (some comparison.right) =
      .error fault) :
    Stops left right fault ∧ (left.Moderate → right.Moderate → fault ∈ machineFaults →
      left.Overfull fault ∨ right.Overfull fault) := by
  cases relation : comparison.outcome.relation with
  | imprecise | differentObjects =>
    -- Nothing is listed for such an answer.
    simp [verify, relation] at failed
  | disjoint =>
    -- One of the two regions was not listed.
    obtain ⟨region, rfl | rfl, stopped⟩ := verify_disjoint_error relation failed
    · obtain ⟨reason, overfull⟩ := listingFor_stopped leftValid stopped
      refine ⟨stops_of_listing (Or.inl rfl) reason, fun moderate _ limit => ?_⟩
      exact Or.inl (overfull moderate limit)
    · obtain ⟨reason, overfull⟩ := listingFor_stopped rightValid stopped
      refine ⟨stops_of_listing (Or.inr rfl) reason, fun _ moderate limit => ?_⟩
      exact Or.inr (overfull moderate limit)
  | exact =>
    -- The parts were found on one of four routes.
    have same := sameObject_of_exact answered relation
    obtain ⟨object, route⟩ := route_of_intersect same leftValid rightValid answered
    cases route with
    | bytes leftKind rightKind related =>
      -- Bytes are listed as they are.
      subst related
      refine ⟨verify_bytes_stops leftKind rightKind same leftValid rightValid relation failed, ?_⟩
      intro leftModerate rightModerate
      exact overfull_of_settles
        (settles_relateBytes same leftKind rightKind leftModerate rightModerate relation) failed
    | axes leftKind rightKind related =>
      -- Arrays with different sizes are not compared exactly.
      rcases relateAxes_sizes leftValid rightValid related with imprecise |
        ⟨element, sizes | ⟨-, disjoint⟩⟩
      · simp [imprecise, Outcome.imprecise] at relation
      · have comparable : left.Comparable right :=
          ⟨object, same, leftKind, rightKind, leftValid, rightValid, element, sizes⟩
        refine ⟨verify_arrays_stops comparable related relation failed, ?_⟩
        intro leftModerate rightModerate
        exact overfull_of_settles
          (settles_relateAxes comparable leftModerate rightModerate related relation) failed
      · simp [disjoint, Outcome.disjoint] at relation
    | leftShaped shaped element low high reshaped related =>
      -- The interval was compared in the shape of the array, which is known.
      have comparable := reshaped.comparable rightValid object same
      have way : listingFor left right = byteOffsets := by simp [listingFor, reshaped.targetKind]
      constructor
      · exact verify_axes_stops listsKnown_byteOffsets knowsFragments_located way leftValid
          rightValid comparable related relation (fun _ known => ⟨reshaped.located, known⟩) failed
      · intro leftModerate rightModerate
        have settles :=
          settles_leftShaped reshaped comparable leftModerate rightModerate related relation
        exact overfull_of_settles settles failed
    | rightShaped shaped element low high reshaped related =>
      -- The same holds for the other side.
      have comparable :=
        (reshaped.comparable leftValid (object_ne_none_of_same object same)
          (sameObject_symm same)).symm
      have way : listingFor left right = byteOffsets := by simp [listingFor, reshaped.targetKind]
      constructor
      · exact verify_axes_stops listsKnown_byteOffsets knowsFragments_located way leftValid
          rightValid comparable related relation (fun known _ => ⟨known, reshaped.located⟩) failed
      · intro leftModerate rightModerate
        have settles :=
          settles_rightShaped reshaped comparable leftModerate rightModerate related relation
        exact overfull_of_settles settles failed
    | imprecise outcome => simp [outcome, Outcome.imprecise] at relation

end Check

end Overlap
