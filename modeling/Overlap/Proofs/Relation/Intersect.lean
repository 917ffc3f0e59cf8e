import Overlap.Proofs.Relation.Axes

/-! Two regions given per axis are compared exactly: by the index tuples
that they share and leave over. -/

namespace Overlap

/-- A check of several axes accepts exactly the well-formed ones. -/
theorem checkAxes_eq_ok_iff {axes : List Axis} : checkAxes axes = .ok () ↔ AllValid axes := by
  -- The check stops at the first axis that is not well-formed.
  induction axes with
  | nil => simp [checkAxes, AllValid]
  | cons axis axes ih =>
    rw [allValid_cons, ← ih, checkAxes]
    cases checked : axis.check with
    | error fault =>
      have : ¬ axis.Valid := fun valid => by simp [Axis.check_of_valid valid] at checked
      simp [this, Bind.bind, Except.bind]
    | ok other => simp [(Axis.check_eq_ok_iff.mp checked).2, Bind.bind, Except.bind]

/-- The check of two lists of well-formed axes passes. -/
theorem checkAxes_append {axes others : List Axis} (valid : AllValid axes)
    (otherValid : AllValid others) :
    checkAxes (axes ++ others) = .ok () := by
  -- Both lists pass, so their axes do as well.
  refine checkAxes_eq_ok_iff.mpr fun axis member => ?_
  rcases List.mem_append.mp member with inFirst | inSecond
  · exact valid axis inFirst
  · exact otherValid axis inSecond

/-- A comparison without the leftover parts that are not wanted. -/
def Comparison.only (comparison : Comparison) (wanted : Wanted) : Comparison where
  -- The outcome stays, and parts that are not wanted are dropped.
  outcome := comparison.outcome
  left := if wanted.left then comparison.left else []
  right := if wanted.right then comparison.right else []

namespace Region

/-- A region given per axis holds the tuples of its axes. Nothing is known of
the tuples of other regions. -/
def Holds (region : Region) (tuple : List Int) : Prop :=
  -- Only an array holds tuples.
  region.kind = .perAxis ∧ InAxes region.axes tuple

/-- A region given by well-formed axes of the same array. -/
structure FragmentOf (fragment base : Region) : Prop where
  -- The axes may differ from those of the array in everything but their sizes.
  kind : fragment.kind = .perAxis
  object : fragment.object = base.object
  lower : fragment.lower = base.lower
  upper : fragment.upper = base.upper
  valid : AllValid fragment.axes
  sizes : SameSizes fragment.axes base.axes

/-- What a comparison leaves of a region outside a common part: the region as a whole, not narrowed
down, or fragments of it that split the tuples outside. -/
def Rest (fragments : List Region) (common base : Region) : Prop :=
  -- Either the region could not be narrowed down, or the fragments are exactly what is left.
  fragments = [base.widen] ∨
    (∀ fragment ∈ fragments, fragment.FragmentOf base) ∧
      Splits Holds fragments fun tuple => base.Holds tuple ∧ ¬ common.Holds tuple

/-- A region with other axes holds the tuples of those. -/
@[simp] theorem holds_withAxes {region : Region} {axes : List Axis} {tuple : List Int} :
    (region.withAxes axes).Holds tuple ↔ InAxes axes tuple := by
  -- The kind is set together with the axes.
  simp [Holds, withAxes]

/-- Well-formed axes of the same sizes make a fragment. -/
theorem fragmentOf_withAxes {region : Region} {axes : List Axis} (valid : AllValid axes)
    (sizes : SameSizes axes region.axes) : (region.withAxes axes).FragmentOf region :=
  -- All other fields are kept.
  ⟨rfl, rfl, rfl, rfl, valid, sizes⟩

/-- What is left of a region outside parts of its axes is found, in one of the two forms. -/
theorem leftover_cases {region common : Region} {parts : List Axis} (kind : region.kind = .perAxis)
    (partsOf : PartsOf parts region.axes)
    (shared : ∀ tuple, common.Holds tuple ↔ InAxes parts tuple) (budget : Int) :
    ∃ fragments, region.leftover parts budget = .ok fragments ∧ Rest fragments common region := by
  -- Lists of axes become regions of the same array.
  unfold leftover
  rcases leftoverAxes_cases partsOf budget with exceeded | ⟨pieces, within, leaves⟩
  · exact ⟨[region.widen], by simp [exceeded, Bind.bind, Except.bind, Pure.pure, Except.pure],
      Or.inl rfl⟩
  · refine ⟨pieces.map region.withAxes, ?_, Or.inr ⟨?_, ?_⟩⟩
    · simp [within, Bind.bind, Except.bind, Pure.pure, Except.pure]
    · intro fragment member
      obtain ⟨axes, axesMem, rfl⟩ := List.mem_map.mp member
      exact fragmentOf_withAxes (leaves.valid axes axesMem) (leaves.sizes axes axesMem)
    · have carried : Splits Holds (pieces.map region.withAxes) _ :=
        leaves.splits.map region.withAxes id (fun _ => True) (by simp)
      refine carried.congr ?_
      intro tuple
      simp [Holds, kind, ← shared]

/-- Regions of one object, given by well-formed axes of the same sizes and
with elements of the same size. -/
structure Comparable (left right : Region) : Prop where
  -- Nothing but the indices along the axes may differ.
  object : left.object ≠ none
  same : SameObject left.object right.object
  leftKind : left.kind = .perAxis
  rightKind : right.kind = .perAxis
  leftValid : AllValid left.axes
  rightValid : AllValid right.axes
  element : left.upper = right.upper
  sizes : SameSizes left.axes right.axes

/-- A fragment of a fragment is a fragment. -/
theorem FragmentOf.trans {fragment piece base : Region} (inner : fragment.FragmentOf piece)
    (outer : piece.FragmentOf base) : fragment.FragmentOf base where
  -- Everything that was kept once is kept twice.
  kind := inner.kind
  object := inner.object.trans outer.object
  lower := inner.lower.trans outer.lower
  upper := inner.upper.trans outer.upper
  valid := inner.valid
  sizes := inner.sizes.trans outer.sizes

/-- A fragment is comparable to what its array is comparable to. -/
theorem FragmentOf.comparable {fragment base region : Region}
    (fragmentOf : fragment.FragmentOf base) (comparable : base.Comparable region) :
    fragment.Comparable region where
  -- The fragment stands for its array, as it has the same sizes.
  object := fragmentOf.object ▸ comparable.object
  same := fragmentOf.object ▸ comparable.same
  leftKind := fragmentOf.kind
  rightKind := comparable.rightKind
  leftValid := fragmentOf.valid
  rightValid := comparable.rightValid
  element := fragmentOf.upper.trans comparable.element
  sizes := fragmentOf.sizes.trans comparable.sizes

/-- Regions of one object both have one. -/
theorem object_ne_none_of_same {left right : Option Identity} (object : left ≠ none)
    (same : SameObject left right) : right ≠ none := by
  -- A missing object agrees with a missing one only.
  cases left with
  | none => exact absurd rfl object
  | some identity =>
    cases right with
    | none => exact absurd same id
    | some other => simp

/-- Regions of one object that are given per axis are compared along their axes. -/
theorem intersect_eq_relateAxes {left right : Region} (object : left.object ≠ none)
    (same : SameObject left.object right.object) (leftKind : left.kind = .perAxis)
    (rightKind : right.kind = .perAxis) (budget : Int) (wanted : Wanted) :
    left.intersect right budget wanted = left.relateAxes right budget wanted := by
  -- None of the tests in front stops the comparison, and no shape has to be found.
  have other := object_ne_none_of_same object same
  simp [intersect, object, other, same, alignShapes, leftKind, rightKind]

/-- The tuples of a region are those common to two others, and it is a fragment of the left
one with their joint steps. -/
structure Shared (common left right : Region) : Prop where
  -- The common part belongs to the left array, with the steps that both have in common.
  fragment : common.FragmentOf left
  steps : common.axes.map Axis.step =
    jointSteps (left.axes.map Axis.step) (right.axes.map Axis.step)
  mem : ∀ tuple, common.Holds tuple ↔ left.Holds tuple ∧ right.Holds tuple

/-- The comparison of two arrays, once it is known how their axes lie to each other. -/
def settle (left right : Region) (budget : Int) (wanted : Wanted) :
    AxesMeet → Except Fault Comparison
  -- This is the last step of a comparison along the axes, once it is known how they meet.
  | .mismatch _ => .ok { outcome := .imprecise }
  | .apart _ => .ok { outcome := .disjoint }
  | .shared axes => do
    let leftRest ← if wanted.left then left.leftover axes budget else pure []
    let rightRest ← if wanted.right then right.leftover axes budget else pure []
    return { outcome := .exact (left.withAxes axes), left := leftRest, right := rightRest }

section Branches

variable {left right : Region} (leftValid : AllValid left.axes) (rightValid : AllValid right.axes)

include leftValid rightValid

/-- Arrays of different shapes are compared imprecisely. -/
theorem relateAxes_of_shape
    (shape : left.axes.length ≠ right.axes.length ∨ left.upper ≠ right.upper) (budget : Int)
    (wanted : Wanted) : left.relateAxes right budget wanted = .ok { outcome := .imprecise } := by
  -- The shape decides before anything is compared.
  simp only [relateAxes, checkAxes_append leftValid rightValid, if_pos shape, Bind.bind,
    Except.bind, Pure.pure, Except.pure]

variable (shape : ¬ (left.axes.length ≠ right.axes.length ∨ left.upper ≠ right.upper))

include shape

/-- Equal arrays share all that they hold. -/
theorem relateAxes_of_equal (equal : left.lower = right.lower ∧ left.axes = right.axes)
    (budget : Int) (wanted : Wanted) :
    left.relateAxes right budget wanted = .ok { outcome := .exact left } := by
  -- Equal arrays are answered before their axes are compared.
  simp only [relateAxes, checkAxes_append leftValid rightValid, if_neg shape, if_pos equal,
    Bind.bind, Except.bind, Pure.pure, Except.pure]

/-- Unequal arrays of one shape are settled by their axes. -/
theorem relateAxes_eq_settle (unequal : ¬ (left.lower = right.lower ∧ left.axes = right.axes))
    {met : AxesMeet} (found : meetAxes 0 left.axes right.axes = .ok met) (budget : Int)
    (wanted : Wanted) :
    left.relateAxes right budget wanted = left.settle right budget wanted met := by
  -- All tests in front let the two arrays pass.
  simp only [relateAxes, checkAxes_append leftValid rightValid, if_neg shape, if_neg unequal,
    found, Bind.bind, Except.bind]
  cases met <;> rfl

end Branches

/-- Shared axes that are parts of both sides settle the comparison, with
what is left of either side. -/
theorem settle_shared {left right : Region} (leftKind : left.kind = .perAxis)
    (rightKind : right.kind = .perAxis) {commons : List Axis}
    (all : MeetAll commons left.axes right.axes) (budget : Int) :
    ∃ leftRest rightRest, left.leftover commons budget = .ok leftRest ∧
      right.leftover commons budget = .ok rightRest ∧
      Rest leftRest (left.withAxes commons) left ∧ Rest rightRest (left.withAxes commons) right ∧
      ∀ wanted, left.settle right budget wanted (.shared commons) =
        .ok (Comparison.only ⟨.exact (left.withAxes commons), leftRest, rightRest⟩ wanted) := by
  have shared : ∀ tuple, (left.withAxes commons).Holds tuple ↔ InAxes commons tuple := by simp
  obtain ⟨leftRest, leftMade, leftHolds⟩ := leftover_cases leftKind all.left shared budget
  obtain ⟨rightRest, rightMade, rightHolds⟩ := leftover_cases rightKind all.right shared budget
  refine ⟨leftRest, rightRest, leftMade, rightMade, leftHolds, rightHolds, fun wanted => ?_⟩
  -- A side that is not wanted is not even computed.
  cases wantsLeft : wanted.left <;> cases wantsRight : wanted.right <;>
    simp [settle, leftMade, rightMade, Comparison.only, wantsLeft, wantsRight, Bind.bind,
      Except.bind, Pure.pure, Except.pure]

/-- Comparable regions are found to share nothing, or the shared part is
found with what is left of both. -/
theorem relateAxes_cases {left right : Region} (comparable : left.Comparable right) (budget : Int)
    (wanted : Wanted) :
    (left.relateAxes right budget wanted = .ok { outcome := .disjoint } ∧
      ∀ tuple, ¬ (left.Holds tuple ∧ right.Holds tuple)) ∨
    ∃ common leftRest rightRest,
      left.relateAxes right budget wanted = .ok ⟨.exact common, leftRest, rightRest⟩ ∧
      common.Shared left right ∧ (wanted.left = true → Rest leftRest common left) ∧
      (wanted.right = true → Rest rightRest common right) := by
  -- After the checks, equal axes are answered at once, and other ones axis by axis.
  obtain ⟨-, -, leftKind, rightKind, leftValid, rightValid, element, sizes⟩ := comparable
  have shape : ¬ (left.axes.length ≠ right.axes.length ∨ left.upper ≠ right.upper) := by
    simp [sizes.length_eq, element]
  by_cases equal : left.lower = right.lower ∧ left.axes = right.axes
  · -- Equal axes share all of their tuples, and nothing is left over.
    have nothing : ∀ base : Region, base.axes = left.axes → Rest [] left base := by
      intro base axes
      refine Or.inr ⟨by simp, Splits.nil ?_⟩
      intro tuple left
      obtain ⟨⟨-, held⟩, outside⟩ := left
      exact outside ⟨leftKind, axes ▸ held⟩
    refine Or.inr ⟨left, [], [], relateAxes_of_equal leftValid rightValid shape equal budget wanted,
      ⟨⟨leftKind, rfl, rfl, rfl, leftValid, rfl⟩, ?_, ?_⟩, ?_, ?_⟩
    · rw [← equal.2, jointSteps_self leftValid]
    · intro tuple
      simp [Holds, leftKind, rightKind, equal.2]
    · exact fun _ => nothing left rfl
    · exact fun _ => nothing right equal.2.symm
  · rcases meetAxes_cases leftValid rightValid sizes 0 with ⟨axis, met, none⟩ | ⟨commons, met, all⟩
    · -- Along one axis there is no common index, and so there is no common tuple.
      refine Or.inl ⟨relateAxes_eq_settle leftValid rightValid shape equal met budget wanted, ?_⟩
      simpa [Holds, leftKind, rightKind] using none
    · -- The common axes make up the shared array, and each side has its own rest.
      obtain ⟨leftRest, rightRest, -, -, leftHolds, rightHolds, answer⟩ :=
        settle_shared leftKind rightKind all budget
      have settled := relateAxes_eq_settle leftValid rightValid shape equal met budget wanted
      refine Or.inr ⟨left.withAxes commons, _, _, settled.trans (answer wanted),
        ⟨fragmentOf_withAxes all.left.valid all.left.sizes, all.steps, ?_⟩, ?_, ?_⟩
      · intro tuple
        rw [holds_withAxes, all.mem]
        simp [Holds, leftKind, rightKind]
      · intro asked
        simpa [asked] using leftHolds
      · intro asked
        simpa [asked] using rightHolds

/-- Fragments that are not the whole region split it together with the common part. -/
theorem Rest.splits {fragments : List Region} {common base : Region}
    (rest : Rest fragments common base) (narrow : ∀ fragment ∈ fragments, fragment.kind ≠ .whole)
    (inside : ∀ tuple, common.Holds tuple → base.Holds tuple) :
    Splits Holds (common :: fragments) base.Holds := by
  -- Without a mark the fragments split what is outside the common part.
  rcases rest with widened | ⟨-, splits⟩
  · -- The mark is excluded.
    subst widened
    exact absurd rfl (narrow base.widen List.mem_cons_self)
  · -- The common part and the fragments do not overlap.
    have together : Splits Holds ([common] ++ fragments) _ :=
      (Splits.single fun _ => Iff.rfl).append splits fun tuple held outside => outside.2 held
    refine together.congr fun tuple => ?_
    constructor
    · intro held
      by_cases inCommon : common.Holds tuple
      · exact Or.inl inCommon
      · exact Or.inr ⟨held, inCommon⟩
    · intro either
      rcases either with inCommon | ⟨held, -⟩
      · exact inside tuple inCommon
      · exact held

end Region

end Overlap
