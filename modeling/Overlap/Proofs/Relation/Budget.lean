import Overlap.Proofs.Relation.AxisTold
import Overlap.Proofs.Relation.Shortcut

/-! What a comparison leaves of a region, for all budgets. An axis over budget puts the whole region
in place of the fragments, and all budgets that no axis exceeds give the same fragments. -/

namespace Overlap

/-- Along some axis the part has several indices, and between two of them lie more indices of the
whole than the budget allows. -/
def OverBudget (budget : Int) (parts wholes : List Axis) : Prop :=
  -- A single index skips nothing, whatever its step is.
  ∃ axes ∈ parts.zip wholes, 1 < axes.1.count ∧ budget < axes.1.step / axes.2.step - 1

/-- Whether a budget is exceeded is settled axis by axis. -/
instance (budget : Int) (parts wholes : List Axis) : Decidable (OverBudget budget parts wholes) :=
  -- Finitely many pairs are looked at.
  inferInstanceAs (Decidable (∃ axes ∈ parts.zip wholes, _))

theorem overBudget_cons {budget : Int} {part whole : Axis} {parts wholes : List Axis} :
    OverBudget budget (part :: parts) (whole :: wholes) ↔
      (1 < part.count ∧ budget < part.step / whole.step - 1) ∨ OverBudget budget parts wholes := by
  -- The first pair is looked at, and then the others.
  simp [OverBudget]

/-- What exceeds a budget exceeds all smaller ones. -/
theorem OverBudget.of_le {budget larger : Int} {parts wholes : List Axis}
    (exceeds : OverBudget larger parts wholes) (le : budget ≤ larger) :
    OverBudget budget parts wholes := by
  -- What exceeds a larger budget exceeds a smaller one.
  obtain ⟨axes, member, several, skipped⟩ := exceeds
  exact ⟨axes, member, several, by omega⟩

/-- A part leaves the same pieces of an axis for all budgets that it does not exceed, at most
two more than it skips phases. -/
theorem PartOf.difference_eq {part whole : Axis} (partOf : PartOf part whole) :
    ∃ pieces : List Axis, ∀ budget, 0 ≤ budget →
      whole.difference part budget =
        .ok (if 1 < part.count ∧ budget < part.step / whole.step - 1 then none else some pieces) ∧
      (¬ (1 < part.count ∧ budget < part.step / whole.step - 1) →
        (pieces.length : Int) ≤ budget + 2) := by
  -- The part lies on the steps of the whole axis.
  obtain ⟨before, ratio, after, placed⟩ :=
    Axis.placed_of_subset partOf.valid partOf.wholeValid partOf.aligned partOf.subset
  refine ⟨Axis.Placed.pieces part whole before after, fun budget nonneg => ?_⟩
  have phases := placed.phases_eq
  -- The quotient of the steps is how many steps of the whole one step of the part takes.
  have quotient : part.step / whole.step = ratio := by
    rw [placed.step]
    exact Int.mul_ediv_cancel_left ratio (Int.ne_of_gt placed.rising)
  have exceeds : part.phases whole > budget ↔
      1 < part.count ∧ budget < part.step / whole.step - 1 := by
    rw [quotient]
    split at phases <;> omega
  refine ⟨by simp only [placed.difference_eq, exceeds], fun within => ?_⟩
  -- There are two more pieces than phases, at most.
  have few := placed.length_pieces_le
  rw [← exceeds] at within
  omega

/-- Parts leave the same lists of axes for all budgets that they do not exceed, and no answer for
the others. Every axis adds at most two lists more than the budget. -/
theorem leftoverAxes_eq {parts wholes : List Axis} (partsOf : PartsOf parts wholes) :
    ∃ pieces : List (List Axis), ∀ budget, 0 ≤ budget →
      leftoverAxes budget wholes parts = .ok (if OverBudget budget parts wholes then none
        else some pieces) ∧
      (¬ OverBudget budget parts wholes →
        (pieces.length : Int) ≤ wholes.length * (budget + 2)) := by
  -- The pieces are chosen before the budget, axis by axis.
  induction partsOf with
  | nil => exact ⟨[],
      fun budget _ => ⟨by simp [OverBudget, leftoverAxes, Pure.pure, Except.pure], by simp⟩⟩
  | @cons part whole parts wholes first _ ih =>
    obtain ⟨firsts, alongFirst⟩ := first.difference_eq
    obtain ⟨rests, behind⟩ := ih
    refine ⟨firsts.map (· :: wholes) ++ rests.map (part :: ·), fun budget nonneg => ?_⟩
    obtain ⟨found, fewFirsts⟩ := alongFirst budget nonneg
    obtain ⟨rest, fewRests⟩ := behind budget nonneg
    simp only [overBudget_cons]
    -- The first axis over budget ends the collection, whatever the other axes leave.
    by_cases skips : 1 < part.count ∧ budget < part.step / whole.step - 1
    · exact ⟨by simp [leftoverAxes, found, skips, Bind.bind, Except.bind, Pure.pure, Except.pure],
        fun within => absurd (Or.inl skips) within⟩
    by_cases inner : OverBudget budget parts wholes
    · exact ⟨by simp [leftoverAxes, found, skips, rest, inner, Bind.bind, Except.bind, Pure.pure,
        Except.pure],
        fun within => absurd (Or.inr inner) within⟩
    refine ⟨?_, fun _ => ?_⟩
    · simp [leftoverAxes, found, skips, rest, inner, Bind.bind, Except.bind, Pure.pure, Except.pure]
    · have := fewFirsts skips
      have := fewRests inner
      simp only [List.length_append, List.length_map, List.length_cons]
      push_cast
      linarith

namespace Region

/-- What is left of a side outside a common part, as it depends on the budget: the side as a
whole if the common part exceeds the budget, and otherwise not too many fragments, which a
larger budget does not change. -/
structure Budgeted (rest : Int → List Region) (commons : List Axis) (side : Region) : Prop where
  -- Over budget there is one part, and within it the parts are few and stay the same.
  exceeded : ∀ budget, 0 ≤ budget → OverBudget budget commons side.axes → rest budget = [side.widen]
  narrow : ∀ budget, 0 ≤ budget → ¬ OverBudget budget commons side.axes →
    ∀ fragment ∈ rest budget, fragment.kind ≠ .whole
  bounded : ∀ budget, 0 ≤ budget → ¬ OverBudget budget commons side.axes →
    ((rest budget).length : Int) ≤ side.axes.length * (budget + 2)
  stable : ∀ budget larger, 0 ≤ budget → budget ≤ larger → ¬ OverBudget budget commons side.axes →
    rest larger = rest budget

/-- What is left of a region outside parts of its axes is found for all budgets. -/
theorem leftover_budgeted {side : Region} {commons : List Axis}
    (partsOf : PartsOf commons side.axes) :
    ∃ rest, Budgeted rest commons side ∧ ∀ budget, 0 ≤ budget →
      side.leftover commons budget = .ok (rest budget) := by
  obtain ⟨pieces, left⟩ := leftoverAxes_eq partsOf
  let rest (budget : Int) := if OverBudget budget commons side.axes then [side.widen]
    else pieces.map side.withAxes
  refine ⟨rest, ⟨?_, ?_, ?_, ?_⟩, ?_⟩
  · -- A budget that is exceeded leaves the mark of the whole side.
    exact fun budget _ exceeds => if_pos exceeds
  · -- Fragments are arrays.
    intro budget _ within fragment member
    simp only [rest, if_neg within] at member
    obtain ⟨axes, -, rfl⟩ := List.mem_map.mp member
    simp [withAxes]
  · intro budget nonneg within
    simpa only [rest, if_neg within, List.length_map] using (left budget nonneg).2 within
  · -- A larger budget is not exceeded either.
    intro budget larger _ le within
    have still : ¬ OverBudget larger commons side.axes := fun exceeds => within (exceeds.of_le le)
    simp only [rest, if_neg within, if_neg still]
  · -- This is how leftover parts are computed.
    intro budget nonneg
    simp only [leftover, (left budget nonneg).1, rest, Bind.bind, Except.bind]
    by_cases exceeds : OverBudget budget commons side.axes <;>
      simp [exceeds, Pure.pure, Except.pure]

/-- Arrays that are compared axis by axis and share tuples leave budgeted parts of both. -/
theorem relateEach_shared {left right : Region} (leftKind : left.kind = .perAxis)
    (rightKind : right.kind = .perAxis) {commons : List Axis}
    (met : meetAxes 0 left.axes right.axes = .ok (.shared commons))
    (all : MeetAll commons left.axes right.axes) :
    ∃ leftRest rightRest, Budgeted leftRest commons left ∧ Budgeted rightRest commons right ∧
      ∀ budget, 0 ≤ budget → ∀ wanted, left.relateEach right budget wanted =
        .ok (Comparison.only ⟨.exact (left.withAxes commons), leftRest budget, rightRest budget⟩
          wanted) := by
  obtain ⟨leftRest, leftBudgeted, leftMade⟩ := leftover_budgeted all.left
  obtain ⟨rightRest, rightBudgeted, rightMade⟩ := leftover_budgeted all.right
  refine ⟨leftRest, rightRest, leftBudgeted, rightBudgeted, fun budget nonneg wanted => ?_⟩
  -- For each budget the comparison is settled with what is left then.
  obtain ⟨leftParts, rightParts, leftFound, rightFound, -, -, settled⟩ :=
    settle_shared leftKind rightKind all budget
  obtain rfl := Except.ok.inj (leftFound.symm.trans (leftMade budget nonneg))
  obtain rfl := Except.ok.inj (rightFound.symm.trans (rightMade budget nonneg))
  simp only [relateEach, met, Bind.bind, Except.bind, settled]

/-- Comparable regions that share tuples are compared exactly for all budgets. What is left of
either side is the side as a whole where the shared part exceeds the budget, and otherwise a bounded
number of fragments that are the same for all larger budgets. It is put behind the lists unless a
number in what is told before is too long. -/
theorem intersectInto_budgeted {left right common : Region} (comparable : left.Comparable right)
    {asked : Int} {wanted : Wanted} {comparison : Comparison}
    (answered : left.intersect right asked wanted = .ok comparison)
    (exact : comparison.outcome = .exact common) :
    ∃ leftRest rightRest, Budgeted leftRest common.axes left ∧
      Budgeted rightRest common.axes right ∧
      ∀ budget, 0 ≤ budget → ∀ kept traced,
        let answer := Comparison.only ⟨.exact common, leftRest budget, rightRest budget⟩ kept.wanted
        left.intersectInto right budget kept traced =
          (if Tellable traced (account left right budget kept.wanted answer) then
            .ok (answer, heard traced (account left right budget kept.wanted answer))
          else .error .longNumber,
          if Tellable traced (tellSteps left right budget kept.wanted) then
            kept.add (leftRest budget) (rightRest budget)
          else kept) := by
  -- The shortcut for equal arrays can be left out for all budgets that are not negative.
  have along : ∀ budget, 0 ≤ budget → ∀ wanted,
      left.intersect right budget wanted = left.relateEach right budget wanted := by
    intro budget nonneg wanted
    rw [intersect_eq_relateAxes comparable.object comparable.same comparable.leftKind
      comparable.rightKind]
    exact relateAxes_eq_relateEach comparable.leftKind comparable.leftValid comparable.rightValid
      comparable.sizes.length_eq comparable.element nonneg wanted
  -- The outcome does not depend on the budget, so it is the one that was asked for.
  have outcome : ∀ answer, left.relateEach right 0 {} = .ok answer →
      answer.outcome = .exact common := by
    intro answer found
    rcases intersect_cases left right with ⟨-, cause, -, failed⟩ | ⟨-, verdict, answers⟩
    · cases (failed asked wanted).symm.trans answered
    · obtain ⟨full, same, -, given⟩ := answers 0
      obtain ⟨other, otherSame, -, otherGiven⟩ := answers asked
      obtain rfl := Except.ok.inj ((otherGiven wanted).symm.trans answered)
      obtain rfl := Except.ok.inj (((given {}).symm.trans (along 0 (Int.le_refl 0) {})).trans found)
      exact same.trans (otherSame.symm.trans exact)
  rcases meetAxes_cases comparable.leftValid comparable.rightValid comparable.sizes 0
    with ⟨axis, met, -⟩ | ⟨commons, met, all⟩
  · -- Without a common index along some axis the outcome would not be exact.
    have apart : left.relateEach right 0 {} = .ok { outcome := .disjoint } := by
      simp [relateEach, met, settle, Bind.bind, Except.bind]
    cases congrArg Outcome.relation (outcome _ apart)
  · obtain ⟨leftRest, rightRest, leftBudgeted, rightBudgeted, shared⟩ :=
      relateEach_shared comparable.leftKind comparable.rightKind met all
    obtain rfl : left.withAxes commons = common := by
      simpa [Comparison.only, Outcome.exact] using outcome _ (shared 0 (Int.le_refl 0) {})
    refine ⟨leftRest, rightRest, leftBudgeted, rightBudgeted, fun budget nonneg kept traced => ?_⟩
    rw [intersectInto_ok
      ((along budget nonneg kept.wanted).trans (shared budget nonneg kept.wanted)), Kept.add_only]

/-- Two of a hundred rows are shared, and the other region has forty-nine rows between them. A
budget of three puts that region as a whole behind its list, and a budget of forty-nine is enough
for fragments. Rows in steps of more than two thousand digits are not put behind any list: the step
of their common rows has too many digits to be told. -/
theorem intersectInto_budgeted_sparse :
    let array (axes : List Axis) : Region := ⟨some (.name "A"), .perAxis, none, some 4, axes⟩
    let left := array [⟨0, 50, 2, 100⟩, ⟨0, 1, 2, 8⟩]
    let right := array [⟨0, 1, 100, 100⟩, ⟨0, 1, 8, 8⟩]
    let empty : Kept := ⟨some [], some []⟩
    let far : Int := (10 ^ 2200 : Nat)
    let sparse := array [⟨0, far, far + 2, 0⟩]
    let other := array [⟨0, far + 1, far + 1, 0⟩]
    ((left.intersectInto right 3 empty).2.right = some [right.widen] ∧
      ∃ fragments, (left.intersectInto right 49 empty).2.right = some fragments ∧
        (left.intersectInto right 1000 empty).2.right = some fragments ∧
        (∀ fragment ∈ fragments, fragment.kind ≠ .whole) ∧ (fragments.length : Int) ≤ 102) ∧
    (∃ common, sparse.intersect other 10 = .ok ⟨.exact common, [sparse.widen], [other.widen]⟩) ∧
      sparse.intersectInto other 10 empty = (.error .longNumber, empty) := by
  intro array left right empty far sparse other
  -- Two arrays are compared with three budgets, of which only the smallest is exceeded.
  have comparable : left.Comparable right :=
    ⟨by decide, by decide, rfl, rfl, by decide, by decide, rfl, rfl⟩
  have answered : left.intersect right 3 = .ok ⟨.exact left, [], [right.widen]⟩ := by decide +kernel
  obtain ⟨leftRest, rightRest, -, budgeted, given⟩ := intersectInto_budgeted comparable answered rfl
  have short : ∀ budget ∈ [3, 49, 1000],
      Tellable false (tellSteps left right budget empty.wanted) := by decide +kernel
  have listed : ∀ budget ∈ [(3 : Int), 49, 1000], (left.intersectInto right budget empty).2.right =
      some (rightRest budget) := by
    intro budget member
    have nonneg : 0 ≤ budget := by
      simp only [List.mem_cons, List.not_mem_nil, or_false] at member
      omega
    simp [given budget nonneg, short budget member, empty, Kept.add]
  have within : ¬ OverBudget 49 left.axes right.axes := by decide
  -- The other two arrays meet in steps of more than 4300 digits.
  have sparseComparable : sparse.Comparable other :=
    ⟨by decide, by decide, rfl, rfl, by decide +kernel, by decide +kernel, rfl, by decide +kernel⟩
  have exact : sparse.intersect other 10 =
      .ok ⟨.exact (array [⟨0, far * (far + 1), 2, 0⟩]), [sparse.widen], [other.widen]⟩ := by
        decide +kernel
  obtain ⟨sparseRest, otherRest, -, -, sparseGiven⟩ :=
    intersectInto_budgeted sparseComparable exact rfl
  have long : ¬ Tellable false (tellSteps sparse other 10 empty.wanted) := by decide +kernel
  refine ⟨⟨?_, rightRest 49, ?_, ?_, ?_, ?_⟩, ⟨_, exact⟩, ?_⟩
  · rw [listed 3 (by decide), budgeted.exceeded 3 (by decide) (by decide)]
  · exact listed 49 (by decide)
  · rw [listed 1000 (by decide), budgeted.stable 49 1000 (by decide) (by decide) within]
  · exact budgeted.narrow 49 (by decide) within
  · exact budgeted.bounded 49 (by decide) within
  · -- What is told before the lists are written is part of the account.
    have none : ∀ answer, ¬ Tellable false (account sparse other 10 empty.wanted answer) :=
      fun answer all => long (tellable_append.mp all).1
    rw [sparseGiven 10 (by decide) empty false, if_neg (none _), if_neg long]

end Region

end Overlap
