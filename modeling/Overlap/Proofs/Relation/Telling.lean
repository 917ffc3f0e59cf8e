import Overlap.Proofs.Relation.Intersect
import Overlap.Relation.Told

/-! A comparison is told exactly when every number in what is told can be written. The answer for
comparable regions is then exact. -/

namespace Overlap

/-- The events that are heard: the steps of a trace only if one is asked for. -/
def heard (traced : Bool) (events : List Event) : List Event :=
  -- The order of the events is kept.
  events.filter fun event => traced || !event.isTrace

/-- Every number in what is heard can be written. -/
def Tellable (traced : Bool) (events : List Event) : Prop :=
  -- Only what is heard has to be written.
  ∀ number ∈ (heard traced events).flatMap Event.numbers, Writable number

instance (traced : Bool) (events : List Event) : Decidable (Tellable traced events) :=
  -- Finitely many numbers are looked at.
  inferInstanceAs (Decidable (∀ _ ∈ _, _))

theorem tell_eq (traced : Bool) (events : List Event) :
    tell traced events = if Tellable traced events then .ok (heard traced events)
      else .error .longNumber := by
  -- The check is the only step of telling that can fail.
  have check : checkNumbers ((heard traced events).flatMap Event.numbers) =
      if Tellable traced events then .ok () else .error .longNumber := rfl
  have step : tell traced events = do
      checkNumbers ((heard traced events).flatMap Event.numbers)
      return heard traced events := rfl
  rw [step, check]
  split <;> rfl

/-- A fault shows unless its message holds a number that is too long. -/
theorem Fault.told_eq (fault : Fault) :
    fault.told = if ∀ number ∈ fault.numbers, Writable number then fault else .longNumber := by
  -- The message of a fault is checked like any other text.
  by_cases short : ∀ number ∈ fault.numbers, Writable number
  · have accepted : checkNumbers fault.numbers = .ok () := if_pos short
    rw [Fault.told, accepted, if_pos short]
  · have refused : checkNumbers fault.numbers = .error .longNumber := if_neg short
    rw [Fault.told, refused, if_neg short]

theorem tellable_append {traced : Bool} {events others : List Event} :
    Tellable traced (events ++ others) ↔ Tellable traced events ∧ Tellable traced others := by
  -- Events are heard one by one.
  simp only [Tellable, heard, List.filter_append, List.flatMap_append, List.mem_append,
    or_imp, forall_and]

namespace Region

/-- An answer is told together with its account, unless a number in the account is too long. -/
theorem intersectTold_eq {left right : Region} {budget : Int} {wanted : Wanted}
    {comparison : Comparison} (answered : left.intersect right budget wanted = .ok comparison)
    (traced : Bool) :
    left.intersectTold right budget wanted traced =
      if Tellable traced (account left right budget wanted comparison) then
        .ok (comparison, heard traced (account left right budget wanted comparison))
      else .error .longNumber := by
  -- The comparison itself has no fault, so only telling can fail.
  simp only [intersectTold, answered, withTold, Except.mapError, tell_eq]
  by_cases related : left.object ≠ none ∧ SameObject left.object right.object
  · -- The shapes are told first, and the account starts with them.
    obtain ⟨steps, whole⟩ : ∃ steps, account left right budget wanted comparison =
        tellShapes left right ++ steps := by
      simp only [account, tellSteps, related.2, not_true_eq_false, if_false, List.append_assoc]
      exact ⟨_, rfl⟩
    by_cases shapes : Tellable traced (tellShapes left right)
    · by_cases all : Tellable traced (account left right budget wanted comparison) <;>
        simp [related, shapes, all, Bind.bind, Except.bind, Pure.pure, Except.pure]
    · have none : ¬ Tellable traced (account left right budget wanted comparison) := by
        rw [whole, tellable_append]
        exact fun both => shapes both.1
      simp [related, shapes, none, Bind.bind, Except.bind]
  · by_cases all : Tellable traced (account left right budget wanted comparison) <;>
      simp [related, all, Bind.bind, Except.bind, Pure.pure, Except.pure]

/-- An answer whose account can be told is given. -/
theorem intersectTold_of_tellable {left right : Region} {budget : Int} {wanted : Wanted}
    {comparison : Comparison} (answered : left.intersect right budget wanted = .ok comparison)
    {traced : Bool} (tellable : Tellable traced (account left right budget wanted comparison)) :
    (left.intersectTold right budget wanted traced).map Prod.fst = .ok comparison := by
  -- The account can be told, so the answer goes through.
  rw [intersectTold_eq answered, if_pos tellable]
  rfl

/-- What is told before the axes are checked: the shape, for regions of one object. -/
def shapeNotes (left right : Region) : List Event :=
  -- Shapes are only told of regions that have one object.
  if left.object ≠ none ∧ SameObject left.object right.object then tellShapes left right else []

/-- A fault of a comparison shows, unless a number in its message or in what
was told before is too long. -/
theorem intersectTold_error {left right : Region} {budget : Int} {wanted : Wanted} {fault : Fault}
    (failed : left.intersect right budget wanted = .error fault) (traced : Bool) :
    left.intersectTold right budget wanted traced =
      .error (if Tellable traced (shapeNotes left right) then fault.told else .longNumber) := by
  -- Nothing is told behind the fault, so only the shape comes before it.
  simp only [intersectTold, failed, withTold, Except.mapError, tell_eq, shapeNotes]
  by_cases related : left.object ≠ none ∧ SameObject left.object right.object
  · by_cases shapes : Tellable traced (tellShapes left right) <;>
      simp [related, shapes, Bind.bind, Except.bind]
  · have silent : Tellable traced [] := by simp [Tellable, heard]
    simp [related, silent, Bind.bind, Except.bind]

/-- Comparable regions are never compared imprecisely. They are disjoint exactly when they share
no tuple; otherwise the shared region holds the common tuples, and on each side that was
narrowed down the shared region and the fragments split the side. The answer is told unless a
number in its account is too long. -/
theorem intersect_comparable {left right : Region} (comparable : left.Comparable right)
    (budget : Int) :
    ∃ comparison, left.intersect right budget = .ok comparison ∧
      comparison.outcome.relation ≠ .imprecise ∧
      (comparison.outcome.relation = .disjoint ↔
        ∀ tuple, ¬ (left.Holds tuple ∧ right.Holds tuple)) ∧
      (comparison.outcome.relation ≠ .disjoint → ∃ common, comparison.outcome = .exact common ∧
        (∀ tuple, common.Holds tuple ↔ left.Holds tuple ∧ right.Holds tuple) ∧
        ((∀ fragment ∈ comparison.left, fragment.kind ≠ .whole) →
          Splits Holds (common :: comparison.left) left.Holds) ∧
        ((∀ fragment ∈ comparison.right, fragment.kind ≠ .whole) →
          Splits Holds (common :: comparison.right) right.Holds)) ∧
      ∀ traced, left.intersectTold right budget {} traced =
        if Tellable traced (account left right budget {} comparison) then
          .ok (comparison, heard traced (account left right budget {} comparison))
        else .error .longNumber := by
  -- Telling does not change the answer, which is found axis by axis.
  have along := intersect_eq_relateAxes comparable.object comparable.same comparable.leftKind
    comparable.rightKind budget {}
  rcases relateAxes_cases comparable budget {} with ⟨compared, none⟩ |
    ⟨common, leftRest, rightRest, compared, shared, leftHolds, rightHolds⟩
  · have answered := along.trans compared
    exact ⟨_, answered, by simp [Outcome.disjoint], by simpa [Outcome.disjoint] using none,
      by simp [Outcome.disjoint], intersectTold_eq answered⟩
  · have answered := along.trans compared
    -- The shared axes are well-formed, so there is a common tuple.
    obtain ⟨tuple, held⟩ := exists_inAxes shared.fragment.valid
    have both := (shared.mem tuple).mp ⟨shared.fragment.kind, held⟩
    refine ⟨_, answered, by simp [Outcome.exact], ?_, fun _ => ⟨common, rfl, shared.mem, ?_, ?_⟩,
      intersectTold_eq answered⟩
    · simp only [Outcome.exact, reduceCtorEq, false_iff]
      exact fun none => none tuple both
    · intro narrow
      exact (leftHolds rfl).splits narrow fun tuple held => ((shared.mem tuple).mp held).1
    · intro narrow
      exact (rightHolds rfl).splits narrow fun tuple held => ((shared.mem tuple).mp held).2

/-- Rows in steps of two and rows in steps of three have one row in common, and three fragments are
left of either region. Rows in steps of more than two thousand digits that meet in other columns are
disjoint, and that is not told: the step of their common rows has too many digits. -/
theorem intersect_comparable_strided :
    let array (axes : List Axis) : Region := ⟨some (.name "A"), .perAxis, none, some 8, axes⟩
    let left := array [⟨0, 2, 5, 10⟩, ⟨1, 1, 4, 6⟩]
    let right := array [⟨1, 3, 3, 10⟩, ⟨2, 1, 4, 6⟩]
    let common := array [⟨4, 6, 1, 10⟩, ⟨2, 1, 3, 6⟩]
    let leftRest := [[⟨0, 2, 2, 10⟩, ⟨1, 1, 4, 6⟩], [⟨6, 2, 2, 10⟩, ⟨1, 1, 4, 6⟩],
      [⟨4, 6, 1, 10⟩, ⟨1, 1, 1, 6⟩]].map array
    let rightRest := [[⟨1, 3, 1, 10⟩, ⟨2, 1, 4, 6⟩], [⟨7, 3, 1, 10⟩, ⟨2, 1, 4, 6⟩],
      [⟨4, 6, 1, 10⟩, ⟨5, 1, 1, 6⟩]].map array
    let far : Int := (10 ^ 2200 : Nat)
    let sparse := array [⟨0, far, far + 2, 0⟩, ⟨0, 1, 1, 0⟩]
    let other := array [⟨0, far + 1, far + 1, 0⟩, ⟨1, 1, 1, 0⟩]
    (left.Comparable right ∧ left.intersect right 10 = .ok ⟨.exact common, leftRest, rightRest⟩ ∧
      Splits Holds (common :: leftRest) left.Holds ∧
        Splits Holds (common :: rightRest) right.Holds ∧
      (left.intersectTold right 10 {} false).map Prod.fst =
        .ok ⟨.exact common, leftRest, rightRest⟩) ∧
    sparse.Comparable other ∧ sparse.intersect other 10 = .ok { outcome := .disjoint } ∧
      sparse.intersectTold other 10 {} false = .error .longNumber := by
  intro array left right common leftRest rightRest far sparse other
  have comparable : left.Comparable right :=
    ⟨by decide, by decide, rfl, rfl, by decide, by decide, rfl, rfl⟩
  -- The answer is computed, and the theorem tells what its parts hold.
  have computed : left.intersect right 10 = .ok ⟨.exact common, leftRest, rightRest⟩ := by
    decide +kernel
  obtain ⟨comparison, answered, -, -, found, told⟩ := intersect_comparable comparable 10
  obtain rfl := Except.ok.inj (computed.symm.trans answered)
  obtain ⟨shared, outcome, -, leftSplits, rightSplits⟩ := found (by decide)
  obtain rfl : common = shared := by simpa [Outcome.exact] using outcome
  have short : Tellable false (account left right 10 {} ⟨.exact common, leftRest, rightRest⟩) := by
    decide +kernel
  -- The first axes meet twice, and the second ones not at all.
  have sparseComparable : sparse.Comparable other :=
    ⟨by decide, by decide, rfl, rfl, by decide +kernel, by decide +kernel, rfl, by decide +kernel⟩
  have apart : sparse.intersect other 10 = .ok { outcome := .disjoint } := by decide +kernel
  obtain ⟨verdict, verdictAnswered, -, -, -, untold⟩ := intersect_comparable sparseComparable 10
  obtain rfl := Except.ok.inj (apart.symm.trans verdictAnswered)
  -- The step between the two common indices is too long for the note about the budget.
  have long : ¬ Tellable false (account sparse other 10 {} { outcome := .disjoint }) := by
    decide +kernel
  refine ⟨⟨comparable, computed, leftSplits (by decide), rightSplits (by decide), ?_⟩,
    sparseComparable, apart, ?_⟩
  · rw [told, if_pos short]
    rfl
  · rw [untold, if_neg long]

end Region

end Overlap
