import Overlap.Proofs.Footprint.Routes

/-! Equal arrays are answered at once. Comparing them axis by axis would give the same answer, so
the shortcut saves work and changes nothing. -/

namespace Overlap

/-- Well-formed axes are parts of themselves, and hold the tuples that
they share with themselves. -/
theorem meetAll_self {axes : List Axis} (valid : AllValid axes) : MeetAll axes axes axes := by
  -- Every axis is a part of itself.
  have parts : PartsOf axes axes := by
    refine List.forall₂_same.mpr fun axis member => ?_
    have axisValid := valid axis member
    exact ⟨axisValid, axisValid, rfl, Int.dvd_refl _, fun _ inside => inside⟩
  exact ⟨parts, parts, (jointSteps_self valid).symm, fun _ => and_self_iff.symm⟩

/-- Two lists of axes have only one list of common axes. -/
theorem MeetAll.unique {commons others lefts rights : List Axis}
    (all : MeetAll commons lefts rights) (other : MeetAll others lefts rights) : commons = others :=
  -- Steps, sizes and tuples of both are given by the two lists.
  axes_eq_of_inAxes_iff all.left.valid other.left.valid (all.steps.trans other.steps.symm)
    (all.left.sizes.trans other.left.sizes.symm) fun tuple =>
      (all.mem tuple).trans (other.mem tuple).symm

/-- Well-formed axes meet themselves in themselves. -/
theorem meetAxes_self {axes : List Axis} (valid : AllValid axes) (number : Nat) :
    meetAxes number axes axes = .ok (.shared axes) := by
  rcases meetAxes_cases valid valid rfl number with ⟨axis, -, none⟩ | ⟨commons, met, all⟩
  · -- The starts of the axes are a common tuple.
    obtain ⟨tuple, held⟩ := exists_inAxes valid
    exact absurd ⟨held, held⟩ (none tuple)
  · rw [met, all.unique (meetAll_self valid)]

/-- Nothing is left of well-formed axes outside themselves. -/
theorem leftoverAxes_self {axes : List Axis} (valid : AllValid axes) {budget : Int}
    (nonneg : 0 ≤ budget) :
    leftoverAxes budget axes axes = .ok (some []) := by
  have parts := (meetAll_self valid).left
  -- No phase is skipped, so there is an answer.
  obtain ⟨pieces, within⟩ := leftoverAxes_of_steps parts rfl nonneg
  rcases leftoverAxes_cases parts budget with exceeded | ⟨others, found, leaves⟩
  · cases exceeded.symm.trans within
  · -- A piece would be well-formed, and its first tuple would lie inside the
    -- axes and outside of them.
    have none : others = [] := by
      refine List.eq_nil_iff_forall_not_mem.mpr fun piece member => ?_
      obtain ⟨tuple, held⟩ := exists_inAxes (leaves.valid piece member)
      obtain ⟨inside, outside⟩ := leaves.splits.inside piece member tuple held
      exact outside inside
    rw [found, none]

namespace Region

/-- The comparison of two arrays axis by axis, without a look at whether they are equal. -/
def relateEach (left right : Region) (budget : Int) (wanted : Wanted) :
    Except Fault Comparison := do
  -- The shortcut for equal arrays is left out here.
  left.settle right budget wanted (← meetAxes 0 left.axes right.axes)

/-- Two arrays are checked for their axes and their shape, equal ones are then answered at once, and
all others are compared axis by axis. -/
theorem relateAxes_eq (left right : Region) (budget : Int) (wanted : Wanted) :
    left.relateAxes right budget wanted = (do
      checkAxes (left.axes ++ right.axes)
      if left.axes.length ≠ right.axes.length ∨ left.upper ≠ right.upper then
        return { outcome := .imprecise }
      if left.lower = right.lower ∧ left.axes = right.axes then return { outcome := .exact left }
      left.relateEach right budget wanted) := by
  unfold relateAxes relateEach
  -- Behind the two tests, the comparison is settled by how the axes lie to each other.
  cases meetAxes 0 left.axes right.axes with
  | error fault => rfl
  | ok met => cases met <;> rfl

/-- Equal arrays with well-formed axes share all that they hold, also when
they are compared axis by axis. -/
theorem relateEach_equal {left right : Region} (kind : left.kind = .perAxis)
    (axes : left.axes = right.axes) (valid : AllValid left.axes) {budget : Int}
    (nonneg : 0 ≤ budget) (wanted : Wanted) :
    left.relateEach right budget wanted = .ok { outcome := .exact left } := by
  -- Either side is its own common part, outside of which nothing is left.
  have nothing : ∀ side : Region, side.axes = left.axes →
      side.leftover left.axes budget = .ok [] := by
    intro side same
    simp [leftover, same, leftoverAxes_self valid nonneg, Bind.bind, Except.bind, Pure.pure,
      Except.pure]
  have whole : left.withAxes left.axes = left := by
    simp [withAxes, ← kind]
  simp only [relateEach, ← axes, meetAxes_self valid, Bind.bind, Except.bind, settle,
    nothing left rfl, nothing right axes.symm, whole, Pure.pure, Except.pure]
  cases wanted.left <;> cases wanted.right <;> rfl

/-- The shortcut for equal arrays has no influence on a comparison. -/
theorem relateAxes_eq_relateEach {left right : Region} (kind : left.kind = .perAxis)
    (leftValid : AllValid left.axes) (rightValid : AllValid right.axes)
    (counts : left.axes.length = right.axes.length) (element : left.upper = right.upper)
    {budget : Int} (nonneg : 0 ≤ budget) (wanted : Wanted) :
    left.relateAxes right budget wanted = left.relateEach right budget wanted := by
  -- The shortcut gives what the comparison of the axes would have found.
  rw [relateAxes_eq, checkAxes_append leftValid rightValid]
  by_cases equal : left.lower = right.lower ∧ left.axes = right.axes
  · simp [element, equal, relateEach_equal kind equal.2 leftValid nonneg, Bind.bind,
      Except.bind, Pure.pure, Except.pure]
  · simp [counts, element, equal, Bind.bind, Except.bind]

/-- Nothing is worth telling about arrays that are alike. -/
theorem account_alike {left right : Region} (alike : left.Alike right) (kind : left.kind = .perAxis)
    (budget : Int) (wanted : Wanted) (answer : Comparison) :
    account left right budget wanted answer = [] := by
  obtain ⟨same, kinds, lower, upper, axes⟩ := alike
  -- No shape is changed, and the shortcut leaves neither a step nor a summary.
  simp [account, tellSteps, tellSummary, same, alignShapes, tellShapes, tellArrays, kind, ← kinds,
    lower, upper, axes]

/-- Arrays of one object that are alike are compared exactly: they share the left one,
and nothing is left over, told or put behind the lists. Comparing them axis by axis
would give the same answer. -/
theorem intersectInto_alike {left right : Region} (object : left.object ≠ none)
    (alike : left.Alike right) (kind : left.kind = .perAxis) (valid : AllValid left.axes)
    {budget : Int} (nonneg : 0 ≤ budget) :
    (∀ wanted, left.relateEach right budget wanted = .ok { outcome := .exact left }) ∧
      ∀ kept traced, left.intersectInto right budget kept traced =
        (.ok ({ outcome := .exact left }, []), kept) := by
  obtain ⟨same, kinds, lower, upper, axes⟩ := id alike
  have each := relateEach_equal kind axes valid nonneg
  refine ⟨each, fun kept traced => ?_⟩
  -- The comparison takes the shortcut, which agrees with the comparison axis by axis.
  have answered : left.intersect right budget kept.wanted = .ok { outcome := .exact left } := by
    rw [intersect_eq_relateAxes object same kind (kinds.symm.trans kind),
      relateAxes_eq_relateEach kind valid (axes ▸ valid) (congrArg List.length axes) upper nonneg,
      each]
  have silent := account_alike alike kind budget kept.wanted { outcome := .exact left }
  have steps : tellSteps left right budget kept.wanted = [] := (List.append_eq_nil_iff.mp silent).1
  rw [intersectInto_ok answered, silent, steps]
  simp [Tellable, heard, Kept.add_nil]

/-- An array with a single index along an axis of unknown size shares all of itself with
itself, and with the same array under another spelling of its object. Lists that already
hold something keep just that. -/
theorem intersectInto_alike_strided :
    let region : Region :=
      ⟨some (.number 1), .perAxis, none, some 8, [⟨1, 3, 3, 12⟩, ⟨0, 1, 4, 4⟩, ⟨5, 7, 1, 0⟩]⟩
    let other : Region := { region with object := some (.flag true) }
    let kept : Kept := ⟨some [region.widen], some []⟩
    (region.relateEach other 0 {} = .ok { outcome := .exact region } ∧
      region.intersectInto other 0 kept true = (.ok ({ outcome := .exact region }, []), kept)) ∧
    region.relateEach region 3 {} = .ok { outcome := .exact region } ∧
      region.intersectInto region 3 kept = (.ok ({ outcome := .exact region }, []), kept) := by
  intro region other kept
  -- The region is well-formed, and alike to both itself and the other one.
  have valid : AllValid region.axes := by decide
  have alike : region.Alike other := by decide
  have itself : region.Alike region := by decide
  -- With a flag in place of the number, the two regions are alike and not equal.
  obtain ⟨spelled, spelledKept⟩ := intersectInto_alike (by decide) alike rfl valid (Int.le_refl 0)
  obtain ⟨same, sameKept⟩ :=
    intersectInto_alike (by decide) itself rfl valid (by decide : (0 : Int) ≤ 3)
  exact ⟨⟨spelled {}, spelledKept kept true⟩, same {}, sameKept kept false⟩

/-- Arrays that are alike are refused when they have no object: likeness and well-formed axes alone
do not make a comparison exact. -/
theorem intersectInto_alike_unowned :
    ¬ ∀ (left right : Region) (budget : Int) (kept : Kept), left.Alike right →
      left.kind = .perAxis →
      AllValid left.axes → 0 ≤ budget →
        left.intersectInto right budget kept = (.ok ({ outcome := .exact left }, []), kept) := by
  intro exact
  -- A region without an object is alike to itself.
  let region : Region := ⟨none, .perAxis, none, some 8, [⟨1, 3, 3, 12⟩, ⟨0, 1, 4, 4⟩]⟩
  have shared := exact region region 10 ⟨some [], some []⟩ (by decide) rfl (by decide) (by decide)
  -- It is refused before anything is compared.
  have refused : region.intersect region 10 {} = .error (.breach .noObject) := rfl
  rw [intersectInto_error refused] at shared
  cases congrArg Prod.fst shared

end Region

end Overlap
