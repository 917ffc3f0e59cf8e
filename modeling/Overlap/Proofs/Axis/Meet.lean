import Mathlib.Tactic.Linarith
import Overlap.Axis.Meet
import Overlap.Proofs.Axis.Basic
import Overlap.Proofs.Equation.Solve

/-! The indices common to two axes form one axis, which is found whenever there are any. -/

namespace Overlap.Axis

/-- Axes that lie apart share no index. -/
theorem not_mem_of_apart {left right : Axis} (leftValid : left.Valid) (rightValid : right.Valid)
    (apart : left.Apart right) (index : Int) : ¬ (index ∈ left ∧ index ∈ right) := by
  -- A common index would lie between the ends of both axes.
  intro both
  obtain ⟨inLeft, inRight⟩ := both
  have leftLow := start_le leftValid.2.1 inLeft
  have leftHigh := le_last leftValid.2.1 inLeft
  have rightLow := start_le rightValid.2.1 inRight
  have rightHigh := le_last rightValid.2.1 inRight
  rcases apart with before | before <;> omega

/-- Common indices are reached after numbers of steps that solve the equation of the two axes. -/
theorem mem_both_iff_equation {left right : Axis} {index : Int} :
    index ∈ left ∧ index ∈ right ↔ ∃ x y,
      left.step * x + -right.step * y = right.start - left.start ∧
      (0 ≤ x ∧ x ≤ left.count - 1) ∧ (0 ≤ y ∧ y ≤ right.count - 1) ∧
      index = left.start + left.step * x := by
  -- Equal indices are equal sums of start and steps, and that is the equation.
  constructor
  · intro both
    obtain ⟨⟨x, xLow, xHigh, rfl⟩, ⟨y, yLow, yHigh, same⟩⟩ := both
    exact ⟨x, y, by linear_combination same, ⟨xLow, by omega⟩, ⟨yLow, by omega⟩, rfl⟩
  · intro solved
    obtain ⟨x, y, equation, ⟨xLow, xHigh⟩, ⟨yLow, yHigh⟩, rfl⟩ := solved
    exact ⟨⟨x, xLow, by omega, rfl⟩, ⟨y, yLow, by omega, by linear_combination equation⟩⟩

/-- Along the lines of all solutions, common indices are those at the parameters of both windows. -/
theorem mem_both_iff_window {left right : Axis} {solution : Solution}
    (solves : solution.Solves left.step (-right.step) (right.start - left.start))
    {xFirst xLast yFirst yLast : Int}
    (xWindow : ∀ t, (xFirst ≤ t ∧ t ≤ xLast ↔
      0 ≤ solution.x.valueAt t ∧ solution.x.valueAt t ≤ left.count - 1))
    (yWindow : ∀ t, (yFirst ≤ t ∧ t ≤ yLast ↔
      0 ≤ solution.y.valueAt t ∧ solution.y.valueAt t ≤ right.count - 1)) (index : Int) :
    index ∈ left ∧ index ∈ right ↔ ∃ t, max xFirst yFirst ≤ t ∧ t ≤ min xLast yLast ∧
      index = left.start + left.step * solution.x.valueAt t := by
  -- The lines run through all solutions, and the windows keep those with
  -- admissible numbers of steps.
  rw [mem_both_iff_equation]
  constructor
  · intro solved
    obtain ⟨x, y, equation, xInside, yInside, rfl⟩ := solved
    obtain ⟨t, rfl, rfl⟩ := (solves.complete x y).mp equation
    have xRange := (xWindow t).mpr xInside
    have yRange := (yWindow t).mpr yInside
    exact ⟨t, by omega, by omega, rfl⟩
  · intro windowed
    obtain ⟨t, low, high, rfl⟩ := windowed
    exact ⟨_, _, (solves.complete _ _).mpr ⟨t, rfl, rfl⟩, (xWindow t).mp (by omega),
      (yWindow t).mp (by omega), rfl⟩

/-- The step from one common index to the next is the least common multiple of both steps. -/
theorem step_mul_slope {left right : Axis} {c : Int} {solution : Solution}
    (leftRising : 0 < left.step) (rightRising : 0 < right.step)
    (solves : solution.Solves left.step (-right.step) c) :
    left.step * solution.x.slope = Int.lcm left.step right.step := by
  -- The slope is the other step without the common divisor.
  have slope := solves.slope
  rw [Int.gcd_neg, Int.natAbs_neg, Int.natAbs_of_nonneg (Int.le_of_lt rightRising)] at slope
  -- The product of divisor and multiple is the product of the steps.
  have product : (Int.gcd left.step right.step : Int) * Int.lcm left.step right.step =
      left.step * right.step := by
    rw [← Int.natCast_mul, Int.gcd_mul_lcm, ← Int.natAbs_mul]
    exact Int.natAbs_of_nonneg (Int.le_of_lt (Int.mul_pos leftRising rightRising))
  have positive : (Int.gcd left.step right.step : Int) ≠ 0 := by
    have := Int.gcd_pos_of_ne_zero_left right.step (show left.step ≠ 0 by omega)
    omega
  apply Int.eq_of_mul_eq_mul_left positive
  linear_combination left.step * slope - product

/-- The values of a line over a window of parameters are the indices of an axis. -/
theorem mem_window_iff {axis : Axis} {line : Line} {first last index : Int} :
    index ∈ (⟨axis.start + axis.step * line.valueAt first, axis.step * line.slope, last - first + 1,
      axis.size⟩ : Axis) ↔
      ∃ t, first ≤ t ∧ t ≤ last ∧ index = axis.start + axis.step * line.valueAt t := by
  -- Steps are counted from the first parameter of the window.
  simp only [mem_def, Line.valueAt]
  constructor
  · intro member
    obtain ⟨steps, low, high, rfl⟩ := member
    exact ⟨first + steps, by omega, by omega, by ring⟩
  · intro windowed
    obtain ⟨t, low, high, rfl⟩ := windowed
    exact ⟨t - first, by omega, by omega, by ring⟩

/-- An axis holds exactly the indices common to two axes of one array axis, and climbs by the least
common multiple of their steps. -/
structure Meets (common left right : Axis) : Prop where
  -- The step is fixed as well, so that a single common index still has one description.
  valid : common.Valid
  size : common.size = left.size
  step : common.step = Int.lcm left.step right.step
  mem : ∀ index, index ∈ common ↔ index ∈ left ∧ index ∈ right

/-- Two well-formed axes are found to share nothing, or their common indices are found. -/
theorem meet_cases {left right : Axis} (leftValid : left.Valid) (rightValid : right.Valid) :
    (left.meet right = .ok none ∧ ∀ index, ¬ (index ∈ left ∧ index ∈ right)) ∨
      ∃ common, left.meet right = .ok (some common) ∧ common.Meets left right := by
  -- The axes lie apart, the equation has no solution, the windows do not meet, or the
  -- common window is the answer.
  unfold meet
  split
  · rename_i apart
    exact Or.inl ⟨rfl, not_mem_of_apart leftValid rightValid apart⟩
  have leftRising := leftValid.2.1
  have rightRising := rightValid.2.1
  rcases solve_cases (show left.step ≠ 0 by omega) (show -right.step ≠ 0 by omega)
    (right.start - left.start) with ⟨solved, none⟩ | ⟨solution, solved, solves⟩
  · -- Without a solution no numbers of steps lead to one index.
    refine Or.inl ⟨by simp [solved, Bind.bind, Except.bind, Pure.pure, Except.pure], ?_⟩
    intro index both
    obtain ⟨x, y, equation, -⟩ := mem_both_iff_equation.mp both
    exact none x y equation
  -- Both lines rise, so each of them stays within its count for one window of parameters.
  have yRising : 0 < solution.y.slope := by
    have slopes := solves.slopes
    have product : 0 < right.step * solution.y.slope := by
      have := Int.mul_pos leftRising solves.rising
      linarith
    exact (mul_pos_iff_of_pos_left rightRising).mp product
  obtain ⟨xFirst, xLast, xWindowed, xWindow⟩ := Line.window_eq solves.rising 0 (left.count - 1)
  obtain ⟨yFirst, yLast, yWindowed, yWindow⟩ := Line.window_eq yRising 0 (right.count - 1)
  have both := mem_both_iff_window solves xWindow yWindow
  simp only [solved, xWindowed, yWindowed, Bind.bind, Except.bind, Pure.pure, Except.pure]
  split
  · rename_i empty
    refine Or.inl ⟨rfl, fun index shared => ?_⟩
    obtain ⟨t, low, high, -⟩ := (both index).mp shared
    omega
  · rename_i nonempty
    let common : Axis := ⟨left.start + left.step * solution.x.valueAt (max xFirst yFirst),
      left.step * solution.x.slope, min xLast yLast - max xFirst yFirst + 1, left.size⟩
    have members : ∀ index, index ∈ common ↔ index ∈ left ∧ index ∈ right :=
      fun index => mem_window_iff.trans (both index).symm
    have positive : 0 < common.count := by
      show 0 < min xLast yLast - max xFirst yFirst + 1
      omega
    have valid : common.Valid :=
      valid_of_subset leftValid (Int.mul_pos leftRising solves.rising) positive rfl
      fun index member => ((members index).mp member).1
    refine Or.inr ⟨common, ?_, valid, rfl, step_mul_slope leftRising rightRising solves, members⟩
    rw [check_of_valid valid]

end Overlap.Axis
