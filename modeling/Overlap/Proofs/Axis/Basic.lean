import Mathlib.Tactic.Ring
import Overlap.Axis.Check

/-! Indices of a well-formed axis lie between its ends, and inside the array axis. -/

namespace Overlap.Axis

/-- Belonging to an axis, written out. -/
theorem mem_def {axis : Axis} {index : Int} :
    index ∈ axis ↔
      ∃ steps : Int, 0 ≤ steps ∧ steps < axis.count ∧ index = axis.start + axis.step * steps :=
  -- Membership is defined by the right-hand side.
  Iff.rfl

/-- An axis in steps of one holds all numbers between its ends. -/
theorem mem_interval {low count size index : Int} :
    index ∈ (⟨low, 1, count, size⟩ : Axis) ↔ low ≤ index ∧ index < low + count := by
  -- In steps of one, the distance from the lower end is the number of steps.
  constructor
  · intro member
    obtain ⟨steps, nonneg, below, rfl⟩ := member
    dsimp only at below ⊢
    omega
  · intro bounds
    exact ⟨index - low, by omega, by dsimp only; omega, by dsimp only; omega⟩

/-- Belonging is settled by trying all numbers of steps. -/
instance (axis : Axis) (index : Int) : Decidable (index ∈ axis) :=
  -- The steps are natural numbers below the count, so they can be tried one by one.
  decidable_of_iff (∃ steps ∈ List.range axis.count.toNat,
    index = axis.start + axis.step * (steps : Int)) <| by
    constructor
    · intro found
      obtain ⟨steps, member, rfl⟩ := found
      exact ⟨steps, by omega, by have := List.mem_range.mp member; omega, rfl⟩
    · intro member
      obtain ⟨steps, nonneg, below, rfl⟩ := member
      exact ⟨steps.toNat, List.mem_range.mpr (by omega), by rw [Int.toNat_of_nonneg nonneg]⟩

/-- The check accepts exactly the well-formed axes, and hands them on unchanged. -/
theorem check_eq_ok_iff {axis other : Axis} :
    axis.check = .ok other ↔ axis = other ∧ axis.Valid := by
  -- Every test of the check is the failure of one part of being well-formed.
  unfold check Valid
  repeat' split
  all_goals simp
  all_goals omega

/-- A well-formed axis passes the check. -/
theorem check_of_valid {axis : Axis} (valid : axis.Valid) : axis.check = .ok axis :=
  -- The check accepts exactly the well-formed axes, and returns them unchanged.
  check_eq_ok_iff.mpr ⟨rfl, valid⟩

/-- A rising axis starts at its least index. -/
theorem start_le {axis : Axis} {index : Int} (rising : 0 < axis.step) (member : index ∈ axis) :
    axis.start ≤ index := by
  -- Steps are never negative, and none of them leads downwards.
  obtain ⟨steps, nonneg, -, rfl⟩ := member
  have := Int.mul_nonneg (Int.le_of_lt rising) nonneg
  omega

/-- A rising axis ends at its greatest index. -/
theorem le_last {axis : Axis} {index : Int} (rising : 0 < axis.step) (member : index ∈ axis) :
    index ≤ axis.last := by
  -- No index takes more steps from the start than the last one.
  obtain ⟨steps, -, below, rfl⟩ := member
  unfold last
  have := Int.mul_le_mul_of_nonneg_left (show steps ≤ axis.count - 1 by omega) (Int.le_of_lt rising)
  omega

/-- The start of a well-formed axis is one of its indices. -/
theorem start_mem {axis : Axis} (valid : axis.Valid) : axis.start ∈ axis :=
  -- No step is needed to reach the start.
  ⟨0, Int.le_refl 0, valid.2.2.1, by ring⟩

/-- The end of a well-formed axis is one of its indices. -/
theorem last_mem {axis : Axis} (valid : axis.Valid) : axis.last ∈ axis := by
  -- A count that is positive leaves room for one step less than the count.
  obtain ⟨-, -, positive, -, -⟩ := valid
  exact ⟨axis.count - 1, by omega, by omega, rfl⟩

/-- The indices of a well-formed axis are positions of the array axis, as
far as their number is known. -/
theorem mem_bounds {axis : Axis} {index : Int} (valid : axis.Valid) (member : index ∈ axis) :
    0 ≤ index ∧ (axis.size = 0 ∨ index < axis.size) := by
  -- Both ends lie inside the array axis, and the index lies between them.
  have low := start_le valid.2.1 member
  have high := le_last valid.2.1 member
  obtain ⟨nonneg, -, -, -, inside⟩ := valid
  omega

/-- A progression inside a well-formed axis is itself well-formed along the same array axis. -/
theorem valid_of_subset {axis whole : Axis} (wholeValid : whole.Valid) (rising : 0 < axis.step)
    (positive : 0 < axis.count) (size : axis.size = whole.size)
    (subset : ∀ index, index ∈ axis → index ∈ whole) : axis.Valid := by
  -- Both ends are indices of the outer axis, which bounds them.
  have startInside := mem_bounds wholeValid (subset axis.start ⟨0, by omega, positive, by ring⟩)
  have lastInside := mem_bounds wholeValid
    (subset axis.last ⟨axis.count - 1, by omega, by omega, rfl⟩)
  obtain ⟨-, -, -, sizeNonneg, -⟩ := wholeValid
  exact ⟨startInside.1, rising, positive, by omega, by omega⟩

end Overlap.Axis
