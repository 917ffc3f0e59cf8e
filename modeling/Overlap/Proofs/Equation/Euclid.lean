import Mathlib.Data.Nat.Size
import Mathlib.Logic.Function.Iterate
import Overlap.Proofs.Equation.Solve

/-! The division loop behind common divisors, pass by pass: it ends for all integers after a
number of passes that grows with the length of the second number, and leaves the greatest common
divisor with its coefficients. -/

namespace Overlap

namespace Bezout

/-- One pass of the loop: the newer row becomes the older one, and what the division
leaves becomes the newer one. -/
def pass (rows : Bezout × Bezout) : Bezout × Bezout :=
  -- The newer row moves to the front, and what is left of the older one follows it.
  (rows.2, rows.1.subtract (rows.1.value.fdiv rows.2.value) rows.2)

/-- The loop makes exactly that many passes: there is something left to divide by before each of
them, and nothing after the last one. -/
def EndsAfter (rows : Bezout × Bezout) (passes : Nat) : Prop :=
  -- The loop goes on as long as the newer value is not zero.
  (∀ earlier < passes, (pass^[earlier] rows).2.value ≠ 0) ∧ (pass^[passes] rows).2.value = 0

/-- The row with all signs turned if its value is negative. -/
def unsigned (row : Bezout) : Bezout :=
  -- This is the last step of the computation, after the loop.
  if row.value < 0 then row.negate else row

variable {rows : Bezout × Bezout}

/-- A pass leaves the remainder of the division rounded down. -/
theorem pass_value (rows : Bezout × Bezout) :
    (pass rows).2.value = rows.1.value.fmod rows.2.value := by
  -- Taking the quotient away leaves the remainder of the division rounded down.
  simp only [pass, subtract, Int.fmod_def]
  rw [Int.mul_comm]

/-- A pass leaves less than the divisor, with the sign of the divisor. -/
theorem pass_value_bounds (nonzero : rows.2.value ≠ 0) :
    (0 < rows.2.value → 0 ≤ (pass rows).2.value ∧ (pass rows).2.value < rows.2.value) ∧
      (rows.2.value < 0 → (pass rows).2.value ≤ 0 ∧ rows.2.value < (pass rows).2.value) := by
  have smaller : (pass rows).2.value.natAbs < rows.2.value.natAbs :=
    natAbs_subtract_lt rows.1 rows.2 nonzero
  -- The least remainder lies above zero, and a negative divisor is added to it once.
  have low := Int.emod_nonneg rows.1.value nonzero
  have high := Int.emod_lt rows.1.value nonzero
  rw [pass_value, Int.fmod_eq_emod] at smaller ⊢
  split at smaller <;> omega

/-- What is left of a number after a smaller one was taken away as often as
possible is less than half of it. -/
theorem two_mul_lt_of_leaves {whole part left times : Int} (smaller : part < whole) (low : 0 ≤ left)
    (high : left < part) (leaves : left = whole - times * part) : 2 * left < whole := by
  -- The smaller number fits at least once, so it and what is left fit side by side.
  have once : 1 ≤ times := by
    by_contra never
    have := Int.mul_nonpos_of_nonpos_of_nonneg (show times ≤ 0 by omega) (show 0 ≤ part by omega)
    omega
  have further : 0 ≤ (times - 1) * part := Int.mul_nonneg (by omega) (by omega)
  rw [Int.sub_mul, Int.one_mul] at further
  omega

/-- Two passes leave less than half of the divisor. -/
theorem two_mul_natAbs_pass_pass_lt (nonzero : rows.2.value ≠ 0) (more : (pass rows).2.value ≠ 0) :
    2 * (pass (pass rows)).2.value.natAbs < rows.2.value.natAbs := by
  -- The second pass takes the first remainder away from the divisor a number of times.
  obtain ⟨times, second⟩ : ∃ times, (pass (pass rows)).2.value =
      rows.2.value - times * (pass rows).2.value :=
    ⟨_, rfl⟩
  have first := pass_value_bounds nonzero
  have last := @pass_value_bounds (pass rows) more
  -- All three numbers have one sign.
  rcases Int.lt_or_gt_of_ne nonzero with negative | positive
  · have turned : -(pass (pass rows)).2.value = -rows.2.value - times * -(pass rows).2.value := by
      rw [second]
      ring
    have half := two_mul_lt_of_leaves (by omega) (by omega) (by omega) turned
    omega
  · have half := two_mul_lt_of_leaves (by omega) (by omega) (by omega) second
    omega

/-- A loop that has something left to divide by makes one pass more than from its next rows on. -/
theorem EndsAfter.step (nonzero : rows.2.value ≠ 0) {passes : Nat}
    (ends : EndsAfter (pass rows) passes) :
    EndsAfter rows (passes + 1) := by
  -- The passes of the rest are those of the whole, moved by one.
  refine ⟨fun earlier before => ?_, ends.2⟩
  cases earlier with
  | zero => exact nonzero
  | succ earlier => exact ends.1 earlier (by omega)

/-- Less than half of a number is at least one digit shorter in base two. -/
theorem size_lt_of_two_mul_lt {half whole : Nat} (less : 2 * half < whole) :
    Nat.size half + 1 ≤ Nat.size whole := by
  -- Twice the number has one binary digit more, and still fits into those of the whole.
  have positive : 0 < Nat.size whole := Nat.size_pos.mpr (by omega)
  obtain ⟨digits, length⟩ := Nat.exists_eq_succ_of_ne_zero (Nat.ne_of_gt positive)
  have below := Nat.lt_size_self whole
  rw [length, Nat.pow_succ] at below
  rw [length]
  exact Nat.succ_le_succ (Nat.size_le.mpr (by omega))

/-- The loop ends, after at most two passes for each binary digit of the divisor. -/
theorem exists_endsAfter (rows : Bezout × Bezout) :
    ∃ passes ≤ 2 * Nat.size rows.2.value.natAbs, EndsAfter rows passes := by
  -- The divisor gets smaller, and two passes at a time make it shorter by a digit.
  induction size : rows.2.value.natAbs using Nat.strong_induction_on generalizing rows with
  | _ divisor ih =>
    subst size
    by_cases nonzero : rows.2.value = 0
    · exact ⟨0, by omega, by simp, nonzero⟩
    · have shorter : 1 ≤ Nat.size rows.2.value.natAbs := Nat.size_pos.mpr (by omega)
      by_cases more : (pass rows).2.value = 0
      · exact ⟨1, by omega, EndsAfter.step nonzero ⟨by simp, more⟩⟩
      · have half := two_mul_natAbs_pass_pass_lt nonzero more
        obtain ⟨passes, few, ends⟩ := ih _ (by omega) (pass (pass rows)) rfl
        have := size_lt_of_two_mul_lt half
        exact ⟨passes + 2, by omega, (ends.step more).step nonzero⟩

/-- Where the loop ends, the older row is the result of the repeated division. -/
theorem EndsAfter.reduce_eq {passes : Nat} (ends : EndsAfter rows passes) :
    rows.1.reduce rows.2 = (pass^[passes] rows).1 := by
  -- The definition makes one pass and goes on with the rows that it leaves.
  induction passes generalizing rows with
  | zero =>
    have zero : rows.2.value = 0 := ends.2
    rw [Bezout.reduce, dif_pos zero]
    rfl
  | succ passes ih =>
    have nonzero : rows.2.value ≠ 0 := ends.1 0 (by omega)
    rw [Bezout.reduce, dif_neg nonzero]
    exact ih ⟨fun earlier before => ends.1 (earlier + 1) (by omega), ends.2⟩

end Bezout

/-- For all integers the division loop ends, after at most two passes for each binary digit of the
second one. What it leaves, without its sign, is the greatest common divisor, combined from the two
numbers by its coefficients. -/
theorem commonDivisor_exact (a b : Int) :
    (∃ passes ≤ 2 * Nat.size b.natAbs, Bezout.EndsAfter (⟨a, 1, 0⟩, ⟨b, 0, 1⟩) passes ∧
      commonDivisor a b = (Bezout.pass^[passes] (⟨a, 1, 0⟩, ⟨b, 0, 1⟩)).1.unsigned) ∧
    0 ≤ (commonDivisor a b).value ∧ (commonDivisor a b).value = Int.gcd a b ∧
    ((commonDivisor a b).value = 0 ↔ a = 0 ∧ b = 0) ∧
    a * (commonDivisor a b).left + b * (commonDivisor a b).right = (commonDivisor a b).value := by
  -- All parts follow from the value, and the passes from the rows at the start.
  have value := commonDivisor_value a b
  refine ⟨?_, by omega, value, ?_, commonDivisor_combines a b⟩
  · -- The definition and the loop end with the same row.
    obtain ⟨passes, few, ends⟩ := Bezout.exists_endsAfter (⟨a, 1, 0⟩, ⟨b, 0, 1⟩)
    refine ⟨passes, few, ends, ?_⟩
    rw [← ends.reduce_eq]
    rfl
  · rw [value, Int.natCast_eq_zero, Int.gcd_eq_zero_iff]

end Overlap
