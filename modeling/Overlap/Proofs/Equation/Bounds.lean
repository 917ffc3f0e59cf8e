import Overlap.Proofs.Equation.Solve
import Overlap.Relation.Account

/-! The numbers in the solutions of an equation are no larger than those in the equation, so an
equation can be told exactly when its own numbers can be written. -/

namespace Overlap

/-- A number that is no larger than another one can be written if that can. -/
theorem Writable.of_natAbs_le {value other : Int} (writable : Writable other)
    (le : value.natAbs ≤ other.natAbs) :
    Writable value :=
  -- Only the size of a number counts.
  Nat.lt_of_le_of_lt le writable

/-- The sign of a number has no influence on whether it can be written. -/
@[simp] theorem writable_neg {value : Int} : Writable (-value) ↔ Writable value := by
  -- The sign is not written with a digit.
  simp [Writable]

namespace Solution.Solves

variable {solution : Solution} {a b c : Int}

/-- The first line rises by no more than the second coefficient. -/
theorem natAbs_slope_le (solves : solution.Solves a b c) (right : b ≠ 0) :
    solution.x.slope.natAbs ≤ b.natAbs := by
  -- The slope is the coefficient without the common divisor.
  have divisor := Int.gcd_pos_of_ne_zero_right a right
  have product : solution.x.slope.natAbs * Int.gcd a b = b.natAbs := by
    have sizes := congrArg Int.natAbs solves.slope
    rwa [Int.natAbs_mul, Int.natAbs_natCast, Int.natAbs_natCast] at sizes
  rw [← product]
  exact Nat.le_mul_of_pos_right _ divisor

/-- The second line rises or falls by no more than the first coefficient. -/
theorem natAbs_other_slope_le (solves : solution.Solves a b c) (right : b ≠ 0) :
    solution.y.slope.natAbs ≤ a.natAbs := by
  -- The slopes balance each other in the equation.
  have balance : b.natAbs * solution.y.slope.natAbs = a.natAbs * solution.x.slope.natAbs := by
    rw [← Int.natAbs_mul, ← Int.natAbs_mul, ← Int.natAbs_neg (a * _)]
    congr 1
    linear_combination solves.slopes
  apply Nat.le_of_mul_le_mul_left _ (Int.natAbs_pos.mpr right)
  calc b.natAbs * solution.y.slope.natAbs = a.natAbs * solution.x.slope.natAbs := balance
    _ ≤ a.natAbs * b.natAbs := Nat.mul_le_mul_left _ (solves.natAbs_slope_le right)
    _ = b.natAbs * a.natAbs := Nat.mul_comm ..

/-- The second line starts no further away than the larger one of the first
coefficient and the right-hand side. -/
theorem natAbs_other_constant_le (solves : solution.Solves a b c) (right : b ≠ 0) :
    solution.y.constant.natAbs ≤ max a.natAbs c.natAbs := by
  -- The first line starts below its slope, so at the start the equation leaves
  -- little for the second one.
  have start := (solves.complete _ _).mpr ⟨0, rfl, rfl⟩
  simp only [Line.valueAt, Int.mul_zero, Int.add_zero] at start
  have below : 1 + solution.x.constant.natAbs ≤ b.natAbs := by
    have := solves.natAbs_slope_le right
    have := solves.nonneg
    have := solves.least
    omega
  apply Nat.le_of_mul_le_mul_left _ (Int.natAbs_pos.mpr right)
  calc b.natAbs * solution.y.constant.natAbs = (c - a * solution.x.constant).natAbs := by
        rw [← Int.natAbs_mul]
        congr 1
        linear_combination start
    _ ≤ c.natAbs + a.natAbs * solution.x.constant.natAbs := by
        rw [← Int.natAbs_mul]
        omega
    _ ≤ max a.natAbs c.natAbs + max a.natAbs c.natAbs * solution.x.constant.natAbs :=
        Nat.add_le_add (Nat.le_max_right ..) (Nat.mul_le_mul_right _ (Nat.le_max_left ..))
    _ = (1 + solution.x.constant.natAbs) * max a.natAbs c.natAbs := by ring
    _ ≤ b.natAbs * max a.natAbs c.natAbs := Nat.mul_le_mul_right _ below

/-- The solutions of an equation can be written if the equation can. -/
theorem writable (solves : solution.Solves a b c) (right : b ≠ 0) (first : Writable a)
    (second : Writable b) (third : Writable c) :
    ∀ number ∈ solution.x.fields ++ solution.y.fields, Writable number := by
  -- The four numbers are bounded one by one, each of them by a number of the equation.
  have slope := solves.natAbs_slope_le right
  have constant : solution.x.constant.natAbs ≤ b.natAbs := by
    have := solves.nonneg
    have := solves.least
    omega
  have otherConstant : Writable solution.y.constant := by
    -- The other constant is bounded by the larger of two numbers, whichever it is.
    rcases Nat.le_total a.natAbs c.natAbs with le | le
    · exact third.of_natAbs_le (Nat.max_eq_right le ▸ solves.natAbs_other_constant_le right)
    · exact first.of_natAbs_le (Nat.max_eq_left le ▸ solves.natAbs_other_constant_le right)
  simp [Line.fields, second.of_natAbs_le slope, second.of_natAbs_le constant, otherConstant,
    first.of_natAbs_le (solves.natAbs_other_slope_le right)]

end Solution.Solves

/-- An equation can be told exactly when its own numbers can be written. -/
theorem writable_equationNumbers {a b : Int} (left : a ≠ 0) (right : b ≠ 0) (c : Int) :
    (∀ number ∈ equationNumbers a b c, Writable number) ↔ Writable a ∧ Writable b ∧ Writable c := by
  rcases solve_cases left right c with ⟨solved, -⟩ | ⟨solution, solved, solves⟩
  · -- The divisor that rules a solution out is no larger than the coefficients.
    have divisor : (Int.gcd a b : Int).natAbs ≤ a.natAbs := by
      rw [Int.natAbs_natCast]
      exact Nat.le_of_dvd (Int.natAbs_pos.mpr left) (Nat.gcd_dvd_left ..)
    simp only [equationNumbers, solved, commonDivisor_value, List.forall_mem_cons]
    constructor
    · intro all
      exact ⟨all.1, all.2.1, all.2.2.1⟩
    · intro all
      exact ⟨all.1, all.2.1, all.2.2, all.1.of_natAbs_le divisor, by simp⟩
  · -- The numbers of a solution are bounded by those of the equation.
    simp only [equationNumbers, solved, List.cons_append, List.nil_append, List.forall_mem_cons]
    constructor
    · intro all
      exact ⟨all.1, all.2.1, all.2.2.1⟩
    · intro all
      exact ⟨all.1, all.2.1, all.2.2, solves.writable right all.1 all.2.1 all.2.2⟩

end Overlap
