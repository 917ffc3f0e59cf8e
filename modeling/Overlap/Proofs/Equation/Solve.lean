import Mathlib.Tactic.LinearCombination
import Mathlib.Tactic.Ring
import Overlap.Equation.Solve

/-! The solutions of a linear equation in two unknowns are exactly the values of the two lines. -/

namespace Overlap

namespace Bezout

/-- Taking multiples of one combination away from another one leaves a combination. -/
theorem Combines.subtract {older newer : Bezout} {a b : Int} (olderHolds : older.Combines a b)
    (newerHolds : newer.Combines a b) (times : Int) :
    (older.subtract times newer).Combines a b := by
  -- The equation of the newer row is taken off that of the older one, the same number of times.
  unfold Combines at *
  simp only [Bezout.subtract]
  linear_combination olderHolds - times * newerHolds

/-- A combination stays one when all signs are turned. -/
theorem Combines.negate {row : Bezout} {a b : Int} (holds : row.Combines a b) :
    row.negate.Combines a b := by
  -- Both sides of the equation change their signs.
  unfold Combines at *
  simp only [Bezout.negate]
  linear_combination -holds

/-- Repeated division ends in a combination of the two numbers it started from. -/
theorem Combines.reduce {older newer : Bezout} {a b : Int} (olderHolds : older.Combines a b)
    (newerHolds : newer.Combines a b) : (older.reduce newer).Combines a b := by
  -- Each round hands on the newer row and the remainder, and both are combinations.
  fun_induction Bezout.reduce older newer with
  | case1 older newer zero => exact olderHolds
  | case2 older newer nonzero ih => exact ih newerHolds (olderHolds.subtract newerHolds _)

/-- Repeated division ends, up to sign, in the greatest common divisor of the two values. -/
theorem reduce_natAbs (older newer : Bezout) :
    (older.reduce newer).value.natAbs = Int.gcd older.value newer.value := by
  -- Each round keeps the greatest common divisor of the two values.
  fun_induction Bezout.reduce older newer with
  | case1 older newer zero => simp [zero]
  | case2 older newer nonzero ih =>
    -- Multiples of the newer value do not change what it has in common with the older one.
    rw [ih]
    simp only [Bezout.subtract]
    rw [Int.gcd_sub_mul_right_right, Int.gcd_comm]

end Bezout

/-- The computed divisor is a combination of the two numbers. -/
theorem commonDivisor_combines (a b : Int) : (commonDivisor a b).Combines a b := by
  -- The rows at the start are the two numbers themselves.
  have reduced : (Bezout.reduce ⟨a, 1, 0⟩ ⟨b, 0, 1⟩).Combines a b :=
    Bezout.Combines.reduce (by simp [Bezout.Combines]) (by simp [Bezout.Combines])
  unfold commonDivisor
  dsimp only
  split
  · exact reduced.negate
  · exact reduced

/-- The computed divisor is the greatest common divisor. -/
theorem commonDivisor_value (a b : Int) : (commonDivisor a b).value = Int.gcd a b := by
  have size := Bezout.reduce_natAbs ⟨a, 1, 0⟩ ⟨b, 0, 1⟩
  -- The sign is turned exactly when the value is negative, so the size is the value.
  unfold commonDivisor
  simp only at size ⊢
  split
  · simp only [Bezout.negate]
    omega
  · omega

/-- Quotients by positive numbers are found. -/
theorem floorQuotient_of_pos (a : Int) {b : Int} (positive : 0 < b) :
    floorQuotient a b = .ok (a / b) := by
  -- For positive divisors all ways of rounding down agree.
  rw [floorQuotient, if_neg (by omega), Int.fdiv_eq_ediv_of_nonneg _ (by omega)]

/-- Remainders by positive numbers are found. -/
theorem floorRemainder_of_pos (a : Int) {b : Int} (positive : 0 < b) :
    floorRemainder a b = .ok (a % b) := by
  -- For positive divisors the remainder is the least one that is not negative.
  rw [floorRemainder, if_neg (by omega), Int.fmod_eq_emod_of_nonneg _ (by omega)]

/-- The parameters in the window are those at which a rising line stays between two values. -/
theorem Line.window_eq {line : Line} (rising : 0 < line.slope) (low high : Int) :
    ∃ first last, line.window low high = .ok (first, last) ∧
      ∀ t, (first ≤ t ∧ t ≤ last ↔ low ≤ line.valueAt t ∧ line.valueAt t ≤ high) := by
  -- Both ends of the window are rounded inwards.
  have nonzero : line.slope ≠ 0 := by omega
  refine ⟨-((-(low - line.constant)).fdiv line.slope),
    (high - line.constant).fdiv line.slope, ?_, ?_⟩
  · simp [Line.window, ceilQuotient, floorQuotient, nonzero, show ¬ line.slope ≤ 0 by omega,
      Bind.bind, Except.bind, Pure.pure, Except.pure]
  · intro t
    rw [Int.fdiv_eq_ediv_of_nonneg _ (by omega), Int.fdiv_eq_ediv_of_nonneg _ (by omega)]
    simp only [Line.valueAt]
    -- A quotient rounded down is compared with an integer by multiplying out.
    have lower : -(-(low - line.constant) / line.slope) ≤ t ↔
        low ≤ line.constant + line.slope * t := by
      have scaled := Int.le_ediv_iff_mul_le (a := -t) (b := -(low - line.constant)) rising
      rw [show -t * line.slope = -(line.slope * t) by ring] at scaled
      constructor
      · intro above
        have := scaled.mp (by omega)
        omega
      · intro above
        have := scaled.mpr (by omega)
        omega
    have upper : t ≤ (high - line.constant) / line.slope ↔
        line.constant + line.slope * t ≤ high := by
      rw [Int.le_ediv_iff_mul_le rising, Int.mul_comm]
      omega
    rw [lower, upper]

namespace Solution

/-- Two lines with a shared parameter run through all solutions of `a * x + b * y = c`, and the
first of them rises from the least solution that is not negative. -/
structure Solves (solution : Solution) (a b c : Int) : Prop where
  -- The first three make the lines unique, and the last one says that nothing is missing.
  rising : 0 < solution.x.slope
  nonneg : 0 ≤ solution.x.constant
  least : solution.x.constant < solution.x.slope
  slope : solution.x.slope * Int.gcd a b = b.natAbs
  complete : ∀ x y, a * x + b * y = c ↔ ∃ t, x = solution.x.valueAt t ∧ y = solution.y.valueAt t

/-- The slopes solve the equation with nothing on its right-hand side. -/
theorem Solves.slopes {solution : Solution} {a b c : Int} (solves : solution.Solves a b c) :
    a * solution.x.slope + b * solution.y.slope = 0 := by
  -- Two neighbouring solutions differ by the slopes.
  have first := (solves.complete _ _).mpr ⟨0, rfl, rfl⟩
  have second := (solves.complete _ _).mpr ⟨1, rfl, rfl⟩
  simp only [Line.valueAt] at first second
  linear_combination second - first

end Solution

/-- Numbers without a common divisor balance each other only in multiples. -/
theorem balanced_of_gcd_eq_one {a b u v : Int} (coprime : Int.gcd a b = 1) (nonzero : b ≠ 0)
    (balance : a * u + b * v = 0) : ∃ t, u = -b * t ∧ v = a * t := by
  -- The second coefficient divides a product with the first one, so it divides the other factor.
  have divides : b ∣ a * u := ⟨-v, by linear_combination balance⟩
  obtain ⟨s, same⟩ := Int.dvd_of_dvd_mul_right_of_gcd_one divides (by rwa [Int.gcd_comm])
  refine ⟨-s, by rw [same]; ring, ?_⟩
  apply Int.eq_of_mul_eq_mul_left nonzero
  rw [same] at balance
  linear_combination balance

/-- The differences between solutions are the multiples of one direction, whose first
part can be taken positive. -/
theorem direction_of_gcd {a b rise run : Int} (right : b ≠ 0)
    (picked : (rise, run) = if -b / Int.gcd a b < 0 then (-(-b / Int.gcd a b), -(a / Int.gcd a b))
      else (-b / Int.gcd a b, a / Int.gcd a b)) :
    0 < rise ∧ rise * Int.gcd a b = b.natAbs ∧
      ∀ u v, a * u + b * v = 0 ↔ ∃ t, u = rise * t ∧ v = run * t := by
  -- The direction is found without the common divisor, and turned round if it falls.
  have positive : 0 < (Int.gcd a b : Int) := by
    have := Int.gcd_pos_of_ne_zero_right a right
    omega
  -- Without their common divisor the coefficients have no common part left.
  have coprime := Int.gcd_ediv_gcd_ediv_gcd (i := a) (j := b) (by omega)
  obtain ⟨a', aEq⟩ := Int.gcd_dvd_left a b
  obtain ⟨b', bEq⟩ := Int.gcd_dvd_right a b
  generalize (Int.gcd a b : Int) = g at *
  subst aEq bEq
  have nonzero : b' ≠ 0 := by
    intro zero
    simp [zero] at right
  rw [Int.mul_ediv_cancel_left _ (by omega), Int.mul_ediv_cancel_left _ (by omega)] at coprime
  rw [show -(g * b') = g * -b' by ring, Int.mul_ediv_cancel_left _ (by omega),
    Int.mul_ediv_cancel_left _ (by omega)] at picked
  -- Dividing the equation by the common divisor leaves its solutions as they are.
  have balance : ∀ u v, g * a' * u + g * b' * v = 0 ↔ ∃ t, u = -b' * t ∧ v = a' * t := by
    intro u v
    constructor
    · intro whole
      apply balanced_of_gcd_eq_one coprime nonzero
      apply Int.eq_of_mul_eq_mul_left (show g ≠ 0 by omega)
      linear_combination whole
    · intro multiple
      obtain ⟨t, rfl, rfl⟩ := multiple
      ring
  split at picked
  · rename_i falling
    obtain ⟨rfl, rfl⟩ := Prod.mk.inj picked
    refine ⟨by omega, ?_, ?_⟩
    · rw [Int.natAbs_of_nonneg (Int.mul_nonneg (by omega) (by omega))]
      ring
    · -- Turning the direction round turns the sign of the parameter.
      intro u v
      rw [balance]
      constructor
      all_goals
        intro multiple
        obtain ⟨t, rfl, rfl⟩ := multiple
        exact ⟨-t, by ring, by ring⟩
  · rename_i notFalling
    obtain ⟨rfl, rfl⟩ := Prod.mk.inj picked
    refine ⟨by omega, ?_, balance⟩
    rw [Int.ofNat_natAbs_of_nonpos (Int.mul_nonpos_of_nonneg_of_nonpos (by omega) (by omega))]
    ring

/-- One solution and the direction of all differences give the lines of all solutions. -/
theorem solves_of_direction {a b c x y rise run : Int} (start : a * x + b * y = c)
    (positive : 0 < rise) (slope : rise * Int.gcd a b = b.natAbs)
    (direction : ∀ u v, a * u + b * v = 0 ↔ ∃ t, u = rise * t ∧ v = run * t) :
    Solution.Solves ⟨⟨x - x / rise * rise, rise⟩, ⟨y - x / rise * run, run⟩⟩ a b c := by
  -- Taking whole rises away from the first solution leaves a remainder, the least one.
  have along := (direction rise run).mpr ⟨1, by ring, by ring⟩
  have remainder : x - x / rise * rise = x % rise := by
    have := Int.emod_add_mul_ediv x rise
    linear_combination -this
  refine ⟨positive, ?_, ?_, slope, ?_⟩
  · rw [remainder]
    exact Int.emod_nonneg x (by omega)
  · rw [remainder]
    exact Int.emod_lt_of_pos x positive
  · intro u v
    simp only [Line.valueAt]
    constructor
    · intro solved
      -- The distance to the known solution follows the direction.
      obtain ⟨t, first, second⟩ :=
        (direction (u - x) (v - y)).mp (by linear_combination solved - start)
      exact ⟨t + x / rise, by linear_combination first, by linear_combination second⟩
    · intro onLines
      obtain ⟨t, rfl, rfl⟩ := onLines
      linear_combination start + (t - x / rise) * along

/-- Every equation with nonzero coefficients is solved, or found to have no solution. -/
theorem solve_cases {a b : Int} (left : a ≠ 0) (right : b ≠ 0) (c : Int) :
    (solve a b c = .ok none ∧ ∀ x y, a * x + b * y ≠ c) ∨
      ∃ solution, solve a b c = .ok (some solution) ∧ solution.Solves a b c := by
  -- The divisor decides whether there is a solution, and its combination gives the first one.
  have value := commonDivisor_value a b
  have combines : a * (commonDivisor a b).left + b * (commonDivisor a b).right =
      (commonDivisor a b).value := commonDivisor_combines a b
  have divisor : 0 < (Int.gcd a b : Int) := by
    have := Int.gcd_pos_of_ne_zero_left b left
    omega
  unfold solve
  rw [if_neg (by simp [left, right])]
  dsimp only
  rw [value] at combines ⊢
  simp only [floorRemainder_of_pos _ divisor, floorQuotient_of_pos _ divisor, Bind.bind,
    Except.bind, Pure.pure, Except.pure]
  split
  · -- A solution would make the right-hand side a multiple of the divisor.
    rename_i inexact
    refine Or.inl ⟨rfl, fun x y solved => inexact ?_⟩
    rw [← solved]
    exact Int.emod_eq_zero_of_dvd (Int.dvd_add (Int.dvd_mul_of_dvd_left (Int.gcd_dvd_left a b))
      (Int.dvd_mul_of_dvd_left (Int.gcd_dvd_right a b)))
  · rename_i exact
    -- Scaling the combination that gives the divisor gives one solution.
    have scaled : (Int.gcd a b : Int) * (c / Int.gcd a b) = c :=
      Int.mul_ediv_cancel' (Int.dvd_of_emod_eq_zero (by simpa using exact))
    have start : a * ((commonDivisor a b).left * (c / Int.gcd a b)) +
        b * ((commonDivisor a b).right * (c / Int.gcd a b)) = c := by
      linear_combination (c / (Int.gcd a b : Int)) * combines + scaled
    generalize picked : (if -b / (Int.gcd a b : Int) < 0 then
      (-(-b / (Int.gcd a b : Int)), -(a / (Int.gcd a b : Int)))
      else (-b / (Int.gcd a b : Int), a / (Int.gcd a b : Int))) = pair
    obtain ⟨rise, run⟩ := pair
    obtain ⟨positive, slope, direction⟩ := direction_of_gcd right picked.symm
    simp only [floorQuotient_of_pos _ positive]
    exact Or.inr ⟨_, rfl, solves_of_direction start positive slope direction⟩

end Overlap
