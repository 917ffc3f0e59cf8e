/-! Greatest common divisors, written as combinations of the two numbers. -/

namespace Overlap

/-- A value together with coefficients that combine two given numbers to it. -/
structure Bezout where
  value : Int
  left : Int
  right : Int
deriving DecidableEq, Repr

namespace Bezout

/-- The combination a whole number of times another one below this one. -/
def subtract (row : Bezout) (times : Int) (other : Bezout) : Bezout :=
  -- All three numbers change alike, which keeps the coefficients in step with the value.
  ⟨row.value - times * other.value, row.left - times * other.left, row.right - times * other.right⟩

/-- The combination with all signs turned. -/
def negate (row : Bezout) : Bezout :=
  -- Equations stay valid when both of their sides change sign.
  ⟨-row.value, -row.left, -row.right⟩

/-- The combination satisfies its defining equation for the numbers `a` and `b`. -/
def Combines (row : Bezout) (a b : Int) : Prop :=
  -- The coefficients belong to `a` and `b` in this order.
  a * row.left + b * row.right = row.value

/-- Taking away the whole quotient leaves a value that is smaller in size. -/
theorem natAbs_subtract_lt (older newer : Bezout) (nonzero : newer.value ≠ 0) :
    (older.subtract (older.value.fdiv newer.value) newer).value.natAbs < newer.value.natAbs := by
  -- What is left is the remainder of the division rounded down.
  have remainder : (older.subtract (older.value.fdiv newer.value) newer).value =
      older.value.fmod newer.value := by
    simp only [subtract, Int.fmod_def]
    rw [Int.mul_comm]
  rw [remainder]
  -- It has the sign of the divisor and differs from the least remainder by at most one divisor.
  rw [Int.fmod_eq_emod]
  have low := Int.emod_nonneg older.value nonzero
  have high := Int.emod_lt older.value nonzero
  split
  · omega
  · rename_i sign
    have negative : newer.value < 0 := by omega
    have inexact : older.value % newer.value ≠ 0 := fun zero =>
      sign (Or.inr (Int.dvd_of_emod_eq_zero zero))
    omega

/-- Division with remainder, repeated until nothing is left. -/
def reduce (older newer : Bezout) : Bezout :=
  -- The older value divides everything that came before once nothing is left over.
  if _ : newer.value = 0 then older
  else reduce newer (older.subtract (older.value.fdiv newer.value) newer)
termination_by newer.value.natAbs
decreasing_by exact natAbs_subtract_lt older newer (by assumption)

end Bezout

/-- The greatest common divisor of two numbers, never negative, with its coefficients. -/
def commonDivisor (a b : Int) : Bezout :=
  -- Both numbers start as combinations of themselves, with nothing of the other one.
  let row := Bezout.reduce ⟨a, 1, 0⟩ ⟨b, 0, 1⟩
  -- Division rounded down may leave a negative divisor.
  if row.value < 0 then row.negate else row

end Overlap
