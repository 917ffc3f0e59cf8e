import Mathlib.Data.Set.Function
import Overlap.Proofs.Equation.Bounds
import Overlap.Proofs.Relation.Exchange

/-! The two lines of an equation meet each of its solutions exactly once, and a window of parameters
meets exactly those between two values. The lines are given as long as the equation can be told. -/

namespace Overlap

/-- The integer solutions of `a * x + b * y = c`. -/
def solutions (a b c : Int) : Set (Int × Int) :=
  -- Pairs of integers, with no condition on their signs.
  {point | a * point.1 + b * point.2 = c}

namespace Solution

/-- Both unknowns at one parameter. -/
def pointAt (solution : Solution) (t : Int) : Int × Int :=
  -- Both unknowns have the same parameter.
  (solution.x.valueAt t, solution.y.valueAt t)

variable {solution : Solution} {a b c : Int}

/-- A line that rises does not come back to a value, so no solution is met twice. -/
theorem pointAt_injective (rising : 0 < solution.x.slope) :
    Function.Injective solution.pointAt := by
  -- Two parameters with the same point have the same value on the first line, and that one rises.
  intro t other same
  have first : solution.x.constant + solution.x.slope * t =
      solution.x.constant + solution.x.slope * other :=
    congrArg Prod.fst same
  exact Int.eq_of_mul_eq_mul_left (Int.ne_of_gt rising) (Int.add_left_cancel first)

/-- The points of the lines are the solutions. -/
theorem Solves.mem_solutions_iff (solves : solution.Solves a b c) {point : Int × Int} :
    point ∈ solutions a b c ↔ ∃ t, solution.pointAt t = point := by
  -- This is the completeness of the lines, with pairs in place of two equations.
  refine (solves.complete point.1 point.2).trans (exists_congr fun t => ?_)
  rw [eq_comm, @eq_comm _ point.2, ← Prod.mk.injEq]
  rfl

/-- Each solution belongs to exactly one parameter. -/
theorem Solves.bijOn (solves : solution.Solves a b c) :
    Set.BijOn solution.pointAt Set.univ (solutions a b c) := by
  -- Points of the lines are solutions, no point comes twice, and every solution is a point.
  refine ⟨fun t _ => solves.mem_solutions_iff.mpr ⟨t, rfl⟩, (pointAt_injective solves.rising).injOn,
    fun point solved => ?_⟩
  obtain ⟨t, same⟩ := solves.mem_solutions_iff.mp solved
  exact ⟨t, Set.mem_univ t, same⟩

/-- The solutions whose first unknown lies between two values belong to
the parameters of a window. -/
theorem Solves.bijOn_window (solves : solution.Solves a b c) (low high : Int) :
    ∃ first last, solution.x.window low high = .ok (first, last) ∧
      Set.BijOn solution.pointAt {t | first ≤ t ∧ t ≤ last}
        {point ∈ solutions a b c | low ≤ point.1 ∧ point.1 ≤ high} := by
  -- The window holds the parameters at which the first line stays between the values.
  obtain ⟨first, last, window, within⟩ := Line.window_eq solves.rising low high
  refine ⟨first, last, window, fun t inside => ?_, (pointAt_injective solves.rising).injOn,
    fun point inside => ?_⟩
  · exact ⟨solves.mem_solutions_iff.mpr ⟨t, rfl⟩, (within t).mp inside⟩
  · obtain ⟨t, rfl⟩ := solves.mem_solutions_iff.mp inside.1
    exact ⟨t, (within t).mpr inside.2, rfl⟩

end Solution

/-- An equation with nonzero coefficients always has an answer. -/
theorem exists_solve_eq_ok {a b : Int} (left : a ≠ 0) (right : b ≠ 0) (c : Int) :
    ∃ answer, solve a b c = .ok answer := by
  -- An equation with nonzero coefficients has its solutions, or it is known to have none.
  rcases solve_cases left right c with ⟨solved, -⟩ | ⟨solution, solved, -⟩
  · exact ⟨none, solved⟩
  · exact ⟨some solution, solved⟩

/-- The lines of an equation are given, unless a number of the equation is too long. -/
theorem solveTold_eq {a b : Int} (left : a ≠ 0) (right : b ≠ 0) (c : Int) :
    solveTold a b c = if Writable a ∧ Writable b ∧ Writable c then solve a b c
      else .error .longNumber := by
  -- Solving cannot fail, so only telling can.
  obtain ⟨answer, solved⟩ := exists_solve_eq_ok left right c
  have told : Tellable false [.equation a b c] ↔ Writable a ∧ Writable b ∧ Writable c := by
    rw [tellable_singleton, ← writable_equationNumbers left right]
    simp only [Event.isTrace, Event.origin?, Option.isNone_some, Bool.not_false, Bool.or_true,
      true_imp_iff, Event.numbers]
  simp only [solveTold, tell_eq, solved, withTold, Except.mapError, ← told]
  by_cases short : Tellable false [.equation a b c] <;>
    simp [short, Bind.bind, Except.bind, Pure.pure, Except.pure]

/-- An equation with nonzero coefficients has no lines exactly when it has no solution. Otherwise
the first line rises from the least value that is not negative, both lines together meet each
solution exactly once, and the parameters of a window meet exactly the solutions between its values.
The answer is given, unless a number of the equation is too long. -/
theorem solveTold_complete {a b : Int} (left : a ≠ 0) (right : b ≠ 0) (c : Int) :
    ∃ answer, solve a b c = .ok answer ∧ (answer = none ↔ ¬ ∃ x y, a * x + b * y = c) ∧
      (∀ solution ∈ answer, 0 < solution.x.slope ∧
        0 ≤ solution.x.constant ∧ solution.x.constant < solution.x.slope ∧
        Set.BijOn solution.pointAt Set.univ (solutions a b c) ∧
        ∀ low high, ∃ first last, solution.x.window low high = .ok (first, last) ∧
          Set.BijOn solution.pointAt {t | first ≤ t ∧ t ≤ last}
            {point ∈ solutions a b c | low ≤ point.1 ∧ point.1 ≤ high}) ∧
      solveTold a b c = if Writable a ∧ Writable b ∧ Writable c then .ok answer
        else .error .longNumber := by
  have told := solveTold_eq left right c
  rcases solve_cases left right c with ⟨solved, unsolvable⟩ | ⟨solution, solved, solves⟩
  · refine ⟨none, solved, ?_, by simp, solved ▸ told⟩
    simpa using unsolvable
  · refine ⟨some solution, solved, ?_, ?_, solved ▸ told⟩
    · -- The lines start at a solution.
      have start := (solves.complete _ _).mpr ⟨0, rfl, rfl⟩
      simpa using ⟨_, _, start⟩
    · rintro _ ⟨⟩
      exact ⟨solves.rising, solves.nonneg, solves.least, solves.bijOn, solves.bijOn_window⟩

/-- An equation with signs of both kinds and its solutions from zero to nine, and one whose
right-hand side is too long to be written. -/
theorem solveTold_complete_signs :
    let far : Int := (10 ^ 4300 : Nat)
    let lines : Solution := ⟨⟨1, 2⟩, ⟨-1, 3⟩⟩
    solveTold 6 (-4) 10 = .ok (some lines) ∧
      Set.BijOn lines.pointAt Set.univ (solutions 6 (-4) 10) ∧
      Set.BijOn lines.pointAt {t | 0 ≤ t ∧ t ≤ 4}
        {point ∈ solutions 6 (-4) 10 | 0 ≤ point.1 ∧ point.1 ≤ 9} ∧
      solve 6 (-4) far = .ok (some ⟨⟨0, 2⟩, ⟨-(far / 4), 3⟩⟩) ∧
        solveTold 6 (-4) far = .error .longNumber := by
  intro far lines
  -- The lines of the equation are computed once, and the theorem tells what they are good for.
  have solved : solve 6 (-4) 10 = .ok (some lines) := by decide +kernel
  have left : (6 : Int) ≠ 0 := by decide
  have right : (-4 : Int) ≠ 0 := by decide
  obtain ⟨answer, found, -, exact, told⟩ := solveTold_complete left right 10
  obtain rfl := Except.ok.inj (solved.symm.trans found)
  obtain ⟨-, -, -, all, windows⟩ := exact lines rfl
  obtain ⟨first, last, window, within⟩ := windows 0 9
  -- The window of the first line is computed as well.
  have ends : lines.x.window 0 9 = .ok (0, 4) := by decide +kernel
  obtain ⟨rfl, rfl⟩ := Prod.mk.inj (Except.ok.inj (ends.symm.trans window))
  obtain ⟨_, -, -, -, farTold⟩ := solveTold_complete left right far
  refine ⟨?_, all, within, by decide +kernel, ?_⟩
  · -- All three numbers are short.
    rw [told, if_pos (by decide +kernel)]
  · -- The right-hand side has one digit too many.
    rw [farTold, if_neg (by decide +kernel)]

end Overlap
