import Mathlib.Data.Set.Card
import Overlap.Proofs.Axis.Difference
import Overlap.Proofs.Equation.Complete
import Overlap.Proofs.Footprint.Words

/-! One axis against another: their common indices, and what a part leaves of a whole. The answers
hold for all numbers, and they are given as long as the notes on them can be written. -/

namespace Overlap

/-- A list of numbers with a property counts them. -/
theorem Lists.ncard_eq {numbers : List Int} {holds : Int → Prop} (lists : Lists numbers holds) :
    Set.ncard {number | holds number} = numbers.length := by
  have same : {number | holds number} = (numbers.toFinset : Set Int) := by
    ext number
    simp [lists.mem]
  -- In rising order no number is listed twice.
  rw [same, Set.ncard_coe_finset, List.toFinset_card_of_nodup lists.rising.nodup]

namespace Axis

section Meet

variable {left right : Axis}

/-- The common indices are given, unless the equation for axes that are not apart
has a number that is too long. -/
theorem meetTold_eq (leftValid : left.Valid) (rightValid : right.Valid) :
    left.meetTold right =
      if left.Apart right ∨
        (Writable left.step ∧ Writable right.step ∧ Writable (right.start - left.start)) then
        left.meet right
      else .error .longNumber := by
  -- Neither solving nor meeting can fail for well-formed axes, so only telling can.
  obtain ⟨answer, met⟩ : ∃ answer, left.meet right = .ok answer := by
    rcases meet_cases leftValid rightValid with ⟨met, -⟩ | ⟨common, met, -⟩
    · exact ⟨none, met⟩
    · exact ⟨some common, met⟩
  by_cases apart : left.Apart right
  · -- Axes that are apart by their ends need no equation.
    simp [meetTold, apart, met, withTold, Except.mapError]
  · -- Otherwise, the equation of the two axes has to be told.
    have leftStep : left.step ≠ 0 := Int.ne_of_gt leftValid.2.1
    have rightStep : -right.step ≠ 0 := Int.neg_ne_zero.mpr (Int.ne_of_gt rightValid.2.1)
    obtain ⟨solution, solved⟩ := exists_solve_eq_ok leftStep rightStep (right.start - left.start)
    have told := solveTold_eq leftStep rightStep (right.start - left.start)
    simp only [solved, writable_neg] at told
    simp only [meetTold, told, apart, met, withTold, Except.mapError, false_or]
    by_cases short : Writable left.step ∧ Writable right.step ∧
      Writable (right.start - left.start) <;>
      simp [short, Bind.bind, Except.bind]

/-- Two axes meet in nothing exactly when they share no index. Otherwise they meet in the
axis of the shared indices: it starts at the least of them, steps by the least common
multiple of the steps, and counts them. The answer is given, unless the equation that leads
to it has a number that is too long. -/
theorem meet_canonical (leftValid : left.Valid) (rightValid : right.Valid) :
    (left.meet right = .ok none ↔ ¬ ∃ index, index ∈ left ∧ index ∈ right) ∧
      ((∃ index, index ∈ left ∧ index ∈ right) → ∃ common, left.meet right = .ok (some common) ∧
        common.Valid ∧
        IsLeast {index | index ∈ left ∧ index ∈ right} common.start ∧
          common.step = Int.lcm left.step right.step ∧
        common.count = Set.ncard {index | index ∈ left ∧ index ∈ right} ∧ common.size = left.size ∧
        ∀ index, index ∈ common ↔ index ∈ left ∧ index ∈ right) ∧
      left.meetTold right =
        if left.Apart right ∨
          (Writable left.step ∧ Writable right.step ∧ Writable (right.start - left.start)) then
          left.meet right
        else .error .longNumber := by
  refine ⟨?_, ?_, meetTold_eq leftValid rightValid⟩
  · rcases meet_cases leftValid rightValid with ⟨met, apart⟩ | ⟨common, met, meets⟩
    · -- No index is shared, and nothing is found.
      refine ⟨fun _ shared => ?_, fun _ => met⟩
      obtain ⟨index, both⟩ := shared
      exact apart index both
    · -- The start of the common axis is a common index.
      have shared := (meets.mem common.start).mp (start_mem meets.valid)
      simp only [met, Except.ok.injEq, reduceCtorEq, false_iff, not_not]
      exact ⟨common.start, shared⟩
  · intro shared
    rcases meet_cases leftValid rightValid with ⟨-, apart⟩ | ⟨common, met, meets⟩
    · obtain ⟨index, both⟩ := shared
      exact absurd both (apart index)
    · -- The list of the indices of the common axis counts the shared ones.
      have rising := meets.valid.2.1
      have counted := (lists_toList rising).ncard_eq
      have positive := meets.valid.2.2.1
      simp only [meets.mem, length_toList] at counted
      refine ⟨common, met, meets.valid, ⟨?_, ?_⟩, meets.step, by omega, meets.size, meets.mem⟩
      · exact (meets.mem common.start).mp (start_mem meets.valid)
      · -- No index of an axis lies before its start.
        intro index both
        exact start_le rising ((meets.mem index).mpr both)

/-- Two axes that share three indices, and two axes that share none, with a distance between their
starts that is too long to be written. -/
theorem meet_canonical_strided :
    let far : Int := (10 ^ 4300 : Nat)
    let left : Axis := ⟨2, 4, 10, 0⟩
    let right : Axis := ⟨0, 6, 6, 40⟩
    left.meetTold right = .ok (some ⟨6, 12, 3, 0⟩) ∧
      Set.ncard {index | index ∈ left ∧ index ∈ right} = 3 ∧
      Axis.meet ⟨0, 2, far, 0⟩ ⟨far + 1, 2, 1, 0⟩ = .ok none ∧
      Axis.meetTold ⟨0, 2, far, 0⟩ ⟨far + 1, 2, 1, 0⟩ = .error .longNumber := by
  intro far left right
  -- The common axis is computed, and the theorem counts its indices.
  have met : left.meet right = .ok (some ⟨6, 12, 3, 0⟩) := by decide +kernel
  obtain ⟨-, found, told⟩ := meet_canonical (show left.Valid by decide) (show right.Valid by decide)
  obtain ⟨common, same, -, -, -, counted, -⟩ := found ⟨6, by decide, by decide⟩
  obtain rfl := Option.some.inj (Except.ok.inj (met.symm.trans same))
  have three : (3 : Int) = Set.ncard {index | index ∈ left ∧ index ∈ right} := counted
  -- The two long axes share nothing, which cannot be told with their numbers.
  obtain ⟨-, -, farTold⟩ := meet_canonical (show Axis.Valid ⟨0, 2, far, 0⟩ by decide +kernel)
    (show Axis.Valid ⟨far + 1, 2, 1, 0⟩ by decide +kernel)
  refine ⟨?_, by omega, by decide +kernel, ?_⟩
  · rw [told, if_pos (by decide +kernel), met]
  · rw [farTold, if_neg (by decide +kernel)]

end Meet

section Difference

variable {part whole : Axis} {before ratio after : Int}

/-- A part in its place has indices of the whole only. -/
theorem Placed.subset (placed : part.Placed whole before ratio after) :
    ∀ index ∈ part, index ∈ whole := by
  -- Counted in steps of the whole, the part lies between its ends.
  intro index member
  obtain ⟨n, rfl, low, high, -⟩ := placed.mem_part_iff.mp member
  have := placed.before_nonneg
  have := placed.after_nonneg
  have := placed.total
  exact Placed.mem_whole_iff.mpr ⟨n, rfl, by omega, by omega⟩

/-- There are no more pieces than skipped phases and the two ends. -/
theorem Placed.length_pieces_le (placed : part.Placed whole before ratio after) :
    ((Placed.pieces part whole before after).length : Int) ≤ part.phases whole + 2 := by
  have phases := placed.phases_eq
  have := placed.coarser
  have nonneg : 0 ≤ part.phases whole := by
    split at phases <;> omega
  -- Either end is one piece or none.
  simp only [Placed.pieces, List.length_append, List.length_map, List.length_range]
  split <;> split <;> simp <;> omega

/-- A part whose steps and ends are steps and places of the whole has its place there. -/
theorem placed_of_ends (partValid : part.Valid) (wholeValid : whole.Valid)
    (aligned : whole.step ∣ part.step) (low : whole.start ≤ part.start)
    (high : part.last ≤ whole.last) (offset : whole.step ∣ part.start - whole.start) :
    ∃ before ratio after, part.Placed whole before ratio after := by
  have rising := wholeValid.2.1
  obtain ⟨ratio, step⟩ := aligned
  obtain ⟨before, start⟩ := offset
  -- Distances between the ends are distances in steps.
  have coarser : 0 < ratio := (mul_pos_iff_of_pos_left rising).mp (step ▸ partValid.2.1)
  have beforeLow : 0 ≤ before := (mul_nonneg_iff_of_pos_left rising).mp (by omega)
  have reach : whole.step * (before + ratio * (part.count - 1)) ≤
      whole.step * (whole.count - 1) := by
    unfold last at high
    rw [step] at high
    linarith
  have := Int.le_of_mul_le_mul_left reach rising
  exact ⟨before, ratio, whole.count - 1 - (before + ratio * (part.count - 1)),
    ⟨rising, partValid.2.2.1, coarser, beforeLow, by omega, by omega, step, by omega⟩⟩

/-- A part takes steps of the whole, and has indices of the whole only. -/
def Inside (part whole : Axis) : Prop :=
  -- Without the first condition the differences would not be axes in steps of the whole.
  whole.step ∣ part.step ∧ ∀ index ∈ part, index ∈ whole

/-- A part inside the whole has its place there, and any other one is refused. -/
theorem checkPart_cases (partValid : part.Valid) (wholeValid : whole.Valid) :
    (part.Inside whole ∧ ∃ before ratio after, part.Placed whole before ratio after) ∨
      ¬ part.Inside whole ∧ ∃ cause ∈ [Breach.strideMismatch part whole, .notPart part whole],
        checkPart part whole = .error (.breach cause) := by
  -- The tests are made in order: first the step, then the ends and the start.
  have nonzero : whole.step ≠ 0 := Int.ne_of_gt wholeValid.2.1
  by_cases aligned : whole.step ∣ part.step
  · have stride : part.step.fmod whole.step = 0 := Int.fmod_eq_zero_of_dvd aligned
    by_cases subset : ∀ index ∈ part, index ∈ whole
    · exact Or.inl ⟨⟨aligned, subset⟩, placed_of_subset partValid wholeValid aligned subset⟩
    · -- If neither end lay outside and the start were a place, the part would have its place.
      have outside : part.start < whole.start ∨ whole.last < part.last ∨
          (part.start - whole.start).fmod whole.step ≠ 0 := by
        by_contra inside
        simp only [not_or, Int.not_lt, ne_eq, not_not] at inside
        obtain ⟨low, high, offset⟩ := inside
        obtain ⟨before, ratio, after, placed⟩ :=
          placed_of_ends partValid wholeValid aligned low high (Int.dvd_of_fmod_eq_zero offset)
        exact subset placed.subset
      refine Or.inr ⟨fun both => subset both.2, .notPart part whole, by simp, ?_⟩
      simp only [checkPart, floorRemainder, nonzero, stride, if_false, Bind.bind, Except.bind,
        ne_eq, not_true_eq_false, Pure.pure, Except.pure]
      rw [if_pos outside]
      rfl
  · have stride : part.step.fmod whole.step ≠ 0 :=
      fun none => aligned (Int.dvd_of_fmod_eq_zero none)
    refine Or.inr ⟨fun both => aligned both.1, .strideMismatch part whole, by simp, ?_⟩
    simp [checkPart, floorRemainder, nonzero, stride, Bind.bind, Except.bind, throw, throwThe,
      MonadExceptOf.throw]

/-- The note on skipped phases holds no longer numbers than the two axes. -/
theorem Placed.tellable_tellBudget (placed : part.Placed whole before ratio after) {budget : Int}
    (nonneg : 0 ≤ budget) : Tellable false (tellBudget whole part budget true) ↔
      part.phases whole ≤ budget ∨ ∀ number ∈ part.fields ++ whole.fields, Writable number := by
  by_cases exceeded : part.phases whole > budget
  · have phases := placed.phases_eq
    have coarser := placed.coarser
    -- A step of the part passes all the phases, and these are more than the budget.
    have passed : ratio ≤ part.step := by
      rw [placed.step]
      exact le_mul_of_one_le_left (Int.le_of_lt coarser) placed.rising
    have smaller : part.phases whole < part.step := by
      split at phases <;> omega
    -- All other numbers of the note are at most as large as the step of the part.
    have numbers : (∀ number ∈ (Event.overBudget whole part budget).numbers, Writable number) ↔
        ∀ number ∈ part.fields ++ whole.fields, Writable number := by
      simp only [Event.numbers, List.forall_mem_cons, List.cons_append]
      rw [writable_append_comm whole.fields]
      refine ⟨fun all => all.2.2, fun written => ⟨?_, ?_, written⟩⟩
      all_goals
        refine (written part.step (by simp [fields])).of_natAbs_le ?_
        omega
    rw [tellBudget, Bool.true_and, if_pos (by simpa using exceeded), tellable_singleton, numbers]
    simp [Event.isTrace, Event.origin?, exceeded]
  · -- Within the budget, there is nothing to tell.
    simp [tellBudget, exceeded, Tellable, heard, Int.not_lt.mp exceeded]

/-- A refusal of a part shows, unless a number of the two axes is too long. -/
theorem told_of_refused {cause : Breach}
    (named : cause ∈ [Breach.strideMismatch part whole, .notPart part whole]) :
    (Fault.breach cause).told =
      if ∀ number ∈ part.fields ++ whole.fields, Writable number then .breach cause
        else .longNumber := by
  -- Both messages name the two axes.
  have numbers : cause.numbers = part.fields ++ whole.fields := by
    simp only [List.mem_cons, List.not_mem_nil, or_false] at named
    rcases named with rfl | rfl <;> rfl
  rw [Fault.told_breach, numbers]

/-- Taking a part away is told, unless a number of the two axes is too long for the refusal of the
part or for the note on its phases. -/
theorem differenceTold_eq (partValid : part.Valid) (wholeValid : whole.Valid) {budget : Int}
    (nonneg : 0 ≤ budget) :
    whole.differenceTold part budget =
      if (checkPart part whole = .ok () ∧ part.phases whole ≤ budget) ∨
          ∀ number ∈ part.fields ++ whole.fields, Writable number then
        whole.difference part budget
      else .error .longNumber := by
  rcases checkPart_cases partValid wholeValid with ⟨-, before, ratio, after, placed⟩ |
    ⟨-, cause, named, refused⟩
  · -- The difference of a part in its place is found, and only the note on it can fail.
    simp only [differenceTold, placed.difference_eq, placed.checkPart_eq, withTold, Except.mapError,
      tell_eq, true_and, ← placed.tellable_tellBudget nonneg]
    by_cases told : Tellable false (tellBudget whole part budget true) <;>
      simp [told, Bind.bind, Except.bind, Pure.pure, Except.pure]
  · -- A refused part ends the operation before there is anything to note.
    have failed : whole.difference part budget = .error (.breach cause) := by
      simp [difference, refused, Bind.bind, Except.bind]
    simp only [differenceTold, failed, withTold, Except.mapError, told_of_refused named, refused,
      reduceCtorEq, false_and, false_or, Bind.bind, Except.bind]
    by_cases written : ∀ number ∈ part.fields ++ whole.fields, Writable number
    · rw [if_pos written, if_pos written]
    · rw [if_neg written, if_neg written]

/-- What is left of an axis, together with the part that was taken away, splits the axis. -/
theorem Leaves.splits_whole {pieces : List Axis} (leaves : Leaves pieces part whole)
    (subset : ∀ index ∈ part, index ∈ whole) :
    Splits (fun axis index => index ∈ axis) (part :: pieces) fun index => index ∈ whole := by
  -- An index of the axis is in the part, or it is one of the others.
  have alone : Splits (fun axis index => index ∈ axis) [part] fun index => index ∈ part :=
    Splits.single fun _ => Iff.rfl
  refine (alone.append leaves.splits ?_).congr ?_
  · intro index inPart rest
    exact rest.2 inPart
  · intro index
    by_cases inPart : index ∈ part
    · simp [inPart, subset index inPart]
    · simp [inPart]

/-- Exactly the parts inside an axis pass the check. Taking one away has no answer exactly when it
skips more phases than the budget allows, and otherwise splits the axis into the part and at most
two pieces more than the budget, all of them well-formed along the array axis. Refusals and answers
are given, unless a number of the two axes is too long for what is told. -/
theorem difference_partition (partValid : part.Valid) (wholeValid : whole.Valid) {budget : Int}
    (nonneg : 0 ≤ budget) :
    (checkPart part whole = .ok () ↔ part.Inside whole) ∧
      (¬ part.Inside whole → ∃ cause ∈ [Breach.strideMismatch part whole, .notPart part whole],
        checkPart part whole = .error (.breach cause) ∧
          whole.difference part budget = .error (.breach cause)) ∧
      (part.Inside whole →
        (whole.difference part budget = .ok none ↔
          1 < part.count ∧ budget < part.step / whole.step - 1) ∧
        (¬ (1 < part.count ∧ budget < part.step / whole.step - 1) →
          ∃ pieces, whole.difference part budget = .ok (some pieces) ∧
            (∀ piece ∈ pieces, piece.Valid ∧ piece.size = whole.size) ∧
            Splits (fun axis index => index ∈ axis) (part :: pieces) (fun index => index ∈ whole) ∧
            pieces.length ≤ budget + 2)) ∧
      withTold (checkPart part whole) =
        (if checkPart part whole = .ok () ∨
          ∀ number ∈ part.fields ++ whole.fields, Writable number then
          checkPart part whole else .error .longNumber) ∧
      whole.differenceTold part budget =
        if (checkPart part whole = .ok () ∧ part.phases whole ≤ budget) ∨
            ∀ number ∈ part.fields ++ whole.fields, Writable number then
          whole.difference part budget
        else .error .longNumber := by
  have told := differenceTold_eq partValid wholeValid nonneg
  rcases checkPart_cases partValid wholeValid with ⟨inside, before, ratio, after, placed⟩ |
    ⟨outside, cause, named, refused⟩
  · -- A part inside has its place, where the difference is known.
    have passed := placed.checkPart_eq
    refine ⟨by simp [passed, inside], fun outside => absurd inside outside, fun _ => ?_, ?_, told⟩
    · -- The quotient of the steps is how many steps of the axis one step of the part takes.
      have quotient : part.step / whole.step = ratio := by
        rw [placed.step]
        exact Int.mul_ediv_cancel_left ratio (Int.ne_of_gt placed.rising)
      have phases := placed.phases_eq
      have exceeds : part.phases whole > budget ↔
          1 < part.count ∧ budget < part.step / whole.step - 1 := by
        rw [quotient]
        split at phases <;> omega
      rw [← exceeds]
      rcases difference_cases partValid wholeValid inside.1 inside.2 budget with ⟨exceeded, none⟩ |
        ⟨pieces, within, found, leaves⟩
      · exact ⟨by simp [none, exceeded], fun within => absurd exceeded within⟩
      · refine ⟨by simp [found, within],
          fun _ => ⟨pieces, found, ?_, leaves.splits_whole inside.2, ?_⟩⟩
        · intro piece member
          exact ⟨leaves.valid piece member, leaves.size piece member⟩
        · -- The pieces are those of the part in its place.
          have same := (placed.difference_eq budget).symm.trans found
          rw [if_neg (Int.not_lt.mpr within)] at same
          obtain rfl := Option.some.inj (Except.ok.inj same)
          have := placed.length_pieces_le
          omega
    · simp [passed, withTold, Except.mapError]
  · -- Any other part is refused, with a message that holds the numbers of both axes.
    refine ⟨by simp [refused, outside], fun _ => ⟨cause, named, refused, ?_⟩,
      fun inside => absurd inside outside, ?_, told⟩
    · simp [difference, refused, Bind.bind, Except.bind]
    · simp only [refused, withTold, Except.mapError, told_of_refused named, reduceCtorEq, false_or]
      by_cases written : ∀ number ∈ part.fields ++ whole.fields, Writable number
      · rw [if_pos written, if_pos written]
      · rw [if_neg written, if_neg written]

/-- The even numbers are taken away from the numbers below ten, and a part whose step is too long to
be written from a whole that has all the numbers between. -/
theorem difference_partition_evens :
    let far : Int := (10 ^ 4300 : Nat)
    let whole : Axis := ⟨0, 1, 10, 10⟩
    let evens : Axis := ⟨0, 2, 5, 10⟩
    let odds : Axis := ⟨1, 2, 5, 10⟩
    whole.differenceTold evens 1 = .ok (some [odds]) ∧
      Splits (fun axis index => index ∈ axis) [evens, odds] (fun index => index ∈ whole) ∧
      Axis.difference ⟨0, 1, far + 1, 0⟩ ⟨0, far, 2, 0⟩ 10 = .ok none ∧
      Axis.differenceTold ⟨0, 1, far + 1, 0⟩ ⟨0, far, 2, 0⟩ 10 = .error .longNumber := by
  intro far whole evens odds
  -- The odd indices are what the even ones leave over.
  have left : whole.difference evens 1 = .ok (some [odds]) := by decide +kernel
  obtain ⟨passes, -, answers, -, told⟩ :=
    difference_partition (show evens.Valid by decide) (show whole.Valid by decide)
      (show 0 ≤ 1 by decide)
  -- The budget of one is just enough, as one phase is skipped.
  obtain ⟨pieces, same, -, splits, -⟩ := (answers (passes.mp (by decide +kernel))).2 (by decide)
  obtain rfl := Option.some.inj (Except.ok.inj (left.symm.trans same))
  obtain ⟨-, -, -, -, farTold⟩ :=
    difference_partition (show Axis.Valid ⟨0, far, 2, 0⟩ by decide +kernel)
    (show Axis.Valid ⟨0, 1, far + 1, 0⟩ by decide +kernel) (show 0 ≤ 10 by decide)
  refine ⟨?_, splits, by decide +kernel, ?_⟩
  · -- There is an answer within the budget, so no phase has to be told.
    rw [told, if_pos (Or.inl (by decide +kernel)), left]
  · rw [farTold, if_neg (by decide +kernel)]

end Difference

end Axis

end Overlap
