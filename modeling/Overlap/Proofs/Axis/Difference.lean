import Mathlib.Tactic.Linarith
import Mathlib.Tactic.LinearCombination
import Overlap.Axis.Difference
import Overlap.Proofs.Axis.Basic
import Overlap.Proofs.Splits

/-! The difference of two axes splits the indices of the outer one that the inner one leaves out. -/

namespace Overlap.Axis

/-- A part lies a number of steps behind the start of an axis, takes a number of its steps at a
time, and leaves a number of steps behind its own end. -/
structure Placed (part whole : Axis) (before ratio after : Int) : Prop where
  -- The numbers count steps of the whole axis: in front of the part,
  -- between its neighbours, behind it.
  rising : 0 < whole.step
  nonempty : 0 < part.count
  coarser : 0 < ratio
  before_nonneg : 0 ≤ before
  after_nonneg : 0 ≤ after
  start : part.start = whole.start + whole.step * before
  step : part.step = whole.step * ratio
  -- The steps between the indices of the part belong to the whole axis as well.
  total : whole.count = before + ratio * (part.count - 1) + 1 + after

/-- A part with an aligned step whose indices all belong to an axis has its place there. -/
theorem placed_of_subset {part whole : Axis} (partValid : part.Valid) (wholeValid : whole.Valid)
    (aligned : whole.step ∣ part.step) (subset : ∀ index, index ∈ part → index ∈ whole) :
    ∃ before ratio after, part.Placed whole before ratio after := by
  have rising := wholeValid.2.1
  obtain ⟨ratio, step⟩ := aligned
  -- The ends of the part say how many steps lie before and behind it.
  obtain ⟨before, beforeLow, -, start⟩ := subset part.start (start_mem partValid)
  obtain ⟨reach, -, reachHigh, stop⟩ := subset part.last (last_mem partValid)
  have coarser : 0 < ratio := (mul_pos_iff_of_pos_left rising).mp (step ▸ partValid.2.1)
  have reached : reach = before + ratio * (part.count - 1) := by
    apply Int.eq_of_mul_eq_mul_left (show whole.step ≠ 0 by omega)
    unfold last at stop
    rw [start, step] at stop
    linear_combination -stop
  exact ⟨before, ratio, whole.count - 1 - reach,
    ⟨rising, partValid.2.2.1, coarser, beforeLow, by omega, start, step, by omega⟩⟩

namespace Placed

variable {part whole : Axis} {before ratio after : Int}

/-- Steps between the ends of the part and those of the axis. -/
theorem last_eq (placed : part.Placed whole before ratio after) :
    whole.last = part.last + whole.step * after := by
  -- Both ends are reached by counting steps of the whole axis from its start.
  unfold last
  rw [placed.start, placed.step, placed.total]
  ring

/-- A part in its place passes the check. -/
theorem checkPart_eq (placed : part.Placed whole before ratio after) :
    checkPart part whole = .ok () := by
  -- Step and start are multiples of the step of the axis, and neither end lies outside of it.
  have nonzero : whole.step ≠ 0 := by have := placed.rising; omega
  have stride : part.step.fmod whole.step = 0 := by rw [placed.step]; exact Int.mul_fmod_right ..
  have offset : (part.start - whole.start).fmod whole.step = 0 := by
    rw [placed.start, Int.add_comm, Int.add_sub_cancel]
    exact Int.mul_fmod_right ..
  have low : 0 ≤ whole.step * before :=
    Int.mul_nonneg (Int.le_of_lt placed.rising) placed.before_nonneg
  have high : 0 ≤ whole.step * after :=
    Int.mul_nonneg (Int.le_of_lt placed.rising) placed.after_nonneg
  have start := placed.start
  have stop := placed.last_eq
  have outside : ¬ (part.start < whole.start ∨ whole.last < part.last) := by omega
  simp [checkPart, floorRemainder, nonzero, stride, offset, outside, Bind.bind, Except.bind,
    Pure.pure, Except.pure]

/-- Between two neighbours of the part there is one position less than it takes steps. -/
theorem phases_eq (placed : part.Placed whole before ratio after) :
    phases part whole = if part.count > 1 then ratio - 1 else 0 := by
  -- The ratio of the steps is the quotient that the definition rounds down.
  unfold phases
  rw [placed.step, Int.mul_fdiv_cancel_left _ (by have := placed.rising; omega)]

/-- The pieces that are left of an axis around a part of it. -/
def pieces (part whole : Axis) (before after : Int) : List Axis :=
  -- The three lists are those of the definition, in terms of the steps around the part.
  let lead := min before (phases part whole)
  let trail := min after (phases part whole)
  (if before > lead then [⟨whole.start, whole.step, before - lead, whole.size⟩] else []) ++
    ((List.range (phases part whole).toNat).map fun (number : Nat) =>
      phase part whole lead trail number) ++
    (if after > trail then
      [⟨part.last + whole.step * (trail + 1), whole.step, after - trail, whole.size⟩] else [])

/-- The difference gives these pieces, unless there are more phases than the budget allows. -/
theorem difference_eq (placed : part.Placed whole before ratio after) (budget : Int) :
    whole.difference part budget =
      .ok (if phases part whole > budget then none else some (pieces part whole before after)) := by
  -- The quotients of the two distances are the steps before and behind the part.
  have nonzero : whole.step ≠ 0 := by have := placed.rising; omega
  have front : (part.start - whole.start).fdiv whole.step = before := by
    rw [placed.start, Int.add_comm, Int.add_sub_cancel, Int.mul_fdiv_cancel_left _ nonzero]
  have back : (whole.last - part.last).fdiv whole.step = after := by
    rw [placed.last_eq, Int.add_comm, Int.add_sub_cancel, Int.mul_fdiv_cancel_left _ nonzero]
  simp only [difference, placed.checkPart_eq, floorQuotient, if_neg nonzero, front, back, Bind.bind,
    Except.bind, Pure.pure, Except.pure]
  split
  · rfl
  · simp only [pieces]

/-- Indices reached from a place in the axis by equal numbers of its steps, counted in steps. -/
theorem mem_stretch_iff {axis : Axis} {first stride index : Int}
    (start : axis.start = whole.start + whole.step * first)
    (step : axis.step = whole.step * stride) :
    index ∈ axis ↔ ∃ n, index = whole.start + whole.step * n ∧
      ∃ k, 0 ≤ k ∧ k < axis.count ∧ n = first + stride * k := by
  -- A multiple of the stride, taken in steps of the axis, is a multiple of the longer step.
  rw [mem_def, start, step]
  constructor
  · intro member
    obtain ⟨k, low, high, rfl⟩ := member
    exact ⟨first + stride * k, by ring, k, low, high, rfl⟩
  · intro reached
    obtain ⟨n, rfl, k, low, high, rfl⟩ := reached
    exact ⟨k, low, high, by ring⟩

/-- Numbers of steps are told apart by the indices that they lead to. -/
theorem steps_inj (placed : part.Placed whole before ratio after) {n m : Int} :
    whole.start + whole.step * n = whole.start + whole.step * m ↔ n = m := by
  -- Steps of a rising axis can be cancelled.
  have rising := placed.rising
  constructor
  · intro same
    exact Int.eq_of_mul_eq_mul_left (show whole.step ≠ 0 by omega) (by omega)
  · intro same
    rw [same]

/-- The axis, counted in its own steps. -/
theorem mem_whole_iff {index : Int} : index ∈ whole ↔
    ∃ n, index = whole.start + whole.step * n ∧ 0 ≤ n ∧ n < whole.count := by
  -- The two forms differ in the order of their conditions only.
  rw [mem_def]
  constructor
  · intro member
    obtain ⟨n, low, high, rfl⟩ := member
    exact ⟨n, rfl, low, high⟩
  · intro reached
    obtain ⟨n, rfl, low, high⟩ := reached
    exact ⟨n, low, high, rfl⟩

/-- The part, counted in steps of the axis: every so many steps between its ends. -/
theorem mem_part_iff (placed : part.Placed whole before ratio after) {index : Int} : index ∈ part ↔
    ∃ n, index = whole.start + whole.step * n ∧
      before ≤ n ∧ n ≤ before + ratio * (part.count - 1) ∧ (n - before) % ratio = 0 := by
  -- Both sides count in steps of the axis, so they are compared for one number of steps.
  have coarser := placed.coarser
  rw [mem_stretch_iff placed.start placed.step]
  refine exists_congr fun n => and_congr_right fun _ => ?_
  constructor
  · intro reached
    obtain ⟨k, low, high, rfl⟩ := reached
    have lower := Int.mul_nonneg (Int.le_of_lt coarser) low
    have upper :=
      Int.mul_le_mul_of_nonneg_left (show k ≤ part.count - 1 by omega) (Int.le_of_lt coarser)
    refine ⟨by omega, by omega, ?_⟩
    rw [show before + ratio * k - before = ratio * k by ring]
    exact Int.mul_emod_right ratio k
  · -- The quotient counts the strides, and lies between the ends as the step does.
    intro near
    obtain ⟨low, high, residue⟩ := near
    obtain ⟨k, multiple⟩ := Int.dvd_of_emod_eq_zero residue
    have lower : 0 ≤ k := by
      by_contra negative
      have := Int.mul_neg_of_pos_of_neg coarser (show k < 0 by omega)
      omega
    have upper : k ≤ part.count - 1 := Int.le_of_mul_le_mul_left (a := ratio) (by omega) coarser
    exact ⟨k, lower, by omega, by omega⟩

/-- A phase has one more index in front if the part leaves room for it there. -/
def extra (ratio lead number : Int) : Int :=
  -- The phase reaches back once if the lead goes as far as the phase is before the part.
  if ratio - 1 - number ≤ lead then 1 else 0

/-- A phase has one more index behind if the part leaves room for it there. -/
def further (trail number : Int) : Int :=
  -- The phase reaches on once if the trail goes beyond it.
  if number < trail then 1 else 0

/-- The indices of a phase stay near the part, at one fixed distance behind its indices. -/
theorem near_of_phase {before ratio count lead trail number k : Int} (leadLow : 0 ≤ lead)
    (leadHigh : lead < ratio) (trailLow : 0 ≤ trail) (numberLow : 0 ≤ number)
    (numberHigh : number < ratio - 1) (low : 0 ≤ k)
    (high : k < count - 1 + extra ratio lead number + further trail number) :
    let n := before + (number + 1) - ratio * extra ratio lead number + ratio * k
    before - lead ≤ n ∧ n ≤ before + ratio * (count - 1) + trail ∧
      (n - before) % ratio = number + 1 := by
  intro n
  have coarser : 0 ≤ ratio := by omega
  have lower := Int.mul_nonneg coarser low
  have upper : ratio * k ≤
      ratio * (count - 1) + ratio * extra ratio lead number + ratio *
        further trail number - ratio := by
    have := Int.mul_le_mul_of_nonneg_left
      (show k ≤ count - 1 + extra ratio lead number + further trail number - 1 by omega) coarser
    linarith
  refine ⟨?_, ?_, ?_⟩
  · -- An index in front of the part is the last one before it, because the lead
    -- is shorter than a stride.
    simp only [n, extra]
    split <;> omega
  · simp only [further] at upper
    simp only [n]
    split at upper <;> omega
  · have distance : n - before = number + 1 + ratio * (k - extra ratio lead number) := by
      simp only [n]
      ring
    rw [distance, Int.add_mul_emod_self_left]
    exact Int.emod_eq_of_lt (by omega) (by omega)

/-- A step near the part at that distance is reached by a whole number of strides of the phase. -/
theorem phase_of_near {before ratio count lead trail number n : Int} (leadHigh : lead < ratio)
    (trailHigh : trail < ratio) (numberLow : 0 ≤ number) (numberHigh : number < ratio - 1)
    (low : before - lead ≤ n) (high : n ≤ before + ratio * (count - 1) + trail)
    (residue : (n - before) % ratio = number + 1) :
    ∃ k, 0 ≤ k ∧ k < count - 1 + extra ratio lead number + further trail number ∧
      n = before + (number + 1) - ratio * extra ratio lead number + ratio * k := by
  -- The step number is written as a quotient and the residue of the phase.
  have coarser : 0 ≤ ratio := by omega
  have divided := Int.emod_add_mul_ediv (n - before) ratio
  rw [residue] at divided
  generalize (n - before) / ratio = quotient at divided
  -- A quotient of minus one needs the extra index in front, and one past the end the one behind.
  have lower : 0 ≤ quotient + extra ratio lead number := by
    unfold extra
    by_contra negative
    have : ratio * quotient ≤ ratio * (-1) :=
      Int.mul_le_mul_of_nonneg_left (by split at negative <;> omega) coarser
    rcases Int.lt_or_le quotient (-1) with below | least
    · have : ratio * quotient ≤ ratio * (-2) :=
        Int.mul_le_mul_of_nonneg_left (by omega) coarser
      omega
    · split at negative <;> omega
  -- From above, the further index is what a large quotient needs.
  have upper : quotient < count - 1 + further trail number := by
    unfold further
    by_contra beyond
    have : ratio * (count - 1) + ratio * (if number < trail then 1 else 0) ≤ ratio * quotient := by
      rw [← Int.mul_add]
      exact Int.mul_le_mul_of_nonneg_left (by omega) coarser
    split at this <;> omega
  exact ⟨quotient + extra ratio lead number, lower, by omega, by linarith⟩

/-- A phase, counted in steps of the axis: the steps at one fixed distance behind those of the part,
from the first neighbour that continues it to the last one. -/
theorem mem_phase_iff (placed : part.Placed whole before ratio after)
    {lead trail number index : Int} (several : 1 < part.count) (leadLow : 0 ≤ lead)
    (leadHigh : lead < ratio) (trailLow : 0 ≤ trail) (trailHigh : trail < ratio)
    (numberLow : 0 ≤ number) (numberHigh : number < ratio - 1) :
    index ∈ phase part whole lead trail number ↔ ∃ n, index = whole.start + whole.step * n ∧
      before - lead ≤ n ∧ n ≤ before + ratio * (part.count - 1) + trail ∧
      (n - before) % ratio = number + 1 := by
  -- The phase is put in numbers of steps: where it starts, and how many indices it has.
  have inFront : (if phases part whole - number ≤ lead then (1 : Int) else 0) =
      extra ratio lead number := by
    simp only [extra, placed.phases_eq, if_pos several]
  have start : (phase part whole lead trail number).start =
      whole.start + whole.step * (before + (number + 1) - ratio * extra ratio lead number) := by
    simp only [phase, inFront, placed.start, placed.step]
    ring
  have count : (phase part whole lead trail number).count =
      part.count - 1 + extra ratio lead number + further trail number := by
    simp only [phase, inFront, further]
  rw [mem_stretch_iff start placed.step, count]
  -- Both sides count in steps of the axis, so they are compared for one number of steps.
  refine exists_congr fun n => and_congr_right fun _ => ?_
  constructor
  · -- An index of the phase is near the part.
    intro reached
    obtain ⟨k, low, high, rfl⟩ := reached
    exact near_of_phase leadLow leadHigh trailLow numberLow numberHigh low high
  · -- A step near the part with this residue is counted by the phase.
    intro near
    exact phase_of_near leadHigh trailHigh numberLow numberHigh near.1 near.2.1 near.2.2

/-- A run of neighbouring steps is one piece, or none if it is empty. -/
theorem run_splits (axis : Axis) (first : Int) (nonempty : Prop) [Decidable nonempty]
    (start : axis.start = whole.start + whole.step * first) (step : axis.step = whole.step)
    (counted : nonempty ↔ 0 < axis.count) :
    Splits (fun axis index => index ∈ axis) (if nonempty then [axis] else []) fun index =>
      ∃ n, index = whole.start + whole.step * n ∧ first ≤ n ∧ n < first + axis.count := by
  -- In single steps the indices of a run are those between its ends.
  split
  · -- The run is a single axis of single steps.
    apply Splits.single
    intro index
    rw [mem_stretch_iff start (by rw [step, Int.mul_one] : axis.step = whole.step * 1)]
    refine exists_congr fun n => and_congr_right fun _ => ?_
    constructor
    · intro bounds
      exact ⟨n - first, by omega, by omega, by omega⟩
    · intro reached
      obtain ⟨k, low, high, rfl⟩ := reached
      omega
  · -- An empty run has nothing to hold.
    rename_i empty
    apply Splits.nil
    intro index member
    obtain ⟨n, -, low, high⟩ := member
    exact empty (counted.mpr (by omega))

/-- A multiple above minus one stride is not negative. -/
theorem nonneg_of_emod {x stride : Int} (positive : 0 < stride) (multiple : x % stride = 0)
    (above : -stride < x) : 0 ≤ x := by
  -- The multiple is larger than minus one, so it is not negative.
  obtain ⟨k, rfl⟩ := Int.dvd_of_emod_eq_zero multiple
  have : -1 < k := Int.lt_of_mul_lt_mul_left (a := stride) (by omega) (Int.le_of_lt positive)
  exact Int.mul_nonneg (Int.le_of_lt positive) (by omega)

/-- The phases together hold the steps near the part that it skips. -/
theorem between_splits (placed : part.Placed whole before ratio after) (lead trail : Int)
    (leadLow : 0 ≤ lead) (leadHigh : lead ≤ phases part whole) (trailLow : 0 ≤ trail)
    (trailHigh : trail ≤ phases part whole) :
    Splits (fun axis index => index ∈ axis)
      ((List.range (phases part whole).toNat).map fun (number : Nat) =>
        phase part whole lead trail number)
      fun index => ∃ n, index = whole.start + whole.step * n ∧ before - lead ≤ n ∧
        n ≤ before + ratio * (part.count - 1) + trail ∧ (n - before) % ratio ≠ 0 := by
  -- The phases are told apart by remainders, which need a second index of the part.
  have coarser := placed.coarser
  have nonempty := placed.nonempty
  rw [placed.phases_eq] at leadHigh trailHigh ⊢
  by_cases several : 1 < part.count
  · rw [if_pos several] at leadHigh trailHigh ⊢
    have member : ∀ number : Nat, number < (ratio - 1).toNat → ∀ index,
        (index ∈ phase part whole lead trail number ↔ ∃ n, index = whole.start + whole.step * n ∧
          before - lead ≤ n ∧ n ≤ before + ratio * (part.count - 1) + trail ∧
          (n - before) % ratio = number + 1) := fun number below index =>
      placed.mem_phase_iff several leadLow (by omega) trailLow (by omega) (by omega) (by omega)
    apply Splits.of_covers
    · -- A common index of two phases would have two remainders.
      refine List.pairwise_map.mpr (List.pairwise_lt_range.imp_of_mem ?_)
      intro first second firstMem secondMem less index inFirst inSecond
      obtain ⟨n, rfl, -, -, firstResidue⟩ :=
        (member first (List.mem_range.mp firstMem) _).mp inFirst
      obtain ⟨m, same, -, -, secondResidue⟩ :=
        (member second (List.mem_range.mp secondMem) _).mp inSecond
      rw [placed.steps_inj.mp same] at firstResidue
      omega
    · intro index
      constructor
      · intro near
        -- The remainder tells the phase.
        obtain ⟨n, rfl, low, high, skipped⟩ := near
        have residueLow := Int.emod_nonneg (n - before) (show ratio ≠ 0 by omega)
        have residueHigh := Int.emod_lt_of_pos (n - before) coarser
        have below : ((n - before) % ratio - 1).toNat < (ratio - 1).toNat := by omega
        exact ⟨_, List.mem_map_of_mem (List.mem_range.mpr below),
          (member _ below _).mpr ⟨n, rfl, low, high, by omega⟩⟩
      · intro held
        obtain ⟨piece, pieceMem, inPiece⟩ := held
        obtain ⟨number, numberMem, rfl⟩ := List.mem_map.mp pieceMem
        obtain ⟨n, rfl, low, high, residue⟩ :=
          (member number (List.mem_range.mp numberMem) _).mp inPiece
        exact ⟨n, rfl, low, high, by omega⟩
  · -- A single index has no neighbour that continues a phase.
    rw [if_neg several] at leadHigh trailHigh ⊢
    apply Splits.nil
    intro index near
    obtain ⟨n, -, low, high, skipped⟩ := near
    have single : part.count - 1 = 0 := by omega
    rw [single, Int.mul_zero] at high
    rw [show n - before = 0 by omega] at skipped
    simp at skipped

/-- The indices outside the part, counted in steps of the axis. -/
theorem mem_outside_iff (placed : part.Placed whole before ratio after) {index : Int} :
    index ∈ whole ∧ index ∉ part ↔
      ∃ n, index = whole.start + whole.step * n ∧ 0 ≤ n ∧ n < whole.count ∧
      (n < before ∨ before + ratio * (part.count - 1) < n ∨ (n - before) % ratio ≠ 0) := by
  -- Different numbers of steps lead to different indices, so a step of the part is
  -- the only way to be in it.
  rw [mem_whole_iff, placed.mem_part_iff]
  constructor
  · intro outside
    obtain ⟨⟨n, rfl, low, high⟩, missed⟩ := outside
    refine ⟨n, rfl, low, high, ?_⟩
    by_contra inside
    exact missed ⟨n, rfl, by omega, by omega, by omega⟩
  · intro outside
    obtain ⟨n, rfl, low, high, missed⟩ := outside
    refine ⟨⟨n, rfl, low, high⟩, fun inside => ?_⟩
    obtain ⟨m, same, mLow, mHigh, multiple⟩ := inside
    obtain rfl := placed.steps_inj.mp same
    omega

/-- Less than a stride in front of the part, it skips every step. -/
theorem skipped_in_front {before ratio lead n : Int} (short : lead < ratio)
    (near : before - lead ≤ n) (ahead : n < before) : (n - before) % ratio ≠ 0 := by
  -- The first multiple of the stride in front lies further away.
  intro multiple
  have := nonneg_of_emod (show 0 < ratio by omega) multiple (by omega)
  omega

/-- Less than a stride behind the part, it skips every step. -/
theorem skipped_behind {before ratio strides trail n : Int} (short : trail < ratio)
    (near : n ≤ before + ratio * strides + trail) (behind : before + ratio * strides < n) :
    (n - before) % ratio ≠ 0 := by
  intro multiple
  -- Seen from the end of the part the step lies in front, at a multiple of the stride.
  have turned : (before + ratio * strides - n) % ratio = 0 := by
    rw [show before + ratio * strides - n = ratio * strides - (n - before) by ring]
    exact Int.emod_eq_zero_of_dvd
      (Int.dvd_sub (Int.dvd_mul_right ..) (Int.dvd_of_emod_eq_zero multiple))
  have := nonneg_of_emod (show 0 < ratio by omega) turned (by omega)
  omega

/-- The pieces split the indices of the axis that the part leaves out. -/
theorem pieces_splits (placed : part.Placed whole before ratio after) :
    Splits (fun axis index => index ∈ axis) (pieces part whole before after) fun index =>
      index ∈ whole ∧ index ∉ part := by
  -- Each of the three groups of pieces is split on its own, and the groups are put together.
  have coarser := placed.coarser
  have beforeNonneg := placed.before_nonneg
  have afterNonneg := placed.after_nonneg
  have nonempty := placed.nonempty
  have total := placed.total
  have span : 0 ≤ ratio * (part.count - 1) := Int.mul_nonneg (Int.le_of_lt coarser) (by omega)
  have bounds : 0 ≤ phases part whole ∧ phases part whole < ratio := by
    rw [placed.phases_eq]
    split <;> omega
  unfold pieces
  -- The neighbours on each side are as many as there are phases, or fewer at an end.
  generalize leadEq : min before (phases part whole) = lead
  generalize trailEq : min after (phases part whole) = trail
  have stop : part.last + whole.step * (trail + 1) =
      whole.start + whole.step * (before + ratio * (part.count - 1) + (trail + 1)) := by
    unfold last
    rw [placed.start, placed.step]
    ring
  have front := run_splits ⟨whole.start, whole.step, before - lead, whole.size⟩ 0 (before > lead)
    (show _ = whole.start + whole.step * 0 by ring) rfl (by simp)
  have between := placed.between_splits lead trail (by omega) (by omega) (by omega) (by omega)
  have back :=
    run_splits ⟨part.last + whole.step * (trail + 1), whole.step, after - trail, whole.size⟩ _
    (after > trail) stop rfl (by simp)
  -- Steps before, among and behind the neighbours of the part are told apart by their order.
  refine ((front.append between ?_).append back ?_).congr ?_
  · -- The run in front ends before the neighbours begin.
    intro index inFront inBetween
    obtain ⟨n, rfl, low, high⟩ := inFront
    obtain ⟨m, same, mLow, mHigh, -⟩ := inBetween
    have := placed.steps_inj.mp same
    dsimp only at high
    omega
  · -- The run behind begins where the neighbours end.
    intro index before inBack
    obtain ⟨m, rfl, mLow, mHigh⟩ := inBack
    rcases before with ⟨n, same, low, high⟩ | ⟨n, same, low, high, -⟩
    · have := placed.steps_inj.mp same
      dsimp only at high
      omega
    · have := placed.steps_inj.mp same
      omega
  · intro index
    simp only [placed.mem_outside_iff, ← exists_or, ← and_or_left]
    refine exists_congr fun n => and_congr_right fun _ => ?_
    -- Near the part only the skipped steps are outside of it, and further away all steps are.
    have inFront : before - lead ≤ n → n < before → (n - before) % ratio ≠ 0 :=
      skipped_in_front (by omega)
    have behind : n ≤ before + ratio * (part.count - 1) + trail →
      before + ratio * (part.count - 1) < n →
        (n - before) % ratio ≠ 0 := skipped_behind (by omega)
    omega

/-- Every piece climbs through at least one index, along the same array axis. -/
theorem pieces_shape (placed : part.Placed whole before ratio after) {piece : Axis}
    (member : piece ∈ pieces part whole before after) :
    0 < piece.step ∧ 0 < piece.count ∧ piece.size = whole.size := by
  -- The pieces at the ends have the step of the axis, and the phases that of the part.
  have rising := placed.rising
  have partRising : 0 < part.step := placed.step ▸ Int.mul_pos rising placed.coarser
  have nonempty := placed.nonempty
  simp only [pieces, List.mem_append] at member
  rcases member with (front | between) | back
  · split at front
    · obtain rfl := List.mem_singleton.mp front
      exact ⟨rising, by dsimp only; omega, rfl⟩
    · simp at front
  · obtain ⟨number, numberMem, rfl⟩ := List.mem_map.mp between
    -- There are phases only between two indices of the part.
    have several : 1 < part.count := by
      by_contra single
      simp [phases, single] at numberMem
    refine ⟨partRising, ?_, rfl⟩
    simp only [phase]
    split <;> split <;> omega
  · split at back
    · obtain rfl := List.mem_singleton.mp back
      exact ⟨rising, by dsimp only; omega, rfl⟩
    · simp at back

end Placed

/-- Axes that split the indices of an axis outside a part, all of them
well-formed along its array axis. -/
structure Leaves (pieces : List Axis) (part whole : Axis) : Prop where
  -- The pieces are axes of the same array, and together they hold what the part leaves over.
  valid : ∀ piece ∈ pieces, piece.Valid
  size : ∀ piece ∈ pieces, piece.size = whole.size
  splits : Splits (fun axis index => index ∈ axis) pieces fun index => index ∈ whole ∧ index ∉ part

/-- Taking an aligned part away from an axis is over budget, or leaves axes that split the rest. -/
theorem difference_cases {part whole : Axis} (partValid : part.Valid) (wholeValid : whole.Valid)
    (aligned : whole.step ∣ part.step) (subset : ∀ index, index ∈ part → index ∈ whole)
    (budget : Int) :
    (phases part whole > budget ∧ whole.difference part budget = .ok none) ∨
      ∃ pieces, phases part whole ≤ budget ∧ whole.difference part budget = .ok (some pieces) ∧
        Leaves pieces part whole := by
  -- Pieces inside a well-formed axis are well-formed.
  obtain ⟨before, ratio, after, placed⟩ := placed_of_subset partValid wholeValid aligned subset
  rw [placed.difference_eq budget]
  by_cases exceeded : phases part whole > budget
  · exact Or.inl ⟨exceeded, by rw [if_pos exceeded]⟩
  · refine Or.inr ⟨_, by omega, by rw [if_neg exceeded], ?_, ?_, placed.pieces_splits⟩
    · intro piece member
      obtain ⟨rising, positive, size⟩ := placed.pieces_shape member
      exact valid_of_subset wholeValid rising positive size fun index inPiece =>
        (placed.pieces_splits.inside piece member index inPiece).1
    · intro piece member
      exact (placed.pieces_shape member).2.2

end Overlap.Axis
