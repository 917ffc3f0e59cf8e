import Mathlib.Tactic.Linarith
import Mathlib.Tactic.Ring
import Overlap.Proofs.Axis.Basic
import Overlap.Proofs.Footprint.Ascending

/-! Progressions of moderate numbers are listed in words without a loss. -/

namespace Overlap

namespace Double

theorem roundQuotient_bounds (a b : Nat) :
    a / b ≤ roundQuotient a b ∧ roundQuotient a b ≤ a / b + 1 := by
  -- Rounding adds one or nothing to the quotient that is rounded down.
  unfold roundQuotient
  dsimp only
  split <;> omega

/-- A quotient below one stays at or below one when it is rounded. -/
theorem ofQuotient_one {d : Nat} (large : 2 ^ 53 < d) :
    ∃ (m : Nat) (e : Int), ofQuotient false 1 d = .finite false m e ∧ e < 0 ∧
      m ≤ 2 ^ (-e).toNat := by
  -- The denominator has more than 53 binary digits, so the exponent is far below zero.
  have digits : 53 ≤ d.log2 := (Nat.le_log2 (by omega)).mpr (Nat.le_of_lt large)
  have exponent : quotientExponent 1 d ≤ -105 := by
    have ones : Nat.log2 1 = 0 := by decide
    simp only [quotientExponent, minExponent, precision, ones, Nat.pow_eq]
    split <;> omega
  unfold ofQuotient
  generalize quotientExponent 1 d = e at exponent
  have scaled : descale 1 d e = (2 ^ (-e).toNat, d) := by simp [descale, show e < 0 by omega]
  have half : 2 ^ (-e).toNat = 2 * 2 ^ ((-e).toNat - 1) := by
    rw [← Nat.pow_succ']
    congr 1
    omega
  have room : 2 ^ 104 ≤ 2 ^ ((-e).toNat - 1) := Nat.pow_le_pow_right (by omega) (by omega)
  simp only [scaled, precision, maxExponent, Nat.one_ne_zero, if_false, Nat.pow_eq]
  obtain ⟨-, high⟩ := roundQuotient_bounds (2 ^ (-e).toNat) d
  have below : 2 ^ (-e).toNat / d ≤ 2 ^ (-e).toNat / 2 := Nat.div_le_div_left (by omega) (by omega)
  split
  · -- Rounding up to one more binary digit still leaves the quotient below one.
    refine ⟨2 ^ 52, e + 1, by rw [if_neg (by omega)], by omega, ?_⟩
    have : (-(e + 1)).toNat = (-e).toNat - 1 := by omega
    rw [this]
    exact Nat.le_trans (by norm_num) room
  · exact ⟨_, e, by rw [if_neg (by omega)], by omega, by omega⟩

/-- A whole number of 54 binary digits is at least two to the 53rd when it is rounded,
and not above the next power. -/
theorem ofQuotient_large {a : Nat} (low : 2 ^ 53 ≤ a) (high : a < 2 ^ 54) :
    ∃ (m : Nat) (e : Nat), ofQuotient false a 1 = .finite false m e ∧ 2 ^ 53 ≤ m * 2 ^ e ∧
      m * 2 ^ e ≤ 2 ^ 54 := by
  -- With one binary digit too many, the exponent is one, and rounding goes to a neighbour.
  have digits : a.log2 = 53 := (Nat.log2_eq_iff (by omega)).mpr ⟨low, high⟩
  have exponent : quotientExponent a 1 = 1 := by
    have ones : Nat.log2 1 = 0 := by decide
    have scaled : descale a 1 1 = (a, 2) := rfl
    have guess : ((53 : Nat) : Int) - (0 : Nat) - (53 - 1 : Nat) = 1 := by decide
    have full : ¬ a / 2 < 2 ^ (53 - 1) := by omega
    simp only [quotientExponent, precision, ones, digits, guess, scaled, Nat.pow_eq, if_neg full]
    decide
  have scaled : descale a 1 1 = (a, 2) := rfl
  obtain ⟨below, above⟩ := roundQuotient_bounds a 2
  unfold ofQuotient
  simp only [exponent, scaled, precision, maxExponent, show a ≠ 0 by omega, if_false, Nat.pow_eq]
  split
  · -- Rounding has reached the next power of two.
    exact ⟨2 ^ 52, 2, rfl, by norm_num, by norm_num⟩
  · -- The rounded half is within the bounds of the quotient.
    exact ⟨roundQuotient a 2, 1, rfl, by omega, by omega⟩

end Double

theorem upperQuotient?_exact {a b : Int} (first : a.natAbs ≤ 2 ^ 53) (second : b.natAbs ≤ 2 ^ 53) :
    upperQuotient? a b = some (-((-a).fdiv b)) :=
  -- Numbers of this size are divided without rounding.
  if_pos ⟨first, second⟩

/-- A single step of any length counts as one. -/
theorem upperQuotient?_one {b : Int} (large : 2 ^ 53 < b) : upperQuotient? 1 b = some 1 := by
  -- The quotient is rounded to a number between zero and one, and then up.
  obtain ⟨m, e, rounded, negative, small⟩ := Double.ofQuotient_one (show 2 ^ 53 < b.natAbs by omega)
  have inexact : ¬ ((1 : Int).natAbs ≤ Nat.pow 2 Double.precision ∧
      b.natAbs ≤ Nat.pow 2 Double.precision) := by
    simp only [Double.precision, Nat.pow_eq]
    omega
  have sign : (decide ((1 : Int) < 0) != decide (b < 0)) = false := by simp; omega
  unfold upperQuotient?
  rw [if_neg inexact]
  simp only [sign, Int.natAbs_one, rounded]
  cases m with
  | zero => rfl
  | succ m =>
    -- The mantissa is positive and not above the power of two that divides it.
    have quotient : -((m + 1 : Nat) : Int) / (2 ^ (-e).toNat : Nat) = -1 :=
      (Int.ediv_eq_iff_of_pos (by omega)).mpr ⟨by omega, by omega⟩
    simp only [Double.ceil?, Bool.false_eq_true, if_false, negative, if_true, Nat.pow_eq, quotient]
    rfl

/-- The length of an interval that is too long to be counted exactly is still
known up to a power of two. -/
theorem upperQuotient?_large {a : Int} (low : 2 ^ 53 < a) (high : a < 2 ^ 54) :
    ∃ count, upperQuotient? a 1 = some count ∧ 2 ^ 53 ≤ count ∧ count ≤ 2 ^ 54 := by
  -- The rounded number is whole, so it is its own ceiling.
  obtain ⟨m, e, rounded, below, above⟩ :=
    Double.ofQuotient_large (show 2 ^ 53 ≤ a.natAbs by omega) (show a.natAbs < 2 ^ 54 by omega)
  have inexact : ¬ (a.natAbs ≤ Nat.pow 2 Double.precision ∧
      (1 : Int).natAbs ≤ Nat.pow 2 Double.precision) := by
    simp only [Double.precision, Nat.pow_eq]
    omega
  have sign : (decide (a < 0) != decide ((1 : Int) < 0)) = false := by simp; omega
  refine ⟨(m * 2 ^ e : Nat), ?_, by exact_mod_cast below, by exact_mod_cast above⟩
  unfold upperQuotient?
  rw [if_neg inexact]
  simp only [sign, Int.natAbs_one, rounded]
  cases m with
  | zero => simp at below
  | succ m => simp [Double.ceil?, show ¬ (e : Int) < 0 by omega]

namespace Axis

/-- The indices of an axis in order. -/
def toList (axis : Axis) : List Int :=
  -- The indices come in the order of their steps.
  (List.range axis.count.toNat).map fun (steps : Nat) => axis.start + axis.step * steps

@[simp] theorem length_toList (axis : Axis) : axis.toList.length = axis.count.toNat := by
  -- There is one index for each number of steps.
  simp [toList]

/-- A rising axis is listed in order. -/
theorem lists_toList {axis : Axis} (rising : 0 < axis.step) : Lists axis.toList (· ∈ axis) := by
  constructor
  · -- Every step leads to a larger index.
    refine List.Pairwise.map _ ?_ List.pairwise_lt_range
    intro first second before
    have := Int.mul_lt_mul_of_pos_left (show (first : Int) < second by omega) rising
    omega
  · intro index
    simp only [toList, List.mem_map, List.mem_range, mem_def]
    constructor
    · intro listed
      obtain ⟨steps, below, rfl⟩ := listed
      exact ⟨steps, by omega, by omega, rfl⟩
    · intro member
      obtain ⟨steps, nonneg, below, rfl⟩ := member
      exact ⟨steps.toNat, by omega, by rw [Int.toNat_of_nonneg nonneg]⟩

/-- A rising axis is at least as long as it has steps. -/
theorem count_le {axis : Axis} (rising : 0 < axis.step) (positive : 0 < axis.count) :
    axis.count - 1 ≤ axis.step * (axis.count - 1) := by
  -- Each step is at least one wide.
  have :=
    Int.mul_le_mul_of_nonneg_right (show 1 ≤ axis.step by omega) (show 0 ≤ axis.count - 1 by omega)
  omega

end Axis

/-- Steps along an axis of moderate length are counted exactly. -/
theorem stepCount_eq (axis : Axis) (rising : 0 < axis.step) (positive : 0 < axis.count)
    (moderate : axis.step * (axis.count - 1) < 2 ^ 53) :
    stepCount axis.start (axis.last + 1) axis.step = .ok axis.count := by
  -- The distance is one more than a multiple of the step, and its quotient is rounded up.
  have distance : axis.last + 1 - axis.start = axis.step * (axis.count - 1) + 1 := by
    unfold Axis.last
    ring
  have few := Axis.count_le rising positive
  have counted : upperQuotient? (axis.last + 1 - axis.start) axis.step = some axis.count := by
    rw [distance]
    by_cases short : axis.step ≤ 2 ^ 53
    · rw [upperQuotient?_exact (by omega) (by omega),
        Int.fdiv_eq_ediv_of_nonneg _ (Int.le_of_lt rising)]
      -- One address behind the last step is the next step, rounded up.
      have quotient : -(axis.step * (axis.count - 1) + 1) / axis.step = -axis.count :=
        (Int.ediv_eq_iff_of_pos rising).mpr ⟨by linarith, by linarith⟩
      rw [quotient, Int.neg_neg]
    · -- A longer step would lead out of the range, so there is none.
      have single : axis.count = 1 := by
        by_contra several
        have :=
          Int.mul_le_mul_of_nonneg_left (show 1 ≤ axis.count - 1 by omega) (Int.le_of_lt rising)
        omega
      rw [single, Int.sub_self, Int.mul_zero, Int.zero_add]
      exact upperQuotient?_one (by omega)
  have fits : Word.Fits axis.count := by
    unfold Word.Fits
    omega
  have words : axis.count.natAbs ≤ 0x8000000000000000 := by omega
  simp only [stepCount, if_neg (show axis.step ≠ 0 by omega), counted, if_pos words,
    Word.wrap_of_fits fits]

/-- There is room for a list of words, or not, depending on their number. -/
theorem checkWords_eq [Limits] {count : Nat} (moderate : count ≤ 2 ^ 54) :
    checkWords count = if memoryBytes < count * wordBytes then .error .outOfMemory else .ok () := by
  -- The bytes of so few words are countable by a word.
  have few : ¬ 0x8000000000000000 ≤ count * wordBytes := by
    simp only [wordBytes]
    omega
  rw [checkWords, if_neg few, checkBytes]

/-- Indices that fit are listed as they are. -/
theorem wordRange_eq [Limits] {axis : Axis} {stop : Int}
    (counted : stepCount axis.start stop axis.step = .ok axis.count)
    (fits : ∀ index ∈ axis, Word.Fits index) :
    wordRange axis.start stop axis.step = (checkWords axis.count.toNat).map fun _ =>
      axis.toList := by
  -- All numbers fit, so both tests are passed and nothing wraps around.
  have first : ¬ (axis.count ≥ 1 ∧ ¬ Word.Fits axis.start) := by
    intro refused
    exact refused.2 (fits _ ⟨0, by omega, by omega, by ring⟩)
  have second : ¬ (axis.count ≥ 2 ∧ ¬ Word.Fits (axis.start + axis.step)) := by
    intro refused
    exact refused.2 (fits _ ⟨1, by omega, by omega, by ring⟩)
  simp only [wordRange, counted, first, second, Bind.bind, Except.bind, Pure.pure,
    Except.pure, if_false]
  cases checkWords axis.count.toNat with
  | error fault => rfl
  | ok _ =>
    refine congrArg Except.ok (List.map_congr_left fun steps below => ?_)
    exact Word.wrap_of_fits
      (fits _ ⟨steps, by omega, by have := List.mem_range.mp below; omega, rfl⟩)

/-- The indices of a well-formed axis are listed when they are moderate
and there is room for them. -/
theorem Axis.wordIndices_eq [Limits] {axis : Axis} (valid : axis.Valid)
    (moderate : axis.last < 2 ^ 53) :
    axis.wordIndices = if memoryBytes < axis.count.toNat * wordBytes then .error .outOfMemory
      else .ok axis.toList := by
  -- The indices lie between zero and the last one.
  obtain ⟨nonneg, rising, positive, -, -⟩ := valid
  have length : axis.step * (axis.count - 1) < 2 ^ 53 := by
    unfold Axis.last at moderate
    omega
  have few := count_le rising positive
  have fits : ∀ index ∈ axis, Word.Fits index := by
    intro index member
    have low := start_le rising member
    have high := le_last rising member
    unfold Word.Fits
    omega
  rw [wordIndices, wordRange_eq (stepCount_eq axis rising positive length) fits,
    checkWords_eq (by omega)]
  split <;> rfl

/-- The bytes of an interval between moderate bounds are listed when there is room for them. -/
theorem wordRange_interval [Limits] {low high : Int} (ordered : low < high) (lowest : -2 ^ 53 < low)
    (highest : high ≤ 2 ^ 53) :
    wordRange low high 1 = if memoryBytes < (high - low).toNat * wordBytes then .error .outOfMemory
      else .ok (Axis.toList ⟨low, 1, high - low, 0⟩) := by
  -- An interval of moderate length is an axis in steps of one.
  by_cases short : high - low ≤ 2 ^ 53
  · -- The interval is counted without rounding, and each of its numbers is a word.
    have reach : (⟨low, 1, high - low, 0⟩ : Axis).last + 1 = high := by
      simp only [Axis.last]
      omega
    have counted := stepCount_eq ⟨low, 1, high - low, 0⟩ Int.one_pos (Int.sub_pos_of_lt ordered)
      (by dsimp only; omega)
    rw [reach] at counted
    have listed := wordRange_eq counted (by
      intro index member
      have above := Axis.start_le Int.one_pos member
      have below := Axis.le_last Int.one_pos member
      simp only [Axis.last] at above below
      unfold Word.Fits
      omega)
    rw [listed, checkWords_eq (by dsimp only; omega)]
    split <;> rfl
  · -- Such an interval is too long for the memory, however its length is rounded.
    obtain ⟨count, rounded, below, above⟩ :=
      upperQuotient?_large (show 2 ^ 53 < high - low by omega) (show high - low < 2 ^ 54 by omega)
    have fits : Word.Fits count := by
      unfold Word.Fits
      omega
    have counted : stepCount low high 1 = .ok count := by
      have words : count.natAbs ≤ 0x8000000000000000 := by omega
      simp only [stepCount, Int.one_ne_zero, if_false, rounded, if_pos words,
        Word.wrap_of_fits fits]
    -- Neither the exact nor the rounded number of words has room.
    have memory := Limits.memory_lt_exact
    have full : memoryBytes < count.toNat * wordBytes := by
      unfold wordBytes at memory ⊢
      omega
    have refused : memoryBytes < (high - low).toNat * wordBytes := by
      unfold wordBytes at memory ⊢
      omega
    simp only [wordRange, counted, checkWords_eq (show count.toNat ≤ 2 ^ 54 by omega), if_pos full,
      if_pos refused, Bind.bind, Except.bind]

end Overlap
