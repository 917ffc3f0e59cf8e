import Mathlib.Data.List.Sort
import Overlap.Footprint.Verify

/-! Numbers in rising order: lists of them are equal when they hold the same numbers. -/

namespace Overlap

/-- The list holds the numbers with a property, in rising order and so each of them once. -/
structure Lists (numbers : List Int) (holds : Int → Prop) : Prop where
  -- Rising lists have no repetitions, so a list is determined by its members.
  rising : numbers.Pairwise (· < ·)
  mem : ∀ number, number ∈ numbers ↔ holds number

namespace Lists

variable {numbers others : List Int} {holds held : Int → Prop}

/-- There is one list for each property. -/
theorem unique (lists : Lists numbers holds) (other : Lists others held)
    (same : ∀ number, holds number ↔ held number) :
    numbers = others := by
  -- In rising order the members decide about the places.
  refine lists.rising.eq_of_mem_iff other.rising fun number => ?_
  rw [lists.mem, other.mem, same]

/-- A stronger property has a list that is not longer. -/
theorem length_le (lists : Lists numbers holds) (other : Lists others held)
    (stronger : ∀ number, holds number → held number) : numbers.length ≤ others.length := by
  -- A list without repetitions is no longer than a list with all of its members.
  refine (List.subperm_of_subset lists.rising.nodup fun number member => ?_).length_le
  exact (other.mem number).mpr (stronger number ((lists.mem number).mp member))

end Lists

theorem isRising_iff {values : List Int} : isRising values = true ↔ values.Pairwise (· < ·) := by
  -- Comparing neighbours is enough, since the order is transitive.
  induction values with
  | nil => simp [isRising]
  | cons first rest ih =>
    cases rest with
    | nil => simp [isRising]
    | cons second rest =>
      rw [isRising, Bool.and_eq_true, ih, decide_eq_true_eq, @List.pairwise_cons _ _ first]
      constructor
      · intro rising
        -- A later value is above the second one, and so above the first one.
        refine ⟨fun value member => ?_, rising.2⟩
        rcases List.mem_cons.mp member with same | behind
        · exact same ▸ rising.1
        · exact Int.lt_trans rising.1 (List.rel_of_pairwise_cons rising.2 behind)
      · intro rising
        exact ⟨rising.1 second List.mem_cons_self, rising.2⟩

theorem lists_dropRepeats {values : List Int} (sorted : values.Pairwise (· ≤ ·)) :
    Lists (dropRepeats values) (· ∈ values) := by
  -- In a sorted list equal numbers are neighbours, so the first of the rest
  -- shows whether one repeats.
  induction values with
  | nil => exact ⟨List.Pairwise.nil, fun _ => Iff.rfl⟩
  | cons value rest ih =>
    obtain ⟨least, sortedRest⟩ := List.pairwise_cons.mp sorted
    obtain ⟨rising, mem⟩ := ih sortedRest
    have unfolded : dropRepeats (value :: rest) =
        if (dropRepeats rest).head? = some value then dropRepeats rest
          else value :: dropRepeats rest := rfl
    rw [unfolded]
    split
    · -- The number is found again behind its place.
      rename_i repeated
      refine ⟨rising, fun number => ?_⟩
      rw [mem, List.mem_cons]
      constructor
      · exact Or.inr
      · intro member
        rcases member with same | behind
        · exact same ▸ (mem value).mp (List.mem_of_head? repeated)
        · exact behind
    · rename_i new
      refine ⟨List.pairwise_cons.mpr ⟨fun number member => ?_, rising⟩, fun number => by simp [mem]⟩
      have below := least number ((mem number).mp member)
      cases kept : dropRepeats rest with
      | nil => simp [kept] at member
      | cons first others =>
        rw [kept] at member rising mem
        have different : first ≠ value := by simpa [kept] using new
        have atLeast := least first ((mem first).mp List.mem_cons_self)
        rcases List.mem_cons.mp member with same | behind
        · omega
        · have := List.rel_of_pairwise_cons rising behind
          omega

/-- Numbers are put into rising order without losing any or adding others. -/
theorem lists_ascending (values : List Int) : Lists (ascending values) (· ∈ values) := by
  -- Sorting brings equal numbers together, and dropping repeats makes the order strict.
  unfold ascending
  split
  · -- Nothing has to be done for values that rise already.
    rename_i rising
    exact ⟨isRising_iff.mp rising, fun _ => Iff.rfl⟩
  · -- The order of sorting is transitive and total.
    have sorted : (values.mergeSort fun left right => decide (left ≤ right)).Pairwise (· ≤ ·) := by
      have trans : ∀ a b c : Int, decide (a ≤ b) = true → decide (b ≤ c) = true →
          decide (a ≤ c) = true := by
        intro a b c below above
        exact decide_eq_true (Int.le_trans (of_decide_eq_true below) (of_decide_eq_true above))
      have total : ∀ a b : Int, (decide (a ≤ b) || decide (b ≤ a)) = true := by
        intro a b
        simpa using Int.le_total a b
      simpa using List.pairwise_mergeSort trans total values
    obtain ⟨rising, mem⟩ := lists_dropRepeats sorted
    exact ⟨rising, fun number => by rw [mem, List.mem_mergeSort]⟩

/-- Numbers that are in rising order stay as they are. -/
theorem ascending_of_rising {values : List Int} (rising : values.Pairwise (· < ·)) :
    ascending values = values :=
  -- A list that is in order is not touched.
  if_pos (isRising_iff.mpr rising)

@[simp] theorem mem_commonNumbers {numbers others : List Int} {number : Int} :
    number ∈ commonNumbers numbers others ↔ number ∈ numbers ∧ number ∈ others := by
  -- The set finds the members of the other list.
  simp [commonNumbers]

@[simp] theorem mem_otherNumbers {numbers others : List Int} {number : Int} :
    number ∈ otherNumbers numbers others ↔ number ∈ numbers ∧ number ∉ others := by
  -- The set finds the members of the other list here as well.
  simp [otherNumbers]

/-- Common numbers come in the order of the first list. -/
theorem Lists.common {numbers others : List Int} {holds held : Int → Prop}
    (lists : Lists numbers holds) (other : Lists others held) :
    Lists (commonNumbers numbers others) fun number => holds number ∧ held number :=
  -- What is left of a rising list is still rising.
  ⟨lists.rising.filter _, fun number => by rw [mem_commonNumbers, lists.mem, other.mem]⟩

end Overlap
