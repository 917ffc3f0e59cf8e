import Overlap.Proofs.Relation.Intersect

/-! Sizes of arrays are compared from the outside in, and only up to an
axis without a common index. -/

namespace Overlap

/-- Sizes agree up to an axis along which no index is shared, and differ further in. -/
inductive HiddenMismatch : List Axis → List Axis → Prop where
  -- An axis without common indices ends the comparison before the sizes behind it are seen.
  | here {left right : Axis} {lefts rights : List Axis} (size : left.size = right.size)
      (apart : ∀ index, ¬ (index ∈ left ∧ index ∈ right)) (differ : ¬ SameSizes lefts rights) :
      HiddenMismatch (left :: lefts) (right :: rights)
  | further {left right : Axis} {lefts rights : List Axis} (size : left.size = right.size)
      (hidden : HiddenMismatch lefts rights) : HiddenMismatch (left :: lefts) (right :: rights)

/-- A mismatch of sizes is a difference of sizes. -/
theorem HiddenMismatch.not_sameSizes {lefts rights : List Axis}
    (hidden : HiddenMismatch lefts rights) :
    ¬ SameSizes lefts rights := by
  -- The difference lies behind equal sizes.
  induction hidden with
  | here _ _ differ => exact fun sizes => differ (sameSizes_cons.mp sizes).2
  | further _ _ ih => exact fun sizes => ih (sameSizes_cons.mp sizes).2

/-- Comparing axes finds a difference of sizes, unless all sizes agree or an axis without a
common index comes before it. -/
theorem meetAxes_sizes {lefts rights : List Axis} (leftValid : AllValid lefts)
    (rightValid : AllValid rights) (counts : lefts.length = rights.length) (number : Nat) :
    (∃ axis, meetAxes number lefts rights = .ok (.mismatch axis)) ∨ SameSizes lefts rights ∨
      HiddenMismatch lefts rights ∧ ∃ axis, meetAxes number lefts rights = .ok (.apart axis) := by
  -- From the outside in, a difference is found at its axis unless the comparison ended before.
  induction lefts generalizing rights number with
  | nil =>
    obtain rfl : rights = [] := List.eq_nil_of_length_eq_zero counts.symm
    exact Or.inr (Or.inl rfl)
  | cons left lefts ih =>
    cases rights with
    | nil => simp at counts
    | cons right rights =>
      obtain ⟨leftFirst, leftRest⟩ := allValid_cons.mp leftValid
      obtain ⟨rightFirst, rightRest⟩ := allValid_cons.mp rightValid
      by_cases size : left.size = right.size
      · rcases Axis.meet_cases leftFirst rightFirst with ⟨none, apart⟩ | ⟨common, some, -⟩
        · -- Nobody looks behind the first axis without a common index.
          by_cases sizes : SameSizes lefts rights
          · exact Or.inr (Or.inl (sameSizes_cons.mpr ⟨size, sizes⟩))
          · refine Or.inr (Or.inr ⟨.here size apart sizes, number, ?_⟩)
            simp [meetAxes, size, none, Bind.bind, Except.bind, Pure.pure, Except.pure]
        · rcases ih leftRest rightRest (by simpa using counts) (number + 1) with
            ⟨axis, inner⟩ | sizes | ⟨hidden, axis, inner⟩
          · refine Or.inl ⟨axis, ?_⟩
            simp [meetAxes, size, some, inner, Bind.bind, Except.bind, Pure.pure, Except.pure]
          · exact Or.inr (Or.inl (sameSizes_cons.mpr ⟨size, sizes⟩))
          · refine Or.inr (Or.inr ⟨.further size hidden, axis, ?_⟩)
            simp [meetAxes, size, some, inner, Bind.bind, Except.bind, Pure.pure, Except.pure]
      · exact Or.inl ⟨number, by simp [meetAxes, size, Pure.pure, Except.pure]⟩

/-- Two equally long lists of well-formed axes are compared, and shared
axes hold the common tuples. -/
theorem meetAxes_found {lefts rights : List Axis} (leftValid : AllValid lefts)
    (rightValid : AllValid rights) (counts : lefts.length = rights.length) (number : Nat) :
    ∃ met, meetAxes number lefts rights = .ok met ∧ ∀ commons, met = .shared commons →
      MeetAll commons lefts rights := by
  -- Sizes that differ are found first, unless an axis without common indices comes before.
  rcases meetAxes_sizes leftValid rightValid counts number with ⟨axis, met⟩ | sizes | ⟨-, axis, met⟩
  · exact ⟨_, met, fun commons shared => by cases shared⟩
  · rcases meetAxes_cases leftValid rightValid sizes number with ⟨axis, met, -⟩ |
      ⟨commons, met, all⟩
    · exact ⟨_, met, fun commons shared => by cases shared⟩
    · refine ⟨_, met, fun others shared => ?_⟩
      cases shared
      exact all
  · exact ⟨_, met, fun commons shared => by cases shared⟩

/-- A mismatch of sizes that is hidden behind an axis without a common index is not found. -/
theorem meetAxes_of_hidden {lefts rights : List Axis} (leftValid : AllValid lefts)
    (rightValid : AllValid rights) (hidden : HiddenMismatch lefts rights) (number : Nat) :
    ∃ axis, meetAxes number lefts rights = .ok (.apart axis) := by
  -- The axis without a common index is reached before the difference.
  induction hidden generalizing number with
  | here size apart _ =>
    rcases Axis.meet_cases (allValid_cons.mp leftValid).1 (allValid_cons.mp rightValid).1 with
      ⟨none, -⟩ | ⟨common, -, meets⟩
    · exact ⟨number, by simp [meetAxes, size, none, Bind.bind, Except.bind, Pure.pure, Except.pure]⟩
    · exact absurd ((meets.mem _).mp (Axis.start_mem meets.valid)) (apart _)
  | further size _ ih =>
    obtain ⟨leftFirst, leftRest⟩ := allValid_cons.mp leftValid
    obtain ⟨rightFirst, rightRest⟩ := allValid_cons.mp rightValid
    obtain ⟨axis, inner⟩ := ih leftRest rightRest (number + 1)
    rcases Axis.meet_cases leftFirst rightFirst with ⟨none, -⟩ | ⟨common, some, -⟩
    · exact ⟨number, by simp [meetAxes, size, none, Bind.bind, Except.bind, Pure.pure, Except.pure]⟩
    · exact ⟨axis, by simp [meetAxes, size, some, inner, Bind.bind, Except.bind, Pure.pure,
        Except.pure]⟩

namespace Region

/-- Arrays with a precise answer have elements of the same size and axes of the same sizes, or a
hidden mismatch, and then they are told to be disjoint. -/
theorem relateAxes_sizes {left right : Region} (leftValid : AllValid left.axes)
    (rightValid : AllValid right.axes) {budget : Int} {wanted : Wanted} {comparison : Comparison}
    (related : left.relateAxes right budget wanted = .ok comparison) :
    comparison.outcome = .imprecise ∨ left.upper = right.upper ∧
      (SameSizes left.axes right.axes ∨
        HiddenMismatch left.axes right.axes ∧ comparison.outcome = .disjoint) := by
  -- Each way out of the comparison says what is known about the sizes.
  by_cases shape : left.axes.length ≠ right.axes.length ∨ left.upper ≠ right.upper
  · cases (relateAxes_of_shape leftValid rightValid shape budget wanted).symm.trans related
    exact Or.inl rfl
  have agree := shape
  simp only [not_or, ne_eq, not_not] at agree
  by_cases equal : left.lower = right.lower ∧ left.axes = right.axes
  · -- Equal axes have equal sizes.
    exact Or.inr ⟨agree.2, Or.inl (congrArg _ equal.2)⟩
  have settled := @relateAxes_eq_settle left right leftValid rightValid shape equal
  rcases meetAxes_sizes leftValid rightValid agree.1 0 with ⟨axis, met⟩ | sizes |
    ⟨hidden, axis, met⟩
  · -- A mismatch that is noticed makes the answer imprecise.
    cases (settled met budget wanted).symm.trans related
    exact Or.inl rfl
  · exact Or.inr ⟨agree.2, Or.inl sizes⟩
  · -- A mismatch behind an axis without common indices is not noticed.
    cases (settled met budget wanted).symm.trans related
    exact Or.inr ⟨agree.2, Or.inr ⟨hidden, rfl⟩⟩

/-- With a hidden mismatch of sizes, arrays are told to be disjoint. -/
theorem relateAxes_of_hidden {left right : Region} (leftValid : AllValid left.axes)
    (rightValid : AllValid right.axes) (counts : left.axes.length = right.axes.length)
    (element : left.upper = right.upper) (hidden : HiddenMismatch left.axes right.axes)
    (budget : Int) (wanted : Wanted) :
    left.relateAxes right budget wanted = .ok { outcome := .disjoint } := by
  -- The axes are not equal, so they are compared one by one.
  obtain ⟨axis, met⟩ := meetAxes_of_hidden leftValid rightValid hidden 0
  have differ : left.axes ≠ right.axes := fun equal => hidden.not_sameSizes (congrArg _ equal)
  exact relateAxes_eq_settle leftValid rightValid (by simp [counts, element])
    (fun both => differ both.2) met budget wanted

end Region

end Overlap
