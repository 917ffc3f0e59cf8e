import Overlap.Proofs.Axis.Meet
import Overlap.Proofs.Axis.Tuples

/-! A well-formed axis is given by its step and its indices, so what two axes have in common
does not depend on their order. -/

namespace Overlap

namespace Axis

/-- Well-formed axes with the same step and the same indices along one array axis are equal. -/
theorem eq_of_mem_iff {axis other : Axis} (valid : axis.Valid) (otherValid : other.Valid)
    (step : axis.step = other.step) (size : axis.size = other.size)
    (same : ∀ index, index ∈ axis ↔ index ∈ other) : axis = other := by
  have rising := valid.2.1
  have otherRising := otherValid.2.1
  -- Each of the two axes starts and ends with an index of the other one.
  have start : axis.start = other.start := Int.le_antisymm
    (start_le rising ((same _).mpr (start_mem otherValid)))
      (start_le otherRising ((same _).mp (start_mem valid)))
  have stop : axis.last = other.last := Int.le_antisymm
    (le_last otherRising ((same _).mp (last_mem valid)))
      (le_last rising ((same _).mpr (last_mem otherValid)))
  -- With the same ends and the same step, there are as many indices.
  have count : axis.count = other.count := by
    unfold last at stop
    rw [start, step] at stop
    have := Int.eq_of_mul_eq_mul_left (Int.ne_of_gt otherRising) (Int.add_left_cancel stop)
    omega
  cases axis
  cases other
  simp_all

/-- Common indices of two axes of one size do not depend on the order of the axes. -/
theorem Meets.symm {common left right : Axis} (meets : common.Meets left right)
    (size : left.size = right.size) :
    common.Meets right left where
  -- Everything but the size treats both axes alike.
  valid := meets.valid
  size := meets.size.trans size
  step := by rw [meets.step, Int.lcm_comm]
  mem index := (meets.mem index).trans and_comm

/-- There is only one axis of the common indices. -/
theorem Meets.unique {common other left right : Axis} (meets : common.Meets left right)
    (otherMeets : other.Meets left right) : common = other :=
  -- An axis is determined by its indices, its step and its size, and the
  -- two axes agree in all three.
  eq_of_mem_iff meets.valid otherMeets.valid (meets.step.trans otherMeets.step.symm)
    (meets.size.trans otherMeets.size.symm) fun index =>
      (meets.mem index).trans (otherMeets.mem index).symm

/-- Two axes have the same common indices in either order. -/
theorem meet_comm {left right : Axis} (leftValid : left.Valid) (rightValid : right.Valid)
    (size : left.size = right.size) : left.meet right = right.meet left := by
  -- Either both orders find nothing, or the two common axes are the same one.
  rcases meet_cases leftValid rightValid with ⟨met, apart⟩ | ⟨common, met, meets⟩
  · rcases meet_cases rightValid leftValid with ⟨turned, -⟩ | ⟨other, -, otherMeets⟩
    · rw [met, turned]
    -- A common axis has a start, which would be shared although nothing is.
    · exact absurd ((otherMeets.mem _).mp (start_mem otherMeets.valid)).symm (apart _)
  · rcases meet_cases rightValid leftValid with ⟨-, apart⟩ | ⟨other, turned, otherMeets⟩
    · exact absurd ((meets.mem _).mp (start_mem meets.valid)).symm (apart _)
    · rw [met, turned, meets.unique (otherMeets.symm size.symm)]

end Axis

/-- Lists of well-formed axes with the same steps and sizes are equal
when they have the same tuples. -/
theorem axes_eq_of_inAxes_iff {axes others : List Axis} (valid : AllValid axes)
    (otherValid : AllValid others) (steps : axes.map Axis.step = others.map Axis.step)
    (sizes : SameSizes axes others) (same : ∀ tuple, InAxes axes tuple ↔ InAxes others tuple) :
    axes = others := by
  -- A tuple of the inner axes shows the indices of the first one, and its start shows the
  -- tuples of the inner ones.
  induction sizes.forall₂ with
  | nil => rfl
  | @cons axis other axes others size _ ih =>
    obtain ⟨axisValid, axesValid⟩ := allValid_cons.mp valid
    obtain ⟨otherFirst, othersValid⟩ := allValid_cons.mp otherValid
    obtain ⟨step, innerSteps⟩ := List.cons.inj steps
    obtain ⟨inner, held⟩ := exists_inAxes axesValid
    obtain ⟨otherInner, otherHeld⟩ := exists_inAxes othersValid
    have first : axis = other := by
      refine Axis.eq_of_mem_iff axisValid otherFirst step size fun index =>
        ⟨fun member => ?_, fun member => ?_⟩
      · exact (inAxes_cons.mp ((same (index :: inner)).mp (inAxes_cons.mpr ⟨member, held⟩))).1
      · exact (inAxes_cons.mp
          ((same (index :: otherInner)).mpr (inAxes_cons.mpr ⟨member, otherHeld⟩))).1
    subst first
    have start := Axis.start_mem axisValid
    have rest := ih axesValid othersValid innerSteps (sameSizes_cons.mp sizes).2 fun tuple => by
      simpa [start] using same (axis.start :: tuple)
    rw [rest]

end Overlap
