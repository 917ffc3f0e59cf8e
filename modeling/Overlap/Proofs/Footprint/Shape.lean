import Overlap.Proofs.Footprint.Routes

/-! An interval in the shape of an array has the bytes of the interval, no more and no fewer. -/

namespace Overlap

namespace Region

/-- The addresses of a shape, row by row, are those of its interval. -/
theorem Reshaped.addresses_eq {shaped array target : Region} {element low high : Int}
    (reshaped : Reshaped shaped array target element low high) :
    addresses shaped.axes element = Axis.toList ⟨low, 1, high - low, 0⟩ := by
  -- Both lists rise, and the elements of the shape cover the interval.
  have sized := reshaped.sized.congr reshaped.sizes.symm
  have bytes : Lists (Axis.toList ⟨low, 1, high - low, 0⟩) _ := Axis.lists_toList Int.one_pos
  refine (lists_addresses reshaped.fills.valid sized reshaped.positive).unique bytes fun address =>
    ?_
  rw [reshaped.fills.covers, Axis.mem_interval]
  omega

/-- A shape is listed as its interval is, if its axes are not too many and there is room. -/
theorem Reshaped.byteOffsets_eq [Limits] {shaped array target : Region} {element low high : Int}
    (reshaped : Reshaped shaped array target element low high)
    (strides : ModerateStrides array.axes) (highest : high ≤ 2 ^ 53)
    (few : array.axes.length ≤ maxAxes) (room : (high - low).toNat * wordBytes ≤ memoryBytes) :
    shaped.byteOffsets = .ok (Axis.toList ⟨low, 1, high - low, 0⟩) := by
  -- Addresses in the interval are moderate, and the shape has the strides of the array.
  have moderate : ∀ address, Covers shaped.axes element address → address < 2 ^ 53 := by
    intro address covered
    exact Int.lt_of_lt_of_le ((reshaped.fills.covers address).mp covered).2 highest
  have listing :=
    byteOffsets_listing reshaped.kind reshaped.upper reshaped.positive reshaped.fills.valid
    (strides.congr reshaped.sizes.symm) moderate
  rw [← reshaped.addresses_eq]
  apply listing.eq_ok
  -- The shape has the axes of the array, and the room of the interval.
  exact
    { nonempty := SameSizes.ne_nil reshaped.sizes reshaped.arrayAxes
      sized := reshaped.sized.congr reshaped.sizes.symm
      few := by
        rw [reshaped.sizes.length_eq]
        exact few
      room := by simpa [reshaped.addresses_eq] using room }

/-- An interval that takes the shape of an array keeps its object and its bytes, and has the element
size and the sizes of the array. Its axes are well-formed and go position by position. Where the
machine can list them, the same bytes are listed for the shape and for the interval. -/
theorem reshape_exact [Limits] {array target shaped : Region} (valid : AllValid array.axes)
    (made : array.reshapeTold target = .ok (some shaped)) :
    shaped.object = target.object ∧ shaped.kind = .perAxis ∧ shaped.upper = array.upper ∧
      SameSizes shaped.axes array.axes ∧ AllValid shaped.axes ∧
        (∀ axis ∈ shaped.axes, axis.step = 1) ∧
      ∃ low high, target.lower = some low ∧ target.upper = some high ∧
        (∀ address, shaped.Touches address ↔ low ≤ address ∧ address < high) ∧
        (ModerateStrides array.axes → high ≤ 2 ^ 53 → array.axes.length ≤ maxAxes →
          (high - low).toNat * wordBytes ≤ memoryBytes →
          shaped.byteOffsets = .ok (Axis.toList ⟨low, 1, high - low, 0⟩) ∧
            target.byteOffsets = shaped.byteOffsets) := by
  -- The shape that was told is the one that was found, and it fills the interval.
  obtain ⟨reshape, -⟩ := reshape_of_reshapeTold made
  obtain ⟨element, low, high, reshaped⟩ := reshaped_of_reshape valid reshape
  obtain ⟨lower, upper⟩ := bounds?_eq_some_iff.mp reshaped.bounds
  refine ⟨reshaped.object, reshaped.kind, reshaped.upper.trans reshaped.arrayUpper.symm,
    reshaped.sizes, reshaped.fills.valid, ?_, low, high, lower, upper, ?_, ?_⟩
  · -- The steps are found for all axes at once.
    intro axis member
    have step := List.mem_map_of_mem (f := Axis.step) member
    rw [steps_of_reshape reshape] at step
    obtain ⟨_, -, one⟩ := List.mem_map.mp step
    exact one.symm
  · -- The bytes of the interval are those between its bounds.
    intro address
    rw [reshaped.touches_iff, touches_flat_iff reshaped.targetKind reshaped.bounds]
  · -- Interval and shape are listed separately, with the same result.
    intro strides highest few room
    have listed := reshaped.byteOffsets_eq strides highest few room
    have nonneg := reshaped.nonneg
    have interval :=
      byteOffsets_interval reshaped.targetKind reshaped.bounds reshaped.ordered (by omega) highest
    rw [if_neg (Nat.not_lt.mpr room)] at interval
    exact ⟨listed, interval.trans listed.symm⟩

open scoped Limits

/-- A part of one row in an array of unknown length, and two blocks of whole rows in it. -/
theorem reshape_exact_rows :
    let array : Region :=
      ⟨some (.name "B"), .perAxis, none, some 4, [⟨0, 1, 3, 0⟩, ⟨0, 3, 2, 4⟩, ⟨0, 1, 5, 5⟩]⟩
    let interval (low high : Int) : Region := ⟨some (.name "A"), .flat, some low, some high, []⟩
    let shape (axes : List Axis) : Region := ⟨some (.name "A"), .perAxis, none, some 4, axes⟩
    let part := shape [⟨1, 1, 1, 0⟩, ⟨1, 1, 1, 4⟩, ⟨2, 1, 2, 5⟩]
    let blocks := shape [⟨1, 1, 2, 0⟩, ⟨0, 1, 4, 4⟩, ⟨0, 1, 5, 5⟩]
    array.reshapeTold (interval 108 116) = .ok (some part) ∧
      (∀ address, part.Touches address ↔ 108 ≤ address ∧ address < 116) ∧
      array.reshapeTold (interval 80 240) = .ok (some blocks) ∧
      ∀ address, blocks.Touches address ↔ 80 ≤ address ∧ address < 240 := by
  -- The shapes are computed, and the theorem tells their bytes.
  intro array interval shape part blocks
  have partMade : array.reshapeTold (interval 108 116) = .ok (some part) := by decide +kernel
  have blocksMade : array.reshapeTold (interval 80 240) = .ok (some blocks) := by decide +kernel
  refine ⟨partMade, ?_, blocksMade, ?_⟩
  · -- The part lies within one row.
    obtain ⟨-, -, -, -, -, -, low, high, lower, upper, bytes, -⟩ :=
      reshape_exact (by decide) partMade
    obtain rfl := Option.some.inj lower
    obtain rfl := Option.some.inj upper
    exact bytes
  · -- The blocks are whole, with all of their rows.
    obtain ⟨-, -, -, -, -, -, low, high, lower, upper, bytes, -⟩ :=
      reshape_exact (by decide) blocksMade
    obtain rfl := Option.some.inj lower
    obtain rfl := Option.some.inj upper
    exact bytes

end Region

end Overlap
