import Mathlib.Algebra.BigOperators.Group.Finset.Basic
import Mathlib.Algebra.BigOperators.Intervals
import Overlap.Proofs.Footprint.Offsets

/-! Offsets encode index tuples: an offset is a sum over the axes, and no two
elements have the same one. -/

namespace Overlap

section Sums

/-- Elements that one step along an axis passes: the product of the sizes of all axes further in. -/
def passedBy (axes : List Axis) (number : Nat) : Int :=
  -- The size of the axis itself does not enter, only those of the axes inside it.
  ((axes.drop (number + 1)).map Axis.size).prod

/-- The offset of an element as a sum over the axes, of each index times the
elements that its steps pass. -/
def offsetSum (axes : List Axis) (tuple : List Int) : Int :=
  -- Every index counts the elements that a step along its axis passes.
  ∑ number ∈ Finset.range axes.length, tuple.getD number 0 * passedBy axes number

/-- The span of axes, counted in elements, is the product of their sizes. -/
theorem Region.span_one_eq_prod (axes : List Axis) :
    Region.span 1 axes = (axes.map Axis.size).prod := by
  -- The product is built from the outside in, as the recursion is.
  induction axes with
  | nil => rfl
  | cons axis inner ih => rw [Region.span, ih, List.map_cons, List.prod_cons]

/-- The place of an element is the sum over its axes. -/
theorem rowMajor_eq_offsetSum {axes : List Axis} {tuple : List Int} (held : InAxes axes tuple) :
    rowMajor axes tuple = offsetSum axes tuple := by
  -- The outermost index is the first term, and the other terms are those of the axes further in.
  induction axes generalizing tuple with
  | nil => simp [rowMajor, offsetSum]
  | cons axis inner ih =>
    cases held with
    | @cons _ index _ indices first rest =>
      -- The terms are numbered from the outside, so those further in are shifted by one.
      have inside : ∑ number ∈ Finset.range inner.length,
          (index :: indices).getD (number + 1) 0 * passedBy (axis :: inner) (number + 1) =
            offsetSum inner indices := rfl
      have outermost : (index :: indices).getD 0 0 * passedBy (axis :: inner) 0 =
          index * Region.span 1 inner := by
        rw [Region.span_one_eq_prod]
        rfl
      rw [rowMajor, ih rest]
      conv_rhs => rw [offsetSum, List.length_cons, Finset.sum_range_succ', inside, outermost]
      exact Int.add_comm _ _

end Sums

/-- Elements at one place have the same tuple, as soon as the sizes agree along
all axes but the outermost. -/
theorem rowMajor_inj_of_tails {axes others : List Axis} (valid : AllValid axes)
    (otherValid : AllValid others) (sizes : SameSizes axes.tail others.tail)
    (sized : InnerSized axes) (nonempty : axes ≠ []) (otherNonempty : others ≠ [])
    {tuple other : List Int} (held : InAxes axes tuple) (otherHeld : InAxes others other)
    (same : rowMajor axes tuple = rowMajor others other) : tuple = other := by
  obtain ⟨axis, inner, rfl⟩ := List.exists_cons_of_ne_nil nonempty
  obtain ⟨axis', inner', rfl⟩ := List.exists_cons_of_ne_nil otherNonempty
  cases held with
  | @cons _ index _ indices first rest =>
    cases otherHeld with
    | @cons _ index' _ indices' first' rest' =>
      obtain ⟨-, innerValid⟩ := allValid_cons.mp valid
      obtain ⟨-, innerValid'⟩ := allValid_cons.mp otherValid
      have innerSizes : SameSizes inner inner' := sizes
      have innerSized : Sized inner := sized
      -- The size of the outermost axis has no part in a place, so rows are
      -- equally long on both sides.
      have spans := Region.span_congr innerSizes 1
      simp only [rowMajor, ← spans] at same
      obtain ⟨low, high⟩ := rowMajor_bounds innerValid innerSized rest
      obtain ⟨low', high'⟩ := rowMajor_bounds innerValid' (innerSized.congr innerSizes) rest'
      rw [← spans] at high'
      -- The quotient tells the outermost index, and the remainder is a place further in.
      obtain ⟨rfl, places⟩ := rows_inj low high low' high' same
      rw [rowMajor_inj innerValid innerValid' innerSizes innerSized.inner rest rest' places]

namespace Region

/-- The number of elements of an array. -/
def elementCount (region : Region) : Nat :=
  -- One index is taken along each axis.
  (region.axes.map fun axis => axis.count.toNat).prod

/-- An array whose elements have known offsets, with all offsets and
strides below two to the 53rd. -/
structure Placeable (region : Region) : Prop where
  -- The conditions are on the array as a whole, and the last one on the offsets in it.
  kind : region.kind = .perAxis
  nonempty : region.axes ≠ []
  valid : AllValid region.axes
  sized : InnerSized region.axes
  strides : ModerateStrides region.axes
  offsets : ∀ tuple, InAxes region.axes tuple → offsetSum region.axes tuple < 2 ^ 53

/-- An array is placeable when the row of its last elements ends below two to the 53rd. -/
theorem placeable_of_rows {region : Region} {outer : Axis} {inner : List Axis}
    (kind : region.kind = .perAxis) (axes : region.axes = outer :: inner)
    (valid : AllValid (outer :: inner)) (sized : Sized inner)
    (small : (outer.last + 1) * span 1 inner < 2 ^ 53) : region.Placeable := by
  obtain ⟨outerValid, innerValid⟩ := allValid_cons.mp valid
  have row := span_pos Int.one_pos sized
  -- There is at least one row, so the length of a row is below the bound as well.
  have first := (Axis.mem_bounds outerValid (Axis.last_mem outerValid)).1
  have shorter :=
    Int.mul_le_mul_of_nonneg_right (show 1 ≤ outer.last + 1 by omega) (Int.le_of_lt row)
  rw [Int.one_mul] at shorter
  refine ⟨kind, axes ▸ List.cons_ne_nil outer inner, axes ▸ valid, ?_, ?_, ?_⟩
  · rw [axes]
    exact sized
  · -- Every stride counts the elements of a part of a row.
    rw [axes]
    intro part suffix
    obtain ⟨front, rfl⟩ : part <:+ inner := suffix
    have smaller := span_le_append sized
    omega
  · rw [axes]
    intro tuple held
    rw [← rowMajor_eq_offsetSum held]
    cases held with
    | @cons _ index _ indices member rest =>
      -- No element lies behind the row that the last outermost index counts.
      obtain ⟨-, high⟩ := rowMajor_bounds innerValid sized rest
      have last := Axis.le_last outerValid.2.1 member
      have rows :=
        Int.mul_le_mul_of_nonneg_right (show index + 1 ≤ outer.last + 1 by omega) (Int.le_of_lt row)
      rw [Int.add_mul, Int.one_mul] at rows
      rw [rowMajor]
      omega

namespace Placeable

variable {region other : Region}

/-- Listing the elements of a placeable array ends in one of the known ways. -/
theorem listing [Limits] (placeable : region.Placeable) :
    Listing region.axes 1 region.elementOffsets := by
  apply elementOffsets_listing placeable.kind placeable.valid placeable.strides
  -- An element counts as a single address here, which is its offset.
  intro address covered
  obtain ⟨tuple, byte, held, low, high, rfl⟩ := covered
  have below := placeable.offsets tuple held
  rw [← rowMajor_eq_offsetSum held] at below
  omega

/-- The addresses along the axes are the offsets of the elements. -/
theorem lists_addresses (placeable : region.Placeable) :
    Lists (addresses region.axes 1) fun offset =>
      ∃ tuple, InAxes region.axes tuple ∧ offset = offsetSum region.axes tuple := by
  obtain ⟨rising, mem⟩ := lists_places placeable.valid placeable.sized
  rw [addresses_one]
  refine ⟨rising, fun offset => ?_⟩
  rw [mem]
  -- Both ways to compute an offset agree for tuples of the axes.
  constructor
  · rintro ⟨tuple, held, rfl⟩
    exact ⟨tuple, held, rowMajor_eq_offsetSum held⟩
  · rintro ⟨tuple, held, rfl⟩
    exact ⟨tuple, held, (rowMajor_eq_offsetSum held).symm⟩

/-- Arrays with rows of the same sizes share an offset exactly when they share an element. -/
theorem shares_iff [Limits] (placeable : region.Placeable) (otherPlaceable : other.Placeable)
    (sizes : SameSizes region.axes.tail other.axes.tail) {offsets others : List Int}
    (listed : region.elementOffsets = .ok offsets)
    (otherListed : other.elementOffsets = .ok others) :
    (∃ offset ∈ offsets, offset ∈ others) ↔
      ∃ tuple, InAxes region.axes tuple ∧ InAxes other.axes tuple := by
  -- What was listed are the addresses on both sides.
  have found := placeable.listing
  rw [listed] at found
  cases found
  have otherFound := otherPlaceable.listing
  rw [otherListed] at otherFound
  cases otherFound
  simp only [placeable.lists_addresses.mem, otherPlaceable.lists_addresses.mem]
  constructor
  · rintro ⟨offset, ⟨tuple, held, rfl⟩, tuple', otherHeld, same⟩
    -- One offset stands for one tuple, whichever array it was found in.
    rw [← rowMajor_eq_offsetSum held, ← rowMajor_eq_offsetSum otherHeld] at same
    obtain rfl := rowMajor_inj_of_tails placeable.valid otherPlaceable.valid sizes placeable.sized
      placeable.nonempty otherPlaceable.nonempty held otherHeld same
    exact ⟨tuple, held, otherHeld⟩
  · rintro ⟨tuple, held, otherHeld⟩
    refine ⟨offsetSum region.axes tuple, ⟨tuple, held, rfl⟩, tuple, otherHeld, ?_⟩
    -- Places need the sizes of the inner axes only, and these agree.
    obtain ⟨axis, inner, axes⟩ := List.exists_cons_of_ne_nil placeable.nonempty
    obtain ⟨axis', inner', axes'⟩ := List.exists_cons_of_ne_nil otherPlaceable.nonempty
    rw [← rowMajor_eq_offsetSum held, ← rowMajor_eq_offsetSum otherHeld, axes, axes']
    rw [axes, axes'] at sizes
    have innerSizes : SameSizes inner inner' := sizes
    cases tuple with
    | nil => rfl
    | cons index indices =>
      rw [rowMajor, rowMajor, span_congr innerSizes, rowMajor_congr innerSizes]

end Placeable

/-- The elements of a placeable array are listed by their offsets, in rising order and each of them
once, as long as there are not too many axes and there is room for the list. Arrays with rows of the
same sizes then share an offset exactly when they share an element. -/
theorem elementOffsets_encode [Limits] {region : Region} (placeable : region.Placeable) :
    (region.axes.length ≤ maxAxes ∧ region.elementCount * wordBytes ≤ memoryBytes →
      ∃ offsets, region.elementOffsets = .ok offsets ∧ offsets.Pairwise (· < ·) ∧
        offsets.length = region.elementCount ∧
        ∀ offset, offset ∈ offsets ↔
          ∃ tuple, InAxes region.axes tuple ∧ offset = offsetSum region.axes tuple) ∧
    (¬ (region.axes.length ≤ maxAxes ∧ region.elementCount * wordBytes ≤ memoryBytes) →
      (region.elementOffsets = .error .tooMany ∧ maxAxes < region.axes.length) ∨
        (region.elementOffsets = .error .outOfMemory ∧
          memoryBytes < region.elementCount * wordBytes)) ∧
    ∀ other : Region, other.Placeable → SameSizes region.axes.tail other.axes.tail →
      ∀ offsets others, region.elementOffsets = .ok offsets → other.elementOffsets = .ok others →
        ((∃ offset ∈ offsets, offset ∈ others) ↔
          ∃ tuple, InAxes region.axes tuple ∧ InAxes other.axes tuple) := by
  have count : (addresses region.axes 1).length = region.elementCount := by
    rw [addresses_one, length_places, elementCount]
  refine ⟨fun within => ?_, fun exceeded => ?_,
    fun other otherPlaceable sizes offsets others listed otherListed =>
    placeable.shares_iff otherPlaceable sizes listed otherListed⟩
  · -- Within both limits nothing keeps the addresses from being listed.
    have listable : Listable region.axes 1 :=
      ⟨placeable.nonempty, placeable.sized, within.1, by rw [count]; exact within.2⟩
    obtain ⟨rising, mem⟩ := placeable.lists_addresses
    exact ⟨_, placeable.listing.eq_ok listable, rising, count, mem⟩
  · -- Every other end of the listing says which limit was exceeded.
    have listing := placeable.listing
    generalize region.elementOffsets = result at listing ⊢
    cases listing with
    | unlisted cause unsized =>
      rcases unsized with empty | unsized
      · exact absurd empty placeable.nonempty
      · exact absurd placeable.sized unsized
    | tooMany many => exact Or.inl ⟨rfl, many⟩
    | outOfMemory full => exact Or.inr ⟨rfl, count ▸ full⟩
    | listed listable => exact absurd ⟨listable.few, count ▸ listable.room⟩ exceeded

open scoped Limits

/-- Every second element of two rows is listed, and one of them belongs to a column of an array of
unknown length. An array of 65 axes with a single element is not listed. -/
theorem elementOffsets_encode_rows :
    let rows : Region := ⟨some (.name "A"), .perAxis, none, none, [⟨1, 1, 2, 4⟩, ⟨0, 2, 4, 8⟩]⟩
    let column : Region := ⟨some (.name "A"), .perAxis, none, none, [⟨2, 1, 3, 0⟩, ⟨6, 1, 1, 8⟩]⟩
    let deep : Region := ⟨some (.name "A"), .perAxis, none, none, List.replicate 65 ⟨0, 1, 1, 1⟩⟩
    (rows.elementOffsets = .ok [8, 10, 12, 14, 16, 18, 20, 22] ∧
      column.elementOffsets = .ok [22, 30, 38] ∧
      (∀ offset, offset ∈ [8, 10, 12, 14, 16, 18, 20, 22] ↔
        ∃ tuple, InAxes rows.axes tuple ∧ offset = offsetSum rows.axes tuple) ∧
      ∃ tuple, InAxes rows.axes tuple ∧ InAxes column.axes tuple) ∧
    deep.elementOffsets = .error .tooMany := by
  intro rows column deep
  -- All three arrays have their sizes, and their elements are few.
  have rowsPlaceable : rows.Placeable :=
    placeable_of_rows rfl rfl (by decide) (by decide) (by decide)
  have columnPlaceable : column.Placeable :=
    placeable_of_rows rfl rfl (by decide) (by decide) (by decide)
  have deepPlaceable : deep.Placeable :=
    placeable_of_rows rfl rfl (by decide) (by decide) (by decide)
  have rowsListed : rows.elementOffsets = .ok [8, 10, 12, 14, 16, 18, 20, 22] := by decide +kernel
  have columnListed : column.elementOffsets = .ok [22, 30, 38] := by decide +kernel
  obtain ⟨within, -, shares⟩ := elementOffsets_encode rowsPlaceable
  obtain ⟨-, exceeded, -⟩ := elementOffsets_encode deepPlaceable
  refine ⟨⟨rowsListed, columnListed, ?_, ?_⟩, ?_⟩
  · -- The list is the one that was computed, and its members are known.
    obtain ⟨offsets, listed, -, -, mem⟩ := within (by decide)
    cases rowsListed.symm.trans listed
    exact mem
  · -- An offset that is listed for both arrays belongs to a tuple that they share.
    exact (shares column columnPlaceable (by decide) _ _ rowsListed columnListed).mp
      ⟨22, by decide, by decide⟩
  · -- The single element would have room, so it is the number of axes that is too large.
    rcases exceeded (by decide) with ⟨failed, -⟩ | ⟨-, full⟩
    · exact failed
    · exact absurd full (by decide)

end Region

end Overlap
