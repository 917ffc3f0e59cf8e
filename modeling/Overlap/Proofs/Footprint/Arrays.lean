import Overlap.Proofs.Footprint.Check
import Overlap.Proofs.Footprint.Offsets
import Overlap.Proofs.Relation.Intersect

/-! Arrays that can be listed: their parts can be listed too, and
addresses are shared as tuples are. -/

namespace Overlap

/-- A way of listing that gives arrays with elements of a known size by their units. -/
def ListsArrays [Limits] (listing : Region → Except Fault (List Int)) (unit : Int)
    (upper : Option Int) : Prop :=
  -- The conditions are those under which no number is rounded or wrapped around.
  ∀ region : Region, region.kind = .perAxis → region.upper = upper → AllValid region.axes →
    ModerateStrides region.axes → (∀ address, Covers region.axes unit address → address < 2 ^ 53) →
      Listing region.axes unit (listing region)

theorem listsArrays_elementOffsets [Limits] (upper : Option Int) :
    ListsArrays Region.elementOffsets 1 upper :=
  -- Elements are one unit wide, whatever their size in bytes.
  fun _ kind _ valid strides moderate => Region.elementOffsets_listing kind valid strides moderate

theorem listsArrays_byteOffsets [Limits] {size : Int} (positive : 0 < size) :
    ListsArrays Region.byteOffsets size (some size) :=
  -- Bytes are listed once the element size is known and positive.
  fun _ kind upper valid strides moderate =>
    Region.byteOffsets_listing kind upper positive valid strides moderate

namespace Region

/-- An array whose addresses are moderate, and can be listed. -/
structure Enumerable [Limits] (region : Region) (unit : Int) (upper : Option Int) : Prop where
  -- The last condition is that there is room for the list, and the others are those of the listing.
  kind : region.kind = .perAxis
  upper : region.upper = upper
  valid : AllValid region.axes
  strides : ModerateStrides region.axes
  moderate : ∀ address, Covers region.axes unit address → address < 2 ^ 53
  listable : Listable region.axes unit

variable {listing : Region → Except Fault (List Int)} {unit : Int} {upper : Option Int}

/-- An enumerable array is listed by its addresses. -/
theorem Enumerable.lists [Limits] {region : Region} (enumerable : region.Enumerable unit upper)
    (arrays : ListsArrays listing unit upper) (positive : 0 < unit) :
    ListsBy listing region (Covers region.axes unit) :=
  -- The listing has a list for every array that can be listed, and it is that of all addresses.
  ⟨addresses region.axes unit,
    (arrays region enumerable.kind enumerable.upper enumerable.valid enumerable.strides
      enumerable.moderate).eq_ok enumerable.listable,
    lists_addresses enumerable.valid enumerable.listable.sized positive⟩

/-- Axes of the sizes of listable ones are listable themselves when all addresses are on a
list that there is room for. -/
theorem listable_of_sizes [Limits] {axes others : List Axis} (listable : Listable others unit)
    (sizes : SameSizes axes others) (valid : AllValid axes) (positive : 0 < unit)
    {numbers : List Int} {holds : Int → Prop} (lists : Lists numbers holds)
    (room : numbers.length * wordBytes ≤ memoryBytes)
    (inside : ∀ address, Covers axes unit address → holds address) : Listable axes unit := by
  -- The number of axes is the same, and no list of addresses is longer than the one with room.
  have sized : InnerSized axes := listable.sized.congr sizes.symm
  have shorter := (lists_addresses valid sized positive).length_le lists inside
  refine ⟨?_, sized, ?_, Nat.le_trans (Nat.mul_le_mul_right wordBytes shorter) room⟩
  · intro empty
    exact listable.nonempty
      (List.eq_nil_of_length_eq_zero (by simpa [empty] using sizes.length_eq.symm))
  · rw [sizes.length_eq]
    exact listable.few

/-- A part of an enumerable array is enumerable. -/
theorem Enumerable.part [Limits] {base part : Region} (enumerable : base.Enumerable unit upper)
    (positive : 0 < unit) (fragment : part.FragmentOf base)
    (inside : ∀ tuple, part.Holds tuple → base.Holds tuple) :
    part.Enumerable unit upper := by
  -- The addresses of the part are addresses of the array, so every bound on those holds for them.
  have subset : ∀ address, Covers part.axes unit address → Covers base.axes unit address := by
    intro address covered
    obtain ⟨tuple, byte, held, low, high, rfl⟩ := (covers_iff_of_sizes fragment.sizes).mp covered
    exact ⟨tuple, byte, (inside tuple ⟨fragment.kind, held⟩).2, low, high, rfl⟩
  exact
    { kind := fragment.kind
      upper := fragment.upper.trans enumerable.upper
      valid := fragment.valid
      strides := enumerable.strides.congr fragment.sizes.symm
      moderate := fun address covered => enumerable.moderate address (subset address covered)
      listable := listable_of_sizes enumerable.listable fragment.sizes fragment.valid positive
        (lists_addresses enumerable.valid enumerable.listable.sized positive)
          enumerable.listable.room subset }

/-- The shared region has the addresses that both regions have. -/
theorem Shared.covers_iff {common left right : Region} (shared : common.Shared left right)
    (comparable : left.Comparable right) (sized : InnerSized left.axes) {address : Int} :
    Covers common.axes unit address ↔
      Covers left.axes unit address ∧ Covers right.axes unit address := by
  -- With equal sizes, an address tells its tuple, and the shared tuples are the common ones.
  rw [covers_iff_of_sizes shared.fragment.sizes]
  constructor
  · intro covered
    obtain ⟨tuple, byte, held, low, high, rfl⟩ := covered
    obtain ⟨inLeft, inRight⟩ := (shared.mem tuple).mp ⟨shared.fragment.kind, held⟩
    refine ⟨⟨tuple, byte, inLeft.2, low, high, rfl⟩, ?_⟩
    exact (covers_iff_of_sizes comparable.sizes.symm).mpr ⟨tuple, byte, inRight.2, low, high, rfl⟩
  · intro both
    obtain ⟨tuple, byte, inLeft, inRight, low, high, rfl⟩ := inAxes_of_covers comparable.leftValid
      comparable.rightValid comparable.sizes sized both.1 both.2
    have held :=
      (shared.mem tuple).mpr ⟨⟨comparable.leftKind, inLeft⟩, comparable.rightKind, inRight⟩
    exact ⟨tuple, byte, held.2, low, high, rfl⟩

/-- Fragments that split the tuples outside a common part have the addresses outside it. -/
theorem covers_fragments_iff {rest : List Region} {common base : Region}
    (fragments : ∀ fragment ∈ rest, fragment.FragmentOf base)
    (splits : Splits Holds rest fun tuple => base.Holds tuple ∧ ¬ common.Holds tuple)
    (kind : base.kind = .perAxis) (commonKind : common.kind = .perAxis) (valid : AllValid base.axes)
    (sized : InnerSized base.axes) (sizes : SameSizes common.axes base.axes)
    (inside : ∀ tuple, common.Holds tuple → base.Holds tuple) (address : Int) :
    (∃ fragment ∈ rest, Covers fragment.axes unit address) ↔
      Covers base.axes unit address ∧ ¬ Covers common.axes unit address := by
  -- All regions have the sizes of the base, so one tuple has one place in all of them.
  rw [covers_iff_of_sizes sizes]
  constructor
  · intro covered
    obtain ⟨fragment, member, covered⟩ := covered
    obtain ⟨tuple, byte, inFragment, low, high, rfl⟩ :=
      (covers_iff_of_sizes (fragments fragment member).sizes).mp covered
    obtain ⟨inBase, outside⟩ :=
      splits.inside fragment member tuple ⟨(fragments fragment member).kind, inFragment⟩
    refine ⟨⟨tuple, byte, inBase.2, low, high, rfl⟩, ?_⟩
    -- An address tells its tuple, so it cannot belong to the common part as well.
    intro shared
    obtain ⟨other, rest, inCommon, restLow, restHigh, same⟩ := shared
    obtain ⟨places, -⟩ := rows_inj low high restLow restHigh same
    have otherInBase := inside other ⟨commonKind, inCommon⟩
    obtain rfl := rowMajor_inj valid valid rfl sized inBase.2 otherInBase.2 places
    exact outside ⟨commonKind, inCommon⟩
  · intro covered
    obtain ⟨⟨tuple, byte, inBase, low, high, rfl⟩, outside⟩ := covered
    have notCommon : ¬ common.Holds tuple :=
      fun inCommon => outside ⟨tuple, byte, inCommon.2, low, high, rfl⟩
    obtain ⟨fragment, member, inFragment⟩ := splits.complete tuple ⟨⟨kind, inBase⟩, notCommon⟩
    refine ⟨fragment, member, ?_⟩
    exact (covers_iff_of_sizes (fragments fragment member).sizes).mpr ⟨tuple, byte, inFragment.2,
      low, high, rfl⟩

/-- What is left of an enumerable array has the addresses outside the common part. -/
theorem Rest.remainder [Limits] {rest : List Region} {common base : Region}
    (made : Rest rest common base) (enumerable : base.Enumerable unit upper)
    (arrays : ListsArrays listing unit upper) (positive : 0 < unit) (kind : common.kind = .perAxis)
    (sizes : SameSizes common.axes base.axes)
    (inside : ∀ tuple, common.Holds tuple → base.Holds tuple) {held : Int → Prop}
    (shared : ∀ address, held address ↔ Covers common.axes unit address) :
    Remainder listing rest (Covers base.axes unit) held := by
  -- Fragments hold the tuples outside the common part, and addresses are told apart as tuples are.
  rcases made with widened | ⟨fragments, splits⟩
  · exact Or.inl ⟨base.widen, widened ▸ List.mem_cons_self, rfl⟩
  · refine Or.inr ⟨fun fragment => Covers fragment.axes unit, fun fragment member => ?_,
      fun address => ?_⟩
    · have part := enumerable.part positive (fragments fragment member) fun tuple held =>
        (splits.inside fragment member tuple held).1
      exact part.lists arrays positive
    · rw [shared]
      exact covers_fragments_iff fragments splits enumerable.kind kind enumerable.valid
        enumerable.listable.sized sizes inside address

/-- The outcome of comparing two enumerable arrays passes, for regions that have
the addresses of the arrays. -/
theorem verify_arrays [Limits] {left right array other common : Region}
    {leftRest rightRest : List Region} (comparable : array.Comparable other)
    (enumerable : array.Enumerable unit upper) (otherEnumerable : other.Enumerable unit upper)
    (way : listingFor left right = listing) (arrays : ListsArrays listing unit upper)
    (positive : 0 < unit) (leftLists : ListsBy listing left (Covers array.axes unit))
    (rightLists : ListsBy listing right (Covers other.axes unit))
    (shared : common.Shared array other) (leftMade : Rest leftRest common array)
    (rightMade : Rest rightRest common other) :
    verify left right (.exact common) (some leftRest) (some rightRest) = .ok [] := by
  -- The shared region and the fragments are parts of the arrays, so all of them are listed.
  have inside := fun tuple held => ((shared.mem tuple).mp held).1
  have otherInside := fun tuple held => ((shared.mem tuple).mp held).2
  have both : ∀ address, Covers array.axes unit address ∧ Covers other.axes unit address ↔
      Covers common.axes unit address :=
    fun address => (shared.covers_iff comparable enumerable.listable.sized).symm
  obtain ⟨numbers, listed, lists⟩ :=
    (enumerable.part positive shared.fragment inside).lists arrays positive
  have commonLists : ListsBy listing common _ :=
    ⟨numbers, listed, lists.rising, fun number => (lists.mem number).trans (both number).symm⟩
  exact verify_eq_ok way leftLists rightLists commonLists
    (leftMade.remainder enumerable arrays positive shared.fragment.kind shared.fragment.sizes
      inside both)
    (rightMade.remainder otherEnumerable arrays positive shared.fragment.kind
      (shared.fragment.sizes.trans comparable.sizes) otherInside both)

end Region

end Overlap
