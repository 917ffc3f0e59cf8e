import Mathlib.Algebra.BigOperators.Group.List.Lemmas
import Overlap.Proofs.Footprint.Listing

/-! What becomes of listing the addresses of an array: they are listed, or
it is known what is missing. -/

namespace Overlap

/-- The addresses along axes can be listed: sizes are known, the axes are not
too many, and there is room. -/
structure Listable [Limits] (axes : List Axis) (unit : Int) : Prop where
  -- These are the conditions that the listing tests, in the order in which it does.
  nonempty : axes ≠ []
  sized : InnerSized axes
  few : axes.length ≤ maxAxes
  room : (addresses axes unit).length * wordBytes ≤ memoryBytes

/-- What becomes of listing the addresses along axes. -/
inductive Listing [Limits] (axes : List Axis) (unit : Int) : Except Fault (List Int) → Prop where
  -- Every case carries the reason why the listing ended this way.
  | unlisted (cause : Unlisted) (unsized : axes = [] ∨ ¬ InnerSized axes) :
      Listing axes unit (.error (.unlisted cause))
  | tooMany (many : maxAxes < axes.length) : Listing axes unit (.error .tooMany)
  | outOfMemory (full : memoryBytes < (addresses axes unit).length * wordBytes) :
      Listing axes unit (.error .outOfMemory)
  | listed (listable : Listable axes unit) : Listing axes unit (.ok (addresses axes unit))

/-- Addresses that can be listed are listed. -/
theorem Listing.eq_ok [Limits] {axes : List Axis} {unit : Int} {result : Except Fault (List Int)}
    (listing : Listing axes unit result) (listable : Listable axes unit) :
    result = .ok (addresses axes unit) := by
  -- Every other end contradicts one condition of being listable.
  cases listing with
  | unlisted cause unsized =>
    rcases unsized with empty | unsized
    · exact absurd empty listable.nonempty
    · exact absurd listable.sized unsized
  | tooMany many => exact absurd listable.few (Nat.not_le.mpr many)
  | outOfMemory full => exact absurd listable.room (Nat.not_le.mpr full)
  | listed => rfl

/-- Addresses below a bound leave places below it. -/
theorem moderatePlaces_of_covers {axes : List Axis} (valid : AllValid axes)
    (sized : InnerSized axes) {unit : Int} (positive : 0 < unit)
    (moderate : ∀ address, Covers axes unit address → address < 2 ^ 53) :
    ModeratePlaces axes := by
  -- Every place belongs to an element, which has a first unit.
  intro place listed
  obtain ⟨tuple, held, rfl⟩ := ((lists_places valid sized).mem place).mp listed
  have nonneg := rowMajor_nonneg valid sized held
  -- The first unit of an element has an address that is not below the place.
  have first := moderate (rowMajor axes tuple * unit) ⟨tuple, 0, held, by omega, positive, by omega⟩
  have := Int.mul_le_mul_of_nonneg_left (show 1 ≤ unit by omega) nonneg
  omega

/-- No address lies before the array. -/
theorem covers_nonneg {axes : List Axis} (valid : AllValid axes) (sized : InnerSized axes)
    {unit address : Int} (covered : Covers axes unit address) : 0 ≤ address := by
  -- Neither places nor bytes are negative.
  obtain ⟨tuple, byte, held, low, high, rfl⟩ := covered
  have := Int.mul_nonneg (rowMajor_nonneg valid sized held) (show 0 ≤ unit by omega)
  omega

/-- Moderate addresses are not too many to be counted. -/
theorem length_addresses_le {axes : List Axis} (valid : AllValid axes) (sized : InnerSized axes)
    {unit : Int} (positive : 0 < unit)
    (moderate : ∀ address, Covers axes unit address → address < 2 ^ 53) :
    (addresses axes unit).length ≤ 2 ^ 53 := by
  -- The addresses are among the numbers below the bound.
  have all : Lists (Axis.toList ⟨0, 1, 2 ^ 53, 0⟩) _ := Axis.lists_toList Int.one_pos
  have shorter := (lists_addresses valid sized positive).length_le all (by
    intro address covered
    have := moderate address covered
    have := covers_nonneg valid sized covered
    rw [Axis.mem_interval]
    omega)
  simpa using shorter

/-- The bytes of listed elements are the addresses, as long as these are moderate. -/
theorem flatMap_bytes_eq {axes : List Axis} (valid : AllValid axes) (sized : InnerSized axes)
    {size : Int} (positive : 0 < size)
    (moderate : ∀ address, Covers axes size address → address < 2 ^ 53) :
    ((addresses axes 1).flatMap fun offset => (Axis.toList ⟨0, 1, size, 0⟩).map fun byte =>
      Word.wrap (offset * size + byte)) = addresses axes size := by
  -- Both sides go through the places and, for each of them, through the bytes.
  rw [addresses_one, addresses]
  refine List.flatMap_congr fun place listed => ?_
  obtain ⟨tuple, held, rfl⟩ := ((lists_places valid sized).mem place).mp listed
  simp only [Axis.toList, List.map_map]
  refine List.map_congr_left fun byte below => ?_
  -- Every sum is an address, so no word overflows.
  have bound := List.mem_range.mp below
  have covered : Covers axes size (rowMajor axes tuple * size + byte) :=
    ⟨tuple, byte, held, by omega, by omega, rfl⟩
  have := moderate _ covered
  have := covers_nonneg valid sized covered
  simp only [Function.comp_apply, Int.zero_add, Int.one_mul]
  rw [Word.wrap_of_fits]
  unfold Word.Fits
  omega

theorem one_le_counts {axes : List Axis} (valid : AllValid axes) :
    ∀ count ∈ axes.map fun axis => axis.count.toNat, 1 ≤ count := by
  -- Well-formed axes have at least one index each.
  intro count member
  obtain ⟨axis, inAxes, rfl⟩ := List.mem_map.mp member
  have := (valid axis inAxes).2.2.1
  omega

/-- Well-formed axes hold at least one element. -/
theorem length_addresses_pos {axes : List Axis} (valid : AllValid axes) :
    0 < (addresses axes 1).length := by
  -- The number of places is a product of positive numbers.
  rw [addresses_one, length_places]
  exact List.prod_pos_iff_forall_pos_nat.mpr (one_le_counts valid)

/-- An array has as many bytes as its elements have together. -/
theorem length_addresses_eq (axes : List Axis) (size : Int) :
    (addresses axes size).length = (addresses axes 1).length * size.toNat := by
  -- The product of the counts is common to both.
  rw [addresses_one, length_places, length_addresses]

/-- Moderate bytes leave moderate elements. -/
theorem moderate_elements {axes : List Axis} {size : Int} (positive : 0 < size)
    (moderate : ∀ address, Covers axes size address → address < 2 ^ 53) :
    ∀ address, Covers axes 1 address → address < 2 ^ 53 := by
  -- The first byte of an element has an address that is not below the element.
  intro address covered
  obtain ⟨tuple, byte, held, low, high, rfl⟩ := covered
  have first := moderate (rowMajor axes tuple * size) ⟨tuple, 0, held, by omega, positive, by omega⟩
  by_cases below : rowMajor axes tuple < 0
  · omega
  · have :=
      Int.mul_le_mul_of_nonneg_left (show 1 ≤ size by omega) (show 0 ≤ rowMajor axes tuple by omega)
    omega

/-- With all checks but the last one passed, the addresses are listed if there is room for them. -/
theorem listing_of_room [Limits] {axes : List Axis} (valid : AllValid axes) (nonempty : axes ≠ [])
    (sized : InnerSized axes) (few : axes.length ≤ maxAxes) {unit : Int} (positive : 0 < unit) :
    Listing axes unit (do
      checkBytes ((addresses axes unit).length * wordBytes)
      return ascending (addresses axes unit)) := by
  -- In rising order already, the addresses stay as they are.
  unfold checkBytes
  by_cases full : memoryBytes < (addresses axes unit).length * wordBytes
  · rw [if_pos full]
    exact .outOfMemory full
  · rw [if_neg full, ascending_of_rising (lists_addresses valid sized positive).rising]
    exact .listed ⟨nonempty, sized, few, Nat.not_lt.mp full⟩

namespace Region

/-- Listing the elements along moderate axes. -/
theorem elementOffsets_listing [Limits] {region : Region} (kind : region.kind = .perAxis)
    (valid : AllValid region.axes) (moderateStrides : ModerateStrides region.axes)
    (moderate : ∀ address, Covers region.axes 1 address → address < 2 ^ 53) :
    Listing region.axes 1 region.elementOffsets := by
  -- The checks are passed one after the other: strides, indices, the number of axes, and the room.
  unfold elementOffsets
  by_cases empty : region.axes = []
  · -- A region without axes has no elements.
    simpa [kind, empty, throw, throwThe, MonadExceptOf.throw, Bind.bind, Except.bind] using
      Listing.unlisted _ (Or.inl rfl)
  · simp only [kind, empty, ne_eq, not_true_eq_false, or_self, if_false]
    rcases strides_cases region valid moderateStrides 0 with ⟨unsized, cause, refused⟩ |
      ⟨sized, found⟩
    · simpa [refused, Bind.bind, Except.bind] using Listing.unlisted cause (Or.inr unsized)
    · have bounded := moderatePlaces_of_covers valid sized Int.one_pos moderate
      have positive := one_le_counts valid
      have total := length_addresses_le valid sized Int.one_pos moderate
      rw [addresses_one, length_places] at total
      rcases mapM_wordIndices valid (last_lt_of_moderatePlaces valid sized bounded) with
        ⟨axis, member, large, refused⟩ | all
      · -- One axis alone has too many indices, and the elements are not fewer.
        have full : memoryBytes < (addresses region.axes 1).length * wordBytes := by
          rw [addresses_one, length_places]
          have fewer := Nat.le_of_dvd (List.prod_pos_iff_forall_pos_nat.mpr positive)
            (List.dvd_prod (List.mem_map_of_mem member))
          exact Nat.lt_of_lt_of_le large (Nat.mul_le_mul_right wordBytes fewer)
        simpa [found, refused, Bind.bind, Except.bind] using Listing.outOfMemory full
      · -- All indices are listed, and only their combinations have to be counted.
        have counts : (region.axes.map Axis.toList).map List.length = region.axes.map fun axis =>
            axis.count.toNat := by
          simp
        simp only [found, all, counts, Bind.bind, Except.bind]
        by_cases many : region.axes.length > maxAxes
        · simpa [many, throw, throwThe, MonadExceptOf.throw] using Listing.tooMany many
        · have one : 1 * wordBytes ≤ memoryBytes := (Nat.one_mul _).trans_le Limits.word_le_memory
          simp only [many, if_false, checkChoices_eq one positive (by omega), Nat.one_mul,
            ← length_places, ← addresses_one, combineOffsets_eq valid sized bounded]
          exact listing_of_room valid empty sized (Nat.not_lt.mp many) Int.one_pos

/-- Listing the bytes along moderate axes. -/
theorem byteOffsets_listing [Limits] {region : Region} {size : Int} (kind : region.kind = .perAxis)
    (upper : region.upper = some size) (positive : 0 < size) (valid : AllValid region.axes)
    (moderateStrides : ModerateStrides region.axes)
    (moderate : ∀ address, Covers region.axes size address → address < 2 ^ 53) :
    Listing region.axes size region.byteOffsets := by
  -- What keeps the elements from being listed keeps the bytes from it, which are not fewer.
  have product := length_addresses_eq region.axes size
  have nonempty := length_addresses_pos valid
  have known : region.elementSize? = some size := by simp [elementSize?, kind, upper]
  simp only [byteOffsets, kind, known, show ¬ size ≤ 0 by omega, if_false]
  have listing :=
    elementOffsets_listing kind valid moderateStrides (moderate_elements positive moderate)
  generalize region.elementOffsets = result at listing
  cases listing with
  -- Faults of the elements are faults of the bytes.
  | unlisted cause unsized => exact .unlisted cause unsized
  | tooMany many => exact .tooMany many
  | outOfMemory full =>
    refine .outOfMemory (Nat.lt_of_lt_of_le full (Nat.mul_le_mul_right wordBytes ?_))
    rw [product]
    exact Nat.le_mul_of_pos_right _ (by omega)
  | listed listable =>
    -- The elements have been listed, and the bytes of one element come next.
    have sized := listable.sized
    have total := length_addresses_le valid sized positive moderate
    have wider := Nat.le_mul_of_pos_left size.toNat nonempty
    have fits : Word.Fits size := by
      unfold Word.Fits
      omega
    have bytes := wordRange_interval positive (by omega) (show size ≤ 2 ^ 53 by omega)
    simp only [Int.sub_zero] at bytes
    simp only [fits, bytes, Bind.bind, Except.bind, not_true_eq_false, if_false]
    by_cases wide : memoryBytes < size.toNat * wordBytes
    · -- The bytes of one element alone take too much room.
      simp only [if_pos wide]
      refine .outOfMemory (Nat.lt_of_lt_of_le wide (Nat.mul_le_mul_right wordBytes ?_))
      rw [product]
      exact wider
    · -- One element has room, and the products are what remains.
      have one : 1 * wordBytes ≤ memoryBytes := (Nat.one_mul _).trans_le Limits.word_le_memory
      have lengths : [(addresses region.axes 1).length, (Axis.toList ⟨0, 1, size, 0⟩).length].prod =
          (addresses region.axes size).length := by
        simp [product]
      simp only [if_neg wide]
      rw [checkChoices_eq one (by simp; omega) (by rw [lengths]; omega), lengths, Nat.one_mul,
        flatMap_bytes_eq valid sized positive moderate]
      exact listing_of_room valid listable.nonempty sized listable.few positive

/-- Listing the bytes of an interval between moderate bounds. -/
theorem byteOffsets_interval [Limits] {region : Region} {low high : Int}
    (kind : region.kind = .flat) (bounds : region.bounds? = some (low, high)) (ordered : low < high)
    (lowest : -2 ^ 53 < low) (highest : high ≤ 2 ^ 53) :
    region.byteOffsets = if memoryBytes < (high - low).toNat * wordBytes then .error .outOfMemory
      else .ok (Axis.toList ⟨low, 1, high - low, 0⟩) := by
  -- An interval of small numbers is a range in steps of one.
  simp only [byteOffsets, kind, bounds]
  rw [Int.max_eq_right (Int.le_of_lt ordered), wordRange_interval ordered lowest highest]

end Region

end Overlap
