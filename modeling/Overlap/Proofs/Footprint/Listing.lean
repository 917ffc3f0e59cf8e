import Mathlib.Algebra.BigOperators.Group.List.Basic
import Overlap.Proofs.Footprint.RowMajor
import Overlap.Proofs.Footprint.Words

/-! Addresses of moderate size are listed in order, as far as there is room for them. -/

namespace Overlap

/-- The places of all elements along the axes, in order. -/
def places : List Axis → List Int
  | [] => [0]
  -- The rows follow each other, and within a row the places of the inner axes do.
  | axis :: inner => axis.toList.flatMap fun index =>
    (places inner).map fun place => index * Region.span 1 inner + place

/-- The addresses of all units of the elements along the axes, in order. -/
def addresses (axes : List Axis) (unit : Int) : List Int :=
  -- Every element has its bytes in order.
  (places axes).flatMap fun place => Axis.toList ⟨place * unit, 1, unit, 0⟩

theorem length_places (axes : List Axis) :
    (places axes).length = (axes.map fun axis => axis.count.toNat).prod := by
  -- Each index along an axis has all places of the inner ones.
  induction axes with
  | nil => rfl
  | cons axis inner ih => simp [places, ih]

theorem length_addresses (axes : List Axis) (unit : Int) :
    (addresses axes unit).length = (axes.map fun axis => axis.count.toNat).prod * unit.toNat := by
  -- Every place contributes as many addresses as the unit is wide.
  simp [addresses, length_places]

/-- The places of a list of axes are those of its tuples, and rise from element to element. -/
theorem lists_places {axes : List Axis} (valid : AllValid axes) (sized : InnerSized axes) :
    Lists (places axes) fun place => ∃ tuple, InAxes axes tuple ∧ place = rowMajor axes tuple := by
  -- The first index counts rows, and the places of one row are those of the inner axes.
  induction axes with
  | nil =>
    refine ⟨by simp [places], fun place => ?_⟩
    simp [places, rowMajor]
  | cons axis inner ih =>
    obtain ⟨axisValid, innerValid⟩ := allValid_cons.mp valid
    have innerSized : Sized inner := sized
    obtain ⟨rising, mem⟩ := ih innerValid innerSized.inner
    have indices := Axis.lists_toList axisValid.2.1
    constructor
    · -- Places inside a row rise, and stay below the places of the next row.
      rw [places, List.pairwise_flatMap]
      refine ⟨fun index _ => rising.map _ fun first second before => by omega, ?_⟩
      refine indices.rising.imp fun {first second} before place member other otherMember => ?_
      obtain ⟨rest, listed, rfl⟩ := List.mem_map.mp member
      obtain ⟨otherRest, otherListed, rfl⟩ := List.mem_map.mp otherMember
      obtain ⟨tuple, held, rfl⟩ := (mem rest).mp listed
      obtain ⟨otherTuple, otherHeld, rfl⟩ := (mem otherRest).mp otherListed
      obtain ⟨-, high⟩ := rowMajor_bounds innerValid innerSized held
      obtain ⟨low, -⟩ := rowMajor_bounds innerValid innerSized otherHeld
      have rows := Int.mul_le_mul_of_nonneg_right (show first + 1 ≤ second by omega)
        (Int.le_of_lt (Region.span_pos Int.one_pos innerSized))
      linarith
    · intro place
      -- A place is a row and a place inside of it.
      simp only [places, List.mem_flatMap, List.mem_map, mem, indices.mem]
      constructor
      · intro listed
        obtain ⟨index, inAxis, rest, ⟨tuple, held, rfl⟩, rfl⟩ := listed
        exact ⟨index :: tuple, inAxes_cons.mpr ⟨inAxis, held⟩, rfl⟩
      · intro held
        obtain ⟨tuple, held, rfl⟩ := held
        cases held with
        | cons inAxis others => exact ⟨_, inAxis, _, ⟨_, others, rfl⟩, rfl⟩

/-- The addresses along a list of axes are those of its elements. -/
theorem lists_addresses {axes : List Axis} (valid : AllValid axes) (sized : InnerSized axes)
    {unit : Int} (positive : 0 < unit) : Lists (addresses axes unit) (Covers axes unit) := by
  -- The units of one element are an interval, and elements follow each other without overlapping.
  obtain ⟨rising, mem⟩ := lists_places valid sized
  have units : ∀ place, Lists (Axis.toList ⟨place * unit, 1, unit, 0⟩) _ :=
    fun place => Axis.lists_toList Int.one_pos
  constructor
  · rw [addresses, List.pairwise_flatMap]
    refine ⟨fun place _ => (units place).rising,
      rising.imp fun {first second} before address member other later => ?_⟩
    -- All units of an element come before those of the next one.
    obtain ⟨-, high⟩ := Axis.mem_interval.mp (((units first).mem address).mp member)
    obtain ⟨low, -⟩ := Axis.mem_interval.mp (((units second).mem other).mp later)
    have :=
      Int.mul_le_mul_of_nonneg_right (show first + 1 ≤ second by omega) (Int.le_of_lt positive)
    linarith
  · intro address
    simp only [addresses, List.mem_flatMap, mem, (units _).mem, Axis.mem_interval]
    constructor
    · intro listed
      obtain ⟨place, ⟨tuple, held, rfl⟩, low, high⟩ := listed
      exact ⟨tuple, address - rowMajor axes tuple * unit, held, by omega, by omega, by omega⟩
    · intro covered
      obtain ⟨tuple, byte, held, low, high, rfl⟩ := covered
      exact ⟨_, ⟨tuple, held, rfl⟩, by omega, by omega⟩

/-- Elements without a known size count as one address each. -/
theorem addresses_one (axes : List Axis) : addresses axes 1 = places axes := by
  -- A unit of one has a single address, which is the place itself.
  simp [addresses, Axis.toList]

/-- The steps along the axes, counted in elements. -/
def strideList : List Axis → List Int
  | [] => []
  -- The outermost size never enters.
  | _ :: inner => Region.span 1 inner :: strideList inner

/-- All strides of an array are moderate. -/
def ModerateStrides (axes : List Axis) : Prop :=
  -- The inner lists are the ends of the list, which the strides are products of.
  ∀ inner, inner <:+ axes.tail → Region.span 1 inner < 2 ^ 53

/-- Strides depend on the sizes of the axes only. -/
theorem ModerateStrides.congr {axes others : List Axis} (moderate : ModerateStrides axes)
    (sizes : SameSizes axes others) : ModerateStrides others := by
  -- Inner axes of one list correspond to inner axes of the other, and span as much.
  intro inner suffix
  obtain ⟨front, split⟩ := suffix
  have drops : SameSizes inner (axes.tail.drop front.length) := by
    have tails : SameSizes others.tail axes.tail := by
      simpa [SameSizes, List.map_tail] using congrArg List.tail sizes.symm
    have dropped := congrArg (List.drop front.length) tails
    simpa [SameSizes, ← split, List.map_drop] using dropped
  rw [Region.span_congr drops]
  exact moderate _ (List.drop_suffix _ _)

/-- Strides are found when all inner sizes are known. -/
theorem strides_cases (region : Region) {axes : List Axis} (valid : AllValid axes)
    (moderate : ModerateStrides axes) (number : Nat) :
    (¬ InnerSized axes ∧ ∃ cause, strides region number axes = .error (.unlisted cause)) ∨
      InnerSized axes ∧ strides region number axes = .ok (strideList axes) := by
  -- From the inside out, each stride is the one before times a size, as long as that is known.
  induction axes generalizing number with
  | nil => exact Or.inr ⟨by simp [InnerSized, Sized], rfl⟩
  | cons axis inner ih =>
    cases inner with
    | nil => exact Or.inr ⟨by simp [InnerSized, Sized], rfl⟩
    | cons next rest =>
      obtain ⟨-, innerValid⟩ := allValid_cons.mp valid
      have innerModerate : ModerateStrides (next :: rest) := fun inner suffix =>
        moderate inner (suffix.trans (List.suffix_cons next rest))
      rcases ih innerValid innerModerate (number + 1) with ⟨unsized, cause, refused⟩ |
        ⟨sized, found⟩
      · -- An unknown size further in is reported from there.
        refine Or.inl ⟨fun known => unsized (List.forall_mem_cons.mp known).2, cause, ?_⟩
        simp [strides, refused, Bind.bind, Except.bind]
      · by_cases unknown : next.size ≤ 0
        · -- The size of the next axis is the one that is missing.
          refine Or.inl ⟨fun known => ?_, .axisSize (number + 1) region, ?_⟩
          · have := (List.forall_mem_cons.mp known).1
            omega
          · simp [strides, found, unknown, Bind.bind, Except.bind, throw, throwThe,
              MonadExceptOf.throw]
        · -- The size is not larger than the stride that it leads to.
          have stride : next.size * Region.span 1 rest < 2 ^ 53 :=
            moderate (next :: rest) (List.suffix_refl _)
          have restSized : Sized rest := sized
          have positive := Region.span_pos Int.one_pos restSized
          have larger := Int.mul_le_mul_of_nonneg_left (show 1 ≤ Region.span 1 rest by omega)
            (show 0 ≤ next.size by omega)
          have fits : Word.Fits next.size := by
            unfold Word.Fits
            omega
          have product : Word.wrap (Region.span 1 rest * next.size) =
              Region.span 1 (next :: rest) := by
            rw [Region.span, Int.mul_comm, Word.wrap_of_fits]
            unfold Word.Fits
            omega
          refine Or.inr ⟨sized_cons.mpr ⟨by omega, restSized⟩, ?_⟩
          simp [strides, found, unknown, fits, product, strideList, Bind.bind, Except.bind,
            Pure.pure, Except.pure]

/-- Every place is moderate, and none lies before the array. -/
def ModeratePlaces (axes : List Axis) : Prop :=
  -- Nothing is rounded or wrapped around among such numbers.
  ∀ place ∈ places axes, 0 ≤ place ∧ place < 2 ^ 53

/-- What a step along an outer axis adds to a moderate place is moderate, and so
is the place inside the row. -/
theorem moderatePlaces_cons {axis : Axis} {inner : List Axis} (axisValid : axis.Valid)
    (innerValid : AllValid inner) (sized : Sized inner)
    (moderate : ModeratePlaces (axis :: inner)) :
    ModeratePlaces inner ∧ ∀ index ∈ axis, ∀ place ∈ places inner, 0 ≤ index ∧
      index ≤ index * Region.span 1 inner ∧ index * Region.span 1 inner + place < 2 ^ 53 := by
  -- Every sum is a place of the whole array, and the first row has the places of the inner axes.
  have positive := Region.span_pos Int.one_pos sized
  have inside := lists_places innerValid sized.inner
  have sums : ∀ index ∈ axis, ∀ place ∈ places inner, 0 ≤ index ∧
      index ≤ index * Region.span 1 inner ∧ index * Region.span 1 inner + place < 2 ^ 53 := by
    intro index inAxis place listed
    -- The first index is not negative, and a row has at least one place.
    have low := (Axis.mem_bounds axisValid inAxis).1
    have longer := Int.mul_le_mul_of_nonneg_left (show 1 ≤ Region.span 1 inner by omega) low
    have sum : index * Region.span 1 inner + place ∈ places (axis :: inner) :=
      List.mem_flatMap.mpr ⟨index, ((Axis.lists_toList axisValid.2.1).mem index).mpr inAxis,
        List.mem_map_of_mem listed⟩
    exact ⟨low, by omega, (moderate _ sum).2⟩
  refine ⟨fun place listed => ?_, sums⟩
  -- The first row is never empty.
  obtain ⟨tuple, held, rfl⟩ := (inside.mem place).mp listed
  have := sums axis.start (Axis.start_mem axisValid) _ listed
  exact ⟨(rowMajor_bounds innerValid sized held).1, by omega⟩

/-- Along axes with moderate places all indices are moderate. -/
theorem last_lt_of_moderatePlaces {axes : List Axis} (valid : AllValid axes)
    (sized : InnerSized axes) (moderate : ModeratePlaces axes) :
    ∀ axis ∈ axes, axis.last < 2 ^ 53 := by
  -- Each axis is the outermost one of a part of the array whose places are moderate.
  induction axes with
  | nil => simp
  | cons axis inner ih =>
    obtain ⟨axisValid, innerValid⟩ := allValid_cons.mp valid
    have innerSized : Sized inner := sized
    obtain ⟨inside, sums⟩ := moderatePlaces_cons axisValid innerValid innerSized moderate
    have deeper := innerSized.inner
    refine List.forall_mem_cons.mpr ⟨?_, ih innerValid deeper inside⟩
    -- The last index starts a row, and the place in it is not smaller.
    obtain ⟨tuple, held⟩ := exists_inAxes innerValid
    have listed := ((lists_places innerValid deeper).mem _).mpr ⟨tuple, held, rfl⟩
    have := sums axis.last (Axis.last_mem axisValid) _ listed
    have := inside _ listed
    omega

/-- Combining the listed indices gives the places, as long as these are moderate. -/
theorem combineOffsets_eq {axes : List Axis} (valid : AllValid axes) (sized : InnerSized axes)
    (moderate : ModeratePlaces axes) :
    combineOffsets (axes.map Axis.toList) (strideList axes) = places axes := by
  -- Outer indices times strides and inner sums are added as in the places.
  induction axes with
  | nil => rfl
  | cons axis inner ih =>
    obtain ⟨axisValid, innerValid⟩ := allValid_cons.mp valid
    have innerSized : Sized inner := sized
    obtain ⟨inside, sums⟩ := moderatePlaces_cons axisValid innerValid innerSized moderate
    have rest := ih innerValid innerSized.inner inside
    simp only [List.map_cons, strideList, combineOffsets, rest, places]
    -- Every sum is a place, so no word overflows.
    refine List.flatMap_congr fun index listed => List.map_congr_left fun place member => ?_
    have := sums index (((Axis.lists_toList axisValid.2.1).mem index).mp listed) place member
    have := inside place member
    rw [Word.wrap_of_fits]
    unfold Word.Fits
    omega

/-- The indices of all axes are listed, unless one axis alone has too many of them. -/
theorem mapM_wordIndices [Limits] {axes : List Axis} (valid : AllValid axes)
    (moderate : ∀ axis ∈ axes, axis.last < 2 ^ 53) :
    (∃ axis ∈ axes, memoryBytes < axis.count.toNat * wordBytes ∧
      axes.mapM Axis.wordIndices = .error .outOfMemory) ∨
      axes.mapM Axis.wordIndices = .ok (axes.map Axis.toList) := by
  -- The axes are listed from the outside in, and the first one without room ends it.
  induction axes with
  | nil => exact Or.inr rfl
  | cons axis inner ih =>
    obtain ⟨axisValid, innerValid⟩ := allValid_cons.mp valid
    obtain ⟨first, others⟩ := List.forall_mem_cons.mp moderate
    have listed := Axis.wordIndices_eq axisValid first
    by_cases full : memoryBytes < axis.count.toNat * wordBytes
    · -- This axis has no room.
      rw [if_pos full] at listed
      exact Or.inl ⟨axis, List.mem_cons_self,
        full, by simp [List.mapM_cons, listed, Bind.bind, Except.bind]⟩
    · rw [if_neg full] at listed
      rcases ih innerValid others with ⟨other, member, large, refused⟩ | all
      · -- A later axis has no room.
        refine Or.inl ⟨other, List.mem_cons_of_mem axis member, large, ?_⟩
        simp [List.mapM_cons, listed, refused, Bind.bind, Except.bind]
      · exact Or.inr
          (by simp [List.mapM_cons, listed, all, Bind.bind, Except.bind, Pure.pure, Except.pure])

/-- Choices from lists that are not empty are accepted exactly when
there is room for all of them. -/
theorem checkChoices_eq [Limits] {choices : Nat} {lengths : List Nat}
    (fits : choices * wordBytes ≤ memoryBytes) (positive : ∀ length ∈ lengths, 1 ≤ length)
    (moderate : choices * lengths.prod ≤ 2 ^ 54) :
    checkChoices choices lengths = if memoryBytes < choices * lengths.prod * wordBytes then
      .error .outOfMemory
      else .ok () := by
  -- The room for the first lists is checked first, and it is never more than that for all of them.
  induction lengths generalizing choices with
  | nil =>
    rw [List.prod_nil, Nat.mul_one, if_neg (by omega)]
    rfl
  | cons length rest ih =>
    obtain ⟨first, others⟩ := List.forall_mem_cons.mp positive
    have restPositive : 0 < rest.prod := List.prod_pos_iff_forall_pos_nat.mpr others
    rw [List.prod_cons, ← Nat.mul_assoc] at moderate ⊢
    -- More lists never take less room.
    have grows : choices * length ≤ choices * length * rest.prod :=
      Nat.le_mul_of_pos_right _ restPositive
    have bytes := Nat.mul_le_mul_right wordBytes grows
    simp only [checkChoices, Nat.max_eq_left first, checkWords_eq (Nat.le_trans grows moderate),
      Bind.bind, Except.bind]
    by_cases full : memoryBytes < choices * length * wordBytes
    · simp only [if_pos full, if_pos (Nat.lt_of_lt_of_le full bytes)]
    · simp only [if_neg full]
      exact ih (by omega) others moderate

end Overlap
