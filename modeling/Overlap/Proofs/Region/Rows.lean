import Overlap.Proofs.Region.Reshape
import Overlap.Proofs.Relation.Exchange

/-! Which byte intervals are expressed by the axes of an array: intervals of whole rows, and
intervals inside a single row. A single row that is covered from end to end is taken for whole rows,
and then the axes further out must be covered too. -/

namespace Overlap

/-- The tuple has one position along each axis, where an axis of unknown size has no last one. -/
def Positions (axes : List Axis) (tuple : List Int) : Prop :=
  -- A size that is not known leaves the index open above.
  List.Forall₂ (fun axis index => 0 ≤ index ∧ (axis.size = 0 ∨ index < axis.size)) axes tuple

/-- The byte at an address belongs to the element at the given positions. -/
def ElementAt (axes : List Axis) (element address : Int) (tuple : List Int) : Prop :=
  -- The byte belongs to the element, and the element lies inside the array.
  Positions axes tuple ∧ ∃ byte, 0 ≤ byte ∧ byte < element ∧
    address = rowMajor axes tuple * element + byte

/-- Two bytes have the same position along every axis but the innermost one. -/
def SameRow (axes : List Axis) (element first last : Int) : Prop :=
  -- The two elements differ along the innermost axis only.
  ∃ row index other, ElementAt axes element first (row ++ [index]) ∧
    ElementAt axes element last (row ++ [other])

/-- An interval starts and ends where an index along the outermost axis does. -/
def WholeRows (axes : List Axis) (element low high : Int) : Prop :=
  -- One step along the outermost axis passes one such row.
  Region.span element axes.tail ∣ low ∧ Region.span element axes.tail ∣ high

/-- Whole rows are recognised by two divisions. -/
instance (axes : List Axis) (element low high : Int) :
    Decidable (WholeRows axes element low high) :=
  -- Divisibility of integers can be decided.
  inferInstanceAs (Decidable (_ ∧ _))

/-- Bytes of one row along the innermost axis. -/
def rowBytes (element : Int) (axes : List Axis) : Int :=
  -- Without axes this is a single element.
  Region.span element axes.getLast?.toList

/-- Positions along axes of known sizes lead to a place inside the array. -/
theorem Positions.bounds {axes : List Axis} {tuple : List Int} (positions : Positions axes tuple)
    (sized : Sized axes) :
    0 ≤ rowMajor axes tuple ∧ rowMajor axes tuple < Region.span 1 axes := by
  -- Positions are indices of axes that have them all.
  let wholes := axes.map fun axis => (⟨0, 1, axis.size, axis.size⟩ : Axis)
  have sizes : SameSizes wholes axes := by simp [wholes, SameSizes, Function.comp_def]
  have valid : AllValid wholes := by
    intro whole member
    obtain ⟨axis, inAxes, rfl⟩ := List.mem_map.mp member
    have := sized axis inAxes
    simp only [Axis.Valid, Axis.last]
    omega
  have held : InAxes wholes tuple := by
    refine List.forall₂_map_left_iff.mpr ?_
    refine List.Forall₂.imp ?_ ((List.forall₂_and_left axes tuple).mpr ⟨sized, positions⟩)
    intro axis index inside
    exact Axis.mem_interval.mpr (by omega)
  -- Places depend on the sizes only.
  have inside := rowMajor_bounds valid (sized.congr sizes.symm) held
  rwa [rowMajor_congr sizes, Region.span_congr sizes] at inside

/-- An element of an array of known sizes lies inside the array. -/
theorem ElementAt.bounds {axes : List Axis} {element address : Int} {tuple : List Int}
    (found : ElementAt axes element address tuple) (positive : 0 < element) (sized : Sized axes) :
    0 ≤ address ∧ address < Region.span element axes := by
  obtain ⟨positions, byte, low, high, rfl⟩ := found
  obtain ⟨first, last⟩ := positions.bounds sized
  -- The last byte of the last element is the last one of the array.
  have lower := Int.mul_nonneg first (Int.le_of_lt positive)
  have upper :=
    Int.mul_le_mul_of_nonneg_right (show rowMajor axes tuple + 1 ≤ Region.span 1 axes by omega)
    (Int.le_of_lt positive)
  rw [Int.add_mul, Int.one_mul, ← Region.span_eq_mul] at upper
  omega

namespace Region

/-- The offset lies inside an array, which has no end if the size of its
outermost axis is not known. -/
structure InArray (element : Int) (axis : Axis) (inner : List Axis) (offset : Int) : Prop where
  -- The size of the outermost axis bounds the offset only where it is known.
  nonneg : 0 ≤ offset
  below : axis.size = 0 ∨ offset < axis.size * span element inner

section Offset

variable {element offset : Int} {axis next : Axis} {inner : List Axis}

/-- Quotients by the bytes of one step are the positions along the outermost axis. -/
theorem InArray.position (inArray : InArray element axis inner offset)
    (unit : 0 < span element inner) :
    0 ≤ offset / span element inner ∧ (axis.size = 0 ∨ offset / span element inner < axis.size) :=
  -- The index is the number of whole rows in front of the byte.
  ⟨Int.ediv_nonneg inArray.nonneg (Int.le_of_lt unit),
    inArray.below.imp_right fun below => (Int.ediv_lt_iff_lt_mul unit).mpr below⟩

/-- Remainders by the bytes of one step lie inside the array of the inner axes. -/
theorem InArray.remainder (unit : 0 < span element (next :: inner)) :
    InArray element next inner (offset % span element (next :: inner)) :=
  -- The remainder always lies inside of a single row.
  ⟨(emod_bounds offset unit).1, Or.inr (emod_bounds offset unit).2⟩

/-- The first position of an element is the quotient of its address by the bytes of one step, and
the others are those of the remainder. -/
theorem elementAt_cons {index : Int} {indices : List Int} (positive : 0 < element)
    (sized : Sized inner) :
    ElementAt (axis :: inner) element offset (index :: indices) ↔
      (0 ≤ index ∧ (axis.size = 0 ∨ index < axis.size)) ∧ index = offset / span element inner ∧
        ElementAt inner element (offset % span element inner) indices := by
  have unit := span_pos positive sized
  -- A step along the first axis passes all bytes of the inner axes.
  have shifted : ∀ byte, rowMajor (axis :: inner) (index :: indices) * element + byte =
      rowMajor inner indices * element + byte + span element inner * index := by
    intro byte
    rw [rowMajor, span_eq_mul element]
    ring
  constructor
  · intro found
    obtain ⟨positions, byte, low, high, rfl⟩ := found
    obtain ⟨first, others⟩ := List.forall₂_cons.mp positions
    -- The inner place is less than the bytes of one step.
    have rest : ElementAt inner element (rowMajor inner indices * element + byte) indices :=
      ⟨others, byte, low, high, rfl⟩
    obtain ⟨restLow, restHigh⟩ := rest.bounds positive sized
    rw [shifted, Int.add_mul_ediv_left _ _ (Int.ne_of_gt unit), Int.add_mul_emod_self_left,
      Int.ediv_eq_zero_of_lt restLow restHigh, Int.emod_eq_of_lt restLow restHigh, Int.zero_add]
    exact ⟨first, rfl, rest⟩
  · -- Quotient and remainder make up the address again.
    intro found
    obtain ⟨first, rfl, others, byte, low, high, place⟩ := found
    refine ⟨List.forall₂_cons.mpr ⟨first, others⟩, byte, low, high, ?_⟩
    rw [shifted, ← place]
    exact (Int.emod_add_mul_ediv offset _).symm

/-- Along a single axis, every byte of the array belongs to an element. -/
theorem elementAt_axis (positive : 0 < element) (inArray : InArray element axis [] offset) :
    ElementAt [axis] element offset [offset / element] := by
  -- Along a single axis, the index is the number of elements in front of the byte.
  refine (elementAt_cons positive (by simp [Sized])).mpr ⟨inArray.position positive, rfl,
    List.Forall₂.nil, ?_⟩
  exact ⟨offset % element, (emod_bounds offset positive).1,
    (emod_bounds offset positive).2, by simp [rowMajor, span]⟩

end Offset

section Interval

variable {element low last : Int} {axis next : Axis} {inner : List Axis}

/-- Bytes lie in one row when they agree in the first position and lie in one row behind it. -/
theorem sameRow_cons (positive : 0 < element) (sized : Sized (next :: inner))
    (lowIn : InArray element axis (next :: inner) low)
    (lastIn : InArray element axis (next :: inner) last) :
    SameRow (axis :: next :: inner) element low last ↔
      low / span element (next :: inner) = last / span element (next :: inner) ∧
        SameRow (next :: inner) element (low % span element (next :: inner))
          (last % span element (next :: inner)) := by
  have unit := span_pos positive sized
  constructor
  · -- The positions in front of the innermost one are shared.
    intro sameRow
    obtain ⟨row, index, other, lowAt, lastAt⟩ := sameRow
    cases row with
    | nil =>
      -- Two axes need two positions.
      have short := lowAt.1.length_eq
      simp at short
    | cons first row =>
      obtain ⟨-, lowFirst, lowRest⟩ := (elementAt_cons positive sized).mp lowAt
      obtain ⟨-, lastFirst, lastRest⟩ := (elementAt_cons positive sized).mp lastAt
      exact ⟨lowFirst.symm.trans lastFirst, row, index, other, lowRest, lastRest⟩
  · intro agree
    -- The shared row is put in front of the two positions.
    obtain ⟨first, row, index, other, lowRest, lastRest⟩ := agree
    refine ⟨low / span element (next :: inner) :: row, index, other, ?_, ?_⟩
    · exact (elementAt_cons positive sized).mpr ⟨lowIn.position unit, rfl, lowRest⟩
    · exact (elementAt_cons positive sized).mpr ⟨first ▸ lastIn.position unit, first, lastRest⟩

/-- What is reached along the outermost axis are the quotients by the bytes of one step, and further
in what the remainders reach. -/
theorem extents_cons (positive : 0 < element) (sized : Sized inner)
    (lowIn : InArray element axis inner low) (lastIn : InArray element axis inner last) :
    extents element low last (axis :: inner) =
      ⟨low / span element inner, last / span element inner, axis⟩ ::
        extents element (low % span element inner) (last % span element inner) inner := by
  -- Along the outermost axis nothing wraps around, and the inner ones see the remainder only.
  have unit := span_pos positive sized
  rw [extents, axisIndex_eq unit lowIn.nonneg lowIn.below,
    axisIndex_eq unit lastIn.nonneg lastIn.below, extents_emod positive sized (Int.dvd_refl _)]

/-- An offset at the end of a number of rows lies at the end of the last one of them. -/
theorem index_of_end {unit rows offset : Int} (positive : 0 < unit)
    (ends : offset + 1 = unit * rows) :
    offset / unit = rows - 1 ∧ offset % unit = unit - 1 := by
  -- The last byte of so many rows is the last one of the last row.
  rw [show offset = unit - 1 + unit * (rows - 1) by linarith]
  constructor
  · rw [Int.add_mul_ediv_left _ _ (Int.ne_of_gt positive),
      Int.ediv_eq_zero_of_lt (by omega) (by omega), Int.zero_add]
  · rw [Int.add_mul_emod_self_left, Int.emod_eq_of_lt (by omega) (by omega)]

/-- Both ends of an interval lie in one row exactly when a single position is reached along every
axis but the innermost one. -/
theorem single_iff_sameRow (positive : 0 < element) (sized : Sized inner)
    (lowIn : InArray element axis inner low) (lastIn : InArray element axis inner last) :
    (∀ extent ∈ (extents element low last (axis :: inner)).dropLast, extent.Single) ↔
      SameRow (axis :: inner) element low last := by
  -- From the outside in, both sides ask for equal quotients and go on with the remainders.
  induction inner generalizing axis low last with
  | nil =>
    -- Along a single axis nothing is asked for.
    have row : SameRow [axis] element low last :=
      ⟨[], _, _, elementAt_axis positive lowIn, elementAt_axis positive lastIn⟩
    simp [extents, row]
  | cons next inner ih =>
    have unit := span_pos positive sized
    rw [extents_cons positive sized lowIn lastIn, List.dropLast_cons_of_ne_nil (by simp [extents]),
      List.forall_mem_cons, sameRow_cons positive sized lowIn lastIn,
      ih (sized_cons.mp sized).2 (InArray.remainder unit) (InArray.remainder unit)]
    rfl

/-- An interval of elements inside a row reaches all of the innermost axis exactly
when it is as long as a row. -/
theorem full_iff_rowBytes (positive : 0 < element) (sized : Sized inner)
    (lowIn : InArray element axis inner low) (lastIn : InArray element axis inner last)
    (ordered : low ≤ last) (lowWhole : element ∣ low + 0) (lastWhole : element ∣ last + 1)
    (row : ∀ extent ∈ (extents element low last (axis :: inner)).dropLast, extent.Single)
    {innermost : Extent}
    (isLast : (extents element low last (axis :: inner)).getLast? = some innermost) :
    innermost.Full ↔ last + 1 - low = rowBytes element (axis :: inner) := by
  -- Going into the row moves both ends alike, so only the innermost axis counts.
  induction inner generalizing axis low last with
  | nil =>
    -- Counted in elements, the interval goes from one number to another, and an axis of known
    -- size does not end before.
    obtain ⟨first, lowIs⟩ := lowWhole
    obtain ⟨stop, lastIs⟩ := lastWhole
    have lowIndex : low / element = first := by
      rw [← Int.add_zero low, lowIs, Int.mul_ediv_cancel_left _ (Int.ne_of_gt positive)]
    have lastIndex : last / element = stop - 1 := (index_of_end positive lastIs).1
    have order : first ≤ stop - 1 := by
      rw [← lowIndex, ← lastIndex]
      exact Int.ediv_le_ediv positive ordered
    have start := (lowIn.position positive).1
    have reach := (lastIn.position positive).2
    simp only [span, lowIndex, lastIndex] at start reach
    rw [extents_cons positive (by simp [Sized]) lowIn lastIn, extents, List.getLast?_singleton,
      Option.some.injEq] at isLast
    subst isLast
    have length : last + 1 - low = axis.size * element ↔ stop - first = axis.size := by
      rw [show last + 1 - low = (stop - first) * element by linarith]
      exact mul_left_inj' (Int.ne_of_gt positive)
    simp only [Extent.Full, rowBytes, List.getLast?_singleton, Option.toList_some, span, lowIndex,
      lastIndex, length]
    omega
  | cons next inner ih =>
    have unit := span_pos positive sized
    rw [extents_cons positive sized lowIn lastIn, List.dropLast_cons_of_ne_nil (by simp [extents]),
      List.forall_mem_cons] at row
    rw [extents_cons positive sized lowIn lastIn, List.getLast?_cons_of_ne_nil (by simp [extents])]
      at isLast
    -- The bytes in front of the row are the same for both ends.
    have lowIs := Int.emod_add_mul_ediv low (span element (next :: inner))
    have lastIs := Int.emod_add_mul_ediv last (span element (next :: inner))
    rw [show low / span element (next :: inner) = last / span element (next :: inner) from row.1]
      at lowIs
    have behind :=
      ih (sized_cons.mp sized).2 (InArray.remainder unit) (InArray.remainder unit) (by omega)
      (dvd_emod_add (dvd_span element _) lowWhole) (dvd_emod_add (dvd_span element _) lastWhole)
        row.2 isLast
    rw [behind, rowBytes, rowBytes, List.getLast?_cons_cons]
    omega

/-- From the first byte to the last one, every position of every axis is reached. -/
theorem full_of_ends (positive : 0 < element) {axes : List Axis} (sized : Sized axes) :
    ∀ extent ∈ extents element 0 (span element axes - 1) axes, extent.Full := by
  -- Inside every row, the remainders of both ends are the ends of the row.
  induction axes with
  | nil => simp [extents]
  | cons axis inner ih =>
    have innerSized := (sized_cons.mp sized).2
    have unit := span_pos positive innerSized
    have bytes : 0 < axis.size * span element inner := span_pos positive sized
    -- The last byte lies at the end of the last row.
    obtain ⟨lastRow, lastPlace⟩ :=
      index_of_end unit (show axis.size * span element inner - 1 + 1 =
        span element inner * axis.size by ring)
    rw [span,
      extents_cons positive innerSized ⟨Int.le_refl 0, Or.inr bytes⟩ ⟨by omega, Or.inr (by omega)⟩,
      List.forall_mem_cons, lastRow, lastPlace, Int.zero_ediv, Int.zero_emod]
    exact ⟨⟨rfl, by dsimp only; omega⟩, ih innerSized⟩

/-- An interval of elements reaches every position of all axes exactly when it starts
and ends where their rows do. -/
theorem full_iff_dvd (positive : 0 < element) (sized : Sized inner) (lowWhole : element ∣ low + 0)
    (lastWhole : element ∣ last + 1) :
    (∀ extent ∈ extents element low last inner, extent.Full) ↔
      span element inner ∣ low ∧ span element inner ∣ last + 1 := by
  have unit := span_pos positive sized
  rw [← extents_emod positive sized (Int.dvd_refl _)]
  constructor
  · -- What is reached completely is all of the array, counted inside its own rows.
    intro full
    obtain ⟨lowEnd, lastEnd, -⟩ :=
      fills_full positive sized (emod_bounds low unit) (emod_bounds last unit)
      (dvd_emod_add (dvd_span element inner) lowWhole)
        (dvd_emod_add (dvd_span element inner) lastWhole) full
    refine ⟨Int.dvd_of_emod_eq_zero lowEnd, last / span element inner + 1, ?_⟩
    have := Int.emod_add_mul_ediv last (span element inner)
    linarith
  · -- The places inside the first row and inside the last one are the ends of a row.
    intro ends
    obtain ⟨lowEnd, rows, lastEnd⟩ := ends
    rw [Int.emod_eq_zero_of_dvd lowEnd, (index_of_end unit lastEnd).2]
    exact full_of_ends positive sized

/-- The rows of an interval of elements pass the check exactly when they are whole rows, or lie
inside a single one without being as long as it. A row that is reached from end to end is taken for
whole rows, of which one is missing. -/
theorem checkRows_extents (positive : 0 < element) (sized : Sized inner)
    (lowIn : InArray element axis inner low) (lastIn : InArray element axis inner last)
    (ordered : low ≤ last) (lowWhole : element ∣ low + 0) (lastWhole : element ∣ last + 1) :
    (Extent.checkRows (extents element low last (axis :: inner)) = .ok () ↔
      WholeRows (axis :: inner) element low (last + 1) ∨
        SameRow (axis :: inner) element low last ∧
          last + 1 - low ≠ rowBytes element (axis :: inner)) ∧
    (SameRow (axis :: inner) element low last → last + 1 - low = rowBytes element (axis :: inner) →
      ¬ WholeRows (axis :: inner) element low (last + 1) →
        ∃ number, Extent.checkRows (extents element low last (axis :: inner)) =
          .error (.partlyCovered number)) := by
  -- Full extents are whole rows, and extents of one index are a single row.
  have rows : (∀ extent ∈ (extents element low last (axis :: inner)).tail, extent.Full) ↔
      WholeRows (axis :: inner) element low (last + 1) := by
    rw [extents, List.tail_cons, full_iff_dvd positive sized lowWhole lastWhole]
    rfl
  have row := single_iff_sameRow positive sized lowIn lastIn
  obtain ⟨innermost, isLast⟩ : ∃ innermost, (extents element low last (axis :: inner)).getLast? =
      some innermost :=
    Option.ne_none_iff_exists'.mp (by simp [extents])
  have length : SameRow (axis :: inner) element low last →
      (innermost.Full ↔ last + 1 - low = rowBytes element (axis :: inner)) := fun sameRow =>
    full_iff_rowBytes positive sized lowIn lastIn ordered lowWhole lastWhole
      (row.mpr sameRow) isLast
  -- The innermost extent decides which of the two shapes is looked for.
  by_cases full : innermost.Full
  · -- A full innermost extent needs full rows.
    rcases Extent.checkRows_of_full isLast full with ⟨all, passed⟩ | ⟨missing, number, refused⟩
    · have whole := rows.mp all
      exact ⟨⟨fun _ => Or.inl whole, fun _ => passed⟩, fun _ _ parted => absurd whole parted⟩
    · have parted := mt rows.mpr missing
      refine ⟨⟨fun passed => ?_, fun shape => ?_⟩, fun _ _ _ => ⟨number, refused⟩⟩
      · cases passed.symm.trans refused
      · rcases shape with whole | ⟨sameRow, shorter⟩
        · exact absurd whole parted
        · exact absurd ((length sameRow).mp full) shorter
  · -- Otherwise, it has to be the part of one row.
    have passed := Extent.checkRows_of_part isLast full
    simp only [Extent.firstFailing_eq_none_iff, decide_eq_true_eq, row] at passed
    -- Whole rows that leave a part of the innermost axis are those of a single axis.
    have whole : WholeRows (axis :: inner) element low (last + 1) →
        SameRow (axis :: inner) element low last := by
      intro whole
      cases inner with
      | nil => exact row.mp (by simp [extents])
      | cons next inner =>
        have member : innermost ∈ (extents element low last (axis :: next :: inner)).tail := by
          rw [extents, List.getLast?_cons_of_ne_nil (by simp [extents])] at isLast
          exact List.mem_of_getLast? isLast
        exact absurd (rows.mpr whole innermost member) full
    rw [passed]
    refine ⟨⟨fun sameRow => ?_, fun shape => shape.elim whole And.left⟩, fun sameRow long _ => ?_⟩
    · exact Or.inr ⟨sameRow, fun long => full ((length sameRow).mpr long)⟩
    · exact absurd ((length sameRow).mpr long) full

end Interval

section Suited

variable {array target : Region} {element low high : Int}

/-- An interval that suits an array is expressed by its axes when the rows pass the check. -/
theorem Suits.reshape_eq (suits : Suits array target element low high) :
    array.reshape target =
      (Extent.checkRows (extents element low (high - 1) array.axes)).map fun _ =>
      ⟨target.object, .perAxis, array.lower, some element,
        (extents element low (high - 1) array.axes).map Extent.toAxis⟩ := by
  -- None of the tests fails, so only the rows are left to be looked at.
  have suited : ¬ (high ≤ low ∨ low < 0 ∨ array.axes = [] ∨ element ≤ 0 ∨ low % element ≠ 0 ∨
      high % element ≠ 0) := by
    simp only [not_or, not_le, not_lt, ne_eq, not_not]
    exact ⟨suits.ordered, suits.nonneg, suits.arrayAxes, suits.positive,
      Int.emod_eq_zero_of_dvd suits.lowWhole, Int.emod_eq_zero_of_dvd suits.highWhole⟩
  have within : ¬ (span element array.axes ≠ 0 ∧ span element array.axes < high) := by
    have := suits.within
    omega
  simp only [reshape, suits.arrayKind, suits.targetKind, suits.bounds, elementSize?,
    suits.arrayUpper, if_true, if_neg suited, suits.known, if_neg within]

/-- An interval that suits an array is expressed by its axes exactly
when the rows pass the check. -/
theorem Suits.exists_reshape_iff (suits : Suits array target element low high) :
    (∃ shaped, array.reshape target = .ok shaped) ↔
      Extent.checkRows (extents element low (high - 1) array.axes) = .ok () := by
  -- The conversion succeeds exactly if the rows are accepted.
  rw [suits.reshape_eq]
  cases Extent.checkRows (extents element low (high - 1) array.axes) <;> simp [Except.map]

/-- The reason why an interval that suits an array is not expressed by its axes lies in the rows. -/
theorem Suits.reshape_ne_unsuited (suits : Suits array target element low high) :
    array.reshape target ≠ .error .unsuited := by
  rw [suits.reshape_eq, Extent.checkRows]
  -- Either test of the rows names an axis, or lets the interval pass.
  split_ifs
  · cases Extent.firstFailing (fun extent => decide extent.Full) 1 _ <;> simp [Except.map]
  · cases Extent.firstFailing (fun extent => decide extent.Single) 0 _ <;> simp [Except.map]

/-- How an interval is expressed by the axes of an array is told, unless
a number in it is too long. -/
theorem reshapeTold_eq (suited : array.reshape target ≠ .error .unsuited) :
    array.reshapeTold target =
      if Tellable false [.reshaped array target (array.reshape target)] then
        .ok (array.reshape target).toOption
      else .error .longNumber := by
  -- The result is told whether there is a shape or not.
  have told : array.reshapeTold target = do
      let _ ← tell false [.reshaped array target (array.reshape target)]
      return (array.reshape target).toOption := by
    unfold reshapeTold
    split
    · exact absurd ‹_› suited
    · rfl
  rw [told, tell_eq]
  by_cases short : Tellable false [.reshaped array target (array.reshape target)] <;>
    simp [short, Bind.bind, Except.bind, Pure.pure, Except.pure]

/-- An interval of elements is expressed by the axes of an array exactly when it consists of whole
rows, or lies inside a single row without being as long as one. A row that is covered from end to
end is refused if it is not a whole row of the outermost axis: it is taken for whole rows, of which
one is missing. The answer is told, unless a number in it is too long. -/
theorem reshape_rows (suits : Suits array target element low high) (valid : AllValid array.axes) :
    ((∃ shaped, array.reshape target = .ok shaped) ↔
      WholeRows array.axes element low high ∨
        SameRow array.axes element low (high - 1) ∧ high - low ≠ rowBytes element array.axes) ∧
    (SameRow array.axes element low (high - 1) → high - low = rowBytes element array.axes →
      ¬ WholeRows array.axes element low high →
        ∃ axis, array.reshape target = .error (.partlyCovered axis)) ∧
    array.reshapeTold target =
      if Tellable false [.reshaped array target (array.reshape target)] then
        .ok (array.reshape target).toOption
      else .error .longNumber := by
  obtain ⟨axis, inner, axes⟩ := List.exists_cons_of_ne_nil suits.arrayAxes
  obtain ⟨sized, inside⟩ := suits.inside valid axes
  have nonneg := suits.nonneg
  have ordered := suits.ordered
  -- The interval goes from one byte of the array to another, so its rows can be checked.
  obtain ⟨passes, refused⟩ := checkRows_extents suits.positive sized
    (show InArray element axis inner low from ⟨nonneg, inside.imp_right fun below => by omega⟩)
    (show InArray element axis inner (high - 1) from ⟨by omega, inside⟩) (by omega) (by simpa
      using suits.lowWhole)
    (by simpa using suits.highWhole)
  rw [← axes, Int.sub_add_cancel] at passes refused
  refine ⟨suits.exists_reshape_iff.trans passes, fun sameRow long parted => ?_,
    reshapeTold_eq suits.reshape_ne_unsuited⟩
  -- The interval is a whole row, but the axes around it are not covered to their ends.
  obtain ⟨number, missing⟩ := refused sameRow long parted
  rw [suits.reshape_eq, missing]
  exact ⟨number, rfl⟩

end Suited

/-- In two planes of three rows of four bytes, a part of a row and a plane are expressed by the
axes. The middle row of a plane has all its bytes in one row and is refused. -/
theorem reshape_rows_planes :
    let array : Region :=
      ⟨some (.name "A"), .perAxis, none, some 1, [⟨0, 1, 2, 2⟩, ⟨0, 1, 3, 3⟩, ⟨0, 1, 4, 4⟩]⟩
    let interval (low high : Int) : Region := ⟨some (.name "A"), .flat, some low, some high, []⟩
    (∃ shaped, array.reshape (interval 5 7) = .ok shaped) ∧
      (∃ shaped, array.reshape (interval 12 24) = .ok shaped) ∧
      SameRow array.axes 1 4 7 ∧
        (∃ axis, array.reshape (interval 4 8) = .error (.partlyCovered axis)) ∧
      array.reshapeTold (interval 4 8) = .ok none := by
  intro array interval
  -- Every interval of whole elements inside the array passes the first tests.
  have suits : ∀ low high, 0 ≤ low → low < high → high ≤ 24 →
      Suits array (interval low high) 1 low high := by
    intro low high nonneg ordered within
    exact ⟨rfl, rfl, by decide, rfl, rfl, nonneg, ordered, by decide, Int.one_dvd low,
      Int.one_dvd high, rfl, Or.inr within⟩
  have valid : AllValid array.axes := by decide
  -- Two elements of a row are a part of it, and the whole row is no part.
  have part : SameRow array.axes 1 5 6 :=
    ⟨[0, 1], 1, 2, ⟨by simp [Positions, array], 0, by decide⟩,
      ⟨by simp [Positions, array], 0, by decide⟩⟩
  have middle : SameRow array.axes 1 4 7 :=
    ⟨[0, 1], 0, 3, ⟨by simp [Positions, array], 0, by decide⟩,
      ⟨by simp [Positions, array], 0, by decide⟩⟩
  obtain ⟨inside, -, -⟩ := reshape_rows (suits 5 7 (by decide) (by decide) (by decide)) valid
  obtain ⟨plane, -, -⟩ := reshape_rows (suits 12 24 (by decide) (by decide) (by decide)) valid
  -- A row in the middle of a plane is covered completely, but its plane is not.
  obtain ⟨-, refused, told⟩ := reshape_rows (suits 4 8 (by decide) (by decide) (by decide)) valid
  have short : Tellable false [.reshaped array (interval 4 8) (array.reshape (interval 4 8))] := by
    decide +kernel
  obtain ⟨axis, missing⟩ := refused middle (by decide) (by decide)
  refine ⟨inside.mpr (Or.inr ⟨part, by decide⟩), plane.mpr (Or.inl (by decide)), middle,
    ⟨axis, missing⟩, ?_⟩
  rw [told, if_pos short, missing]
  rfl

end Region

end Overlap
