import Mathlib.Tactic.Linarith
import Overlap.Proofs.Footprint.RowMajor

/-! A byte interval that is expressed axis by axis keeps its bytes. -/

namespace Overlap

namespace Extent

/-- No extent but the innermost fails a test when the first one passes and no other one fails. -/
theorem firstFailing_cons {passes : Extent → Bool} {number : Nat} {extent next : Extent}
    {rest : List Extent} :
    firstFailing passes number (extent :: next :: rest) = none ↔
      passes extent = true ∧ firstFailing passes (number + 1) (next :: rest) = none := by
  -- The first extent is tested, and the others are numbered from there.
  rw [firstFailing]
  split <;> simp_all

/-- When the innermost extent passes as well, all of them do. -/
theorem passes_of_firstFailing {passes : Extent → Bool} {number : Nat} {extents : List Extent}
    (none : firstFailing passes number extents = none)
    (innermost : ∀ extent, extents.getLast? = some extent → passes extent = true) :
    ∀ extent ∈ extents, passes extent = true := by
  -- The test skips the innermost extent only.
  induction extents generalizing number with
  | nil => simp
  | cons extent rest ih =>
    cases rest with
    | nil => simpa using innermost
    | cons next rest =>
      obtain ⟨first, others⟩ := firstFailing_cons.mp none
      have inner := ih others (by simpa [List.getLast?_cons_cons] using innermost)
      intro other member
      rcases List.mem_cons.mp member with same | member
      · rw [same]
        exact first
      · exact inner other member

/-- No extent fails a test exactly when all but the innermost pass it. -/
theorem firstFailing_eq_none_iff {passes : Extent → Bool} {number : Nat} {extents : List Extent} :
    firstFailing passes number extents = none ↔
      ∀ extent ∈ extents.dropLast, passes extent = true := by
  -- The innermost extent is left out by the definition, and by dropping the last one.
  induction extents generalizing number with
  | nil => simp [firstFailing]
  | cons extent rest ih =>
    cases rest with
    | nil => simp [firstFailing]
    | cons next rest => rw [firstFailing_cons, ih, List.dropLast_cons_cons, List.forall_mem_cons]

section Check

variable {extents : List Extent} {innermost : Extent} (isLast : extents.getLast? = some innermost)

include isLast

/-- When all of the innermost axis is reached, the inner axes further out
must be reached completely too. -/
theorem checkRows_of_full (full : innermost.Full) :
    ((∀ extent ∈ extents.tail, extent.Full) ∧ checkRows extents = .ok ()) ∨
      (¬ ∀ extent ∈ extents.tail, extent.Full) ∧
        ∃ axis, checkRows extents = .error (.partlyCovered axis) := by
  -- The innermost extent, which is not tested again, is known to be full.
  have innermostFull : ∀ extent, extents.tail.getLast? = some extent →
      decide extent.Full = true := by
    intro extent tailLast
    rw [List.getLast?_tail, isLast] at tailLast
    split at tailLast
    · simp at tailLast
    · simpa [← Option.some.inj tailLast] using full
  simp only [checkRows, isLast, full, decide_true, if_true]
  cases failing : firstFailing (fun extent => decide extent.Full) 1 extents.tail with
  | none => exact Or.inl ⟨by simpa using passes_of_firstFailing failing innermostFull, rfl⟩
  | some axis =>
    -- If all of them were full, none would fail.
    refine Or.inr ⟨fun all => ?_, axis, rfl⟩
    have none : firstFailing (fun extent => decide extent.Full) 1 extents.tail = none :=
      firstFailing_eq_none_iff.mpr fun extent member => by
        simpa using all extent (List.dropLast_subset _ member)
    cases failing.symm.trans none

/-- When a part of the innermost axis is reached, a single row must be. -/
theorem checkRows_of_part (part : ¬ innermost.Full) :
    checkRows extents = .ok () ↔
      firstFailing (fun extent => decide extent.Single) 0 extents = none := by
  -- A part of a row is looked for, so all extents in front have to be single.
  simp only [checkRows, isLast, part, decide_false, Bool.false_eq_true, if_false]
  cases firstFailing (fun extent => decide extent.Single) 0 extents <;> simp

end Check

/-- Extents that pass the check have full rows below the outermost axis, or reach a single row. -/
theorem full_or_single_of_checkRows {extents : List Extent} (checked : checkRows extents = .ok ()) :
    (∀ extent ∈ extents.tail, extent.Full) ∨
      firstFailing (fun extent => decide extent.Single) 0 extents = none := by
  -- The innermost extent decides which of the two tests is made.
  cases isLast : extents.getLast? with
  | none => simp [List.getLast?_eq_none_iff.mp isLast]
  | some innermost =>
    by_cases full : innermost.Full
    · rcases checkRows_of_full isLast full with ⟨all, -⟩ | ⟨-, axis, refused⟩
      · exact Or.inl all
      · cases refused.symm.trans checked
    · exact Or.inr ((checkRows_of_part isLast full).mp checked)

end Extent

namespace Region

/-- Along an axis of known size whose rows take the bytes of one step, the index is a
quotient of the place in the axis. -/
theorem axisIndex_eq {offset size unit : Int} (positive : 0 < unit) (low : 0 ≤ offset)
    (high : size = 0 ∨ offset < size * unit) :
    axisIndex offset (size * unit) unit = offset / unit := by
  -- An offset inside the axis is its own remainder.
  unfold axisIndex
  rw [Int.fdiv_eq_ediv_of_nonneg _ (Int.le_of_lt positive),
    Int.fdiv_eq_ediv_of_nonneg _ (Int.le_of_lt positive)]
  split
  · rename_i known
    rcases high with unknown | inside
    · simp [unknown] at known
    · rw [Int.emod_eq_of_lt low inside]
  · rfl

/-- The element size divides the bytes of an array. -/
theorem dvd_span (element : Int) (axes : List Axis) : element ∣ span element axes :=
  -- The span counts whole elements.
  ⟨span 1 axes, by rw [span_eq_mul]; ring⟩

/-- What is reached along axes of known sizes depends only on the place in the array. -/
theorem extents_emod {element low last bytes : Int} (positive : 0 < element) {axes : List Axis}
    (sized : Sized axes) (whole : span element axes ∣ bytes) :
    extents element (low % bytes) (last % bytes) axes = extents element low last axes := by
  induction axes generalizing low last bytes with
  | nil => rfl
  | cons axis inner ih =>
    -- The bytes of an axis repeat inside every axis further out.
    have covered : 0 < axis.size * span element inner := span_pos positive sized
    have divides : axis.size * span element inner ∣ bytes := whole
    simp only [extents, axisIndex, gt_iff_lt, if_pos covered, Int.emod_emod_of_dvd _ divides]
    rw [ih (sized_cons.mp sized).2 (Int.dvd_trans (Int.dvd_mul_left ..) divides)]

/-- The axes of the extents have the sizes of the array. -/
theorem extents_sizes (element low last : Int) (axes : List Axis) :
    SameSizes ((extents element low last axes).map Extent.toAxis) axes := by
  -- Every extent keeps the size of its axis.
  induction axes with
  | nil => rfl
  | cons axis inner ih => exact sameSizes_cons.mpr ⟨rfl, ih⟩

/-- Well-formed axes whose elements take the bytes from one address up to another one. -/
structure Fills (axes : List Axis) (element low high : Int) : Prop where
  -- The axes hold the bytes of the interval, and no others.
  valid : AllValid axes
  covers : ∀ address, Covers axes element address ↔ low ≤ address ∧ address < high

/-- The indices at both ends of an interval inside an axis make a well-formed axis. -/
theorem toAxis_valid (axis : Axis) {low last unit : Int} (positive : 0 < unit)
    (nonneg : 0 ≤ axis.size) (lowIn : 0 ≤ low) (ordered : low ≤ last)
    (inside : axis.size = 0 ∨ last < axis.size * unit) :
    (Extent.toAxis ⟨low / unit, last / unit, axis⟩).Valid := by
  -- Quotients keep the order of the offsets.
  have first : 0 ≤ low / unit := Int.ediv_nonneg lowIn (Int.le_of_lt positive)
  have order : low / unit ≤ last / unit := Int.ediv_le_ediv positive ordered
  have bound : axis.size = 0 ∨ last / unit < axis.size :=
    inside.imp_right fun below => (Int.ediv_lt_iff_lt_mul positive).mpr below
  simp only [Axis.Valid, Extent.toAxis, Axis.last]
  omega

/-- Neighbouring rows of full length are one interval of bytes. -/
theorem fills_rows {axis : Axis} {inner : List Axis} {element low last unit : Int}
    (length : span element inner = unit) (positive : 0 < unit) (rows : Fills inner element 0 unit)
    (valid : (Extent.toAxis ⟨low / unit, last / unit, axis⟩).Valid)
    (lowEnd : low % unit = 0) (lastEnd : last % unit + 1 = unit) :
    Fills (Extent.toAxis ⟨low / unit, last / unit, axis⟩ :: inner) element low (last + 1) := by
  -- Every row is full, so an address is a number of rows and any place inside a row.
  refine ⟨allValid_cons.mpr ⟨valid, rows.valid⟩, fun address => ?_⟩
  rw [covers_cons, length]
  have lowIs := Int.emod_add_mul_ediv low unit
  have lastIs := Int.emod_add_mul_ediv last unit
  constructor
  · intro covered
    obtain ⟨index, ⟨steps, nonneg, below, rfl⟩, rest, inRow, rfl⟩ := covered
    obtain ⟨restLow, restHigh⟩ := (rows.covers rest).mp inRow
    simp only [Extent.toAxis] at below ⊢
    have lower := Int.mul_nonneg nonneg (Int.le_of_lt positive)
    have upper :=
      Int.mul_le_mul_of_nonneg_right (show low / unit + 1 * steps ≤ last / unit by omega)
      (Int.le_of_lt positive)
    constructor <;> linarith
  · intro bounds
    -- The row of an address is its quotient by the length of a row.
    have lower : low / unit ≤ address / unit := Int.ediv_le_ediv positive bounds.1
    have upper : address / unit ≤ last / unit := Int.ediv_le_ediv positive (by omega)
    refine ⟨address / unit, ⟨address / unit - low / unit, by omega, ?_, ?_⟩, address % unit,
      (rows.covers _).mpr ⟨Int.emod_nonneg _ (by omega), Int.emod_lt_of_pos _ positive⟩, ?_⟩
    · simp only [Extent.toAxis]
      omega
    · simp only [Extent.toAxis]
      omega
    · have := Int.emod_add_mul_ediv address unit
      linarith

/-- A part of a single row is one interval of bytes. -/
theorem fills_row {axis : Axis} {inner : List Axis} {element low last unit : Int}
    (length : span element inner = unit) (row : Fills inner element (low % unit) (last % unit + 1))
    (valid : (Extent.toAxis ⟨low / unit, last / unit, axis⟩).Valid)
    (single : low / unit = last / unit) :
    Fills (Extent.toAxis ⟨low / unit, last / unit, axis⟩ :: inner) element low (last + 1) := by
  -- All addresses have the one row in common, and the inner axes hold the places in it.
  refine ⟨allValid_cons.mpr ⟨valid, row.valid⟩, fun address => ?_⟩
  rw [covers_cons, length]
  have lowIs := Int.emod_add_mul_ediv low unit
  have lastIs := Int.emod_add_mul_ediv last unit
  rw [← single] at lastIs
  constructor
  · -- There is only one row, so the index is its number.
    intro covered
    obtain ⟨index, ⟨steps, nonneg, below, rfl⟩, rest, inRow, rfl⟩ := covered
    obtain ⟨restLow, restHigh⟩ := (row.covers rest).mp inRow
    simp only [Extent.toAxis] at below ⊢
    obtain rfl : steps = 0 := by omega
    constructor <;> linarith
  · -- The place within the row is what remains of the address.
    intro bounds
    have rest : Covers inner element (address - low / unit * unit) :=
      (row.covers _).mpr ⟨by linarith, by linarith⟩
    exact ⟨low / unit, Axis.start_mem valid, _, rest, by ring⟩

/-- Places inside a row lie on the bounds of elements when the offsets do. -/
theorem dvd_emod_add {element offset shift unit : Int} (row : element ∣ unit)
    (whole : element ∣ offset + shift) :
    element ∣ offset % unit + shift := by
  -- A remainder differs from its number by whole rows.
  have place : offset % unit + shift = offset + shift - unit * (offset / unit) := by
    rw [Int.emod_def]
    ring
  rw [place]
  exact Int.dvd_sub whole (Int.dvd_mul_of_dvd_left row)

/-- The place of an offset inside a row lies in the row. -/
theorem emod_bounds (offset : Int) {unit : Int} (positive : 0 < unit) :
    0 ≤ offset % unit ∧ offset % unit < unit :=
  -- The remainder lies below the unit, whatever the sign of the offset.
  ⟨Int.emod_nonneg offset (Int.ne_of_gt positive), Int.emod_lt_of_pos offset positive⟩

/-- An interval that starts and ends with full rows takes the bytes of these rows. -/
theorem fills_above {element low last : Int} (positive : 0 < element) {axis : Axis}
    {inner : List Axis} (nonneg : 0 ≤ axis.size) (sized : Sized inner) (lowIn : 0 ≤ low)
    (ordered : low ≤ last) (inside : axis.size = 0 ∨ last < axis.size * span element inner)
    (rows : low % span element inner = 0 ∧ last % span element inner + 1 = span element inner ∧
      Fills ((extents element (low % span element inner) (last % span element inner) inner).map
        Extent.toAxis) element 0 (span element inner)) :
    Fills ((extents element low last (axis :: inner)).map Extent.toAxis) element low
      (last + 1) := by
  -- The places inside the first row and inside the last row are the ends of a row.
  have unit : 0 < span element inner := span_pos positive sized
  obtain ⟨lowEnd, lastEnd, filled⟩ := rows
  rw [extents_emod positive sized (Int.dvd_refl _)] at filled
  rw [extents, axisIndex_eq unit lowIn (inside.imp_right (Int.lt_of_le_of_lt ordered)),
    axisIndex_eq unit (Int.le_trans lowIn ordered) inside, List.map_cons]
  exact fills_rows (span_congr (extents_sizes ..) element) unit filled
    (toAxis_valid axis unit nonneg lowIn ordered inside) lowEnd lastEnd

/-- An interval of elements that reaches every position along every axis
takes all bytes of the array. -/
theorem fills_full {element low last : Int} (positive : 0 < element) {axes : List Axis}
    (sized : Sized axes) (lowIn : 0 ≤ low ∧ low < span element axes)
    (lastIn : 0 ≤ last ∧ last < span element axes) (lowWhole : element ∣ low + 0)
    (lastWhole : element ∣ last + 1)
    (full : ∀ extent ∈ extents element low last axes, extent.Full) :
    low = 0 ∧ last + 1 = span element axes ∧
      Fills ((extents element low last axes).map Extent.toAxis) element 0 (span element axes) := by
  -- From the inside out, full rows join to a full axis.
  induction axes generalizing low last with
  | nil =>
    -- Without axes there is one element, and the interval is all of it.
    have bounds := Int.le_of_dvd (by omega) lastWhole
    simp only [span] at lowIn lastIn ⊢
    refine ⟨?_, by omega, by simp [extents, AllValid], fun _ => covers_nil⟩
    exact Int.eq_zero_of_dvd_of_nonneg_of_lt lowIn.1 lowIn.2 (by simpa using lowWhole)
  | cons axis inner ih =>
    obtain ⟨size, innerSized⟩ := sized_cons.mp sized
    have unit : 0 < span element inner := span_pos positive innerSized
    obtain ⟨first, others⟩ := List.forall_mem_cons.mp full
    simp only [Extent.Full, axisIndex_eq unit lowIn.1 (Or.inr lowIn.2),
      axisIndex_eq unit lastIn.1 (Or.inr lastIn.2)] at first
    rw [← extents_emod positive innerSized (Int.dvd_refl _)] at others
    have rows := ih innerSized (emod_bounds low unit) (emod_bounds last unit)
      (dvd_emod_add (dvd_span element inner) lowWhole)
        (dvd_emod_add (dvd_span element inner) lastWhole) others
    have lowIs := Int.emod_add_mul_ediv low (span element inner)
    have lastIs := Int.emod_add_mul_ediv last (span element inner)
    -- The first row is the first of the axis and starts with it, and the last row ends it.
    have start : low = 0 := by rw [← lowIs, rows.1, first.1, Int.mul_zero, Int.zero_add]
    have reach : last + 1 = axis.size * span element inner := by
      rw [← first.2]
      linarith [rows.2.1]
    have filled :=
      fills_above positive (Int.le_of_lt size) innerSized lowIn.1 (show low ≤ last by omega)
      (Or.inr lastIn.2) rows
    exact ⟨start, reach, by simpa only [start, reach, span] using filled⟩

/-- An interval of elements that keeps to one row, up to the innermost axis, takes
the bytes between its ends. -/
theorem fills_single {element low last : Int} (positive : 0 < element) {axis : Axis}
    {inner : List Axis} {number : Nat} (nonneg : 0 ≤ axis.size) (sized : Sized inner)
    (lowIn : 0 ≤ low) (ordered : low ≤ last)
    (inside : axis.size = 0 ∨ last < axis.size * span element inner) (lowWhole : element ∣ low + 0)
    (lastWhole : element ∣ last + 1)
    (single : Extent.firstFailing (fun extent => decide extent.Single) number
      (extents element low last (axis :: inner)) = none) :
    Fills ((extents element low last (axis :: inner)).map Extent.toAxis) element low
      (last + 1) := by
  -- Each axis but the innermost keeps to one row, and the induction goes into that row.
  have lastIn : 0 ≤ last := Int.le_trans lowIn ordered
  have lowInside : axis.size = 0 ∨ low < axis.size * span element inner :=
    inside.imp_right (Int.lt_of_le_of_lt ordered)
  induction inner generalizing axis low last number with
  | nil =>
    -- A row of the innermost axis is a single element.
    have lastEnd : last % element + 1 = element := by
      have := Int.le_of_dvd (by have := Int.emod_nonneg last (show element ≠ 0 by omega); omega)
        (dvd_emod_add (Int.dvd_refl element) lastWhole)
      have := Int.emod_lt_of_pos last positive
      omega
    have lowEnd : low % element = 0 := Int.emod_eq_zero_of_dvd (by simpa using lowWhole)
    simp only [extents, span, axisIndex_eq positive lowIn lowInside,
      axisIndex_eq positive lastIn inside, List.map_cons, List.map_nil]
    exact fills_rows rfl positive ⟨by simp [AllValid], fun _ => covers_nil⟩
      (toAxis_valid axis positive nonneg lowIn ordered inside) lowEnd lastEnd
  | cons next inner ih =>
    -- Inside the row, offsets are remainders by its length.
    obtain ⟨size, innerSized⟩ := sized_cons.mp sized
    have unit : 0 < span element (next :: inner) := span_pos positive sized
    have turned : extents element low last (next :: inner) =
        extents element (low % span element (next :: inner)) (last % span element (next :: inner))
          (next :: inner) :=
      (extents_emod positive sized (Int.dvd_refl _)).symm
    obtain ⟨first, others⟩ := Extent.firstFailing_cons.mp single
    rw [axisIndex_eq unit lowIn lowInside, axisIndex_eq unit lastIn inside] at first
    have sameRow : low / span element (next :: inner) = last / span element (next :: inner) :=
      of_decide_eq_true first
    have lowIs := Int.emod_add_mul_ediv low (span element (next :: inner))
    have lastIs := Int.emod_add_mul_ediv last (span element (next :: inner))
    rw [← sameRow] at lastIs
    have row := ih (Int.le_of_lt size) innerSized (Int.emod_nonneg low (Int.ne_of_gt unit))
      (show _ ≤ last % span element (next :: inner) by omega)
        (Or.inr (Int.emod_lt_of_pos last unit))
      (dvd_emod_add (dvd_span element _) lowWhole) (dvd_emod_add (dvd_span element _) lastWhole)
      (by rw [← turned]; exact others) (Int.emod_nonneg last (Int.ne_of_gt unit))
        (Or.inr (Int.emod_lt_of_pos low unit))
    rw [extents, axisIndex_eq unit lowIn lowInside, axisIndex_eq unit lastIn inside, turned,
      List.map_cons]
    exact fills_row (span_congr (extents_sizes ..) element) row
      (toAxis_valid axis unit nonneg lowIn ordered inside) sameRow

/-- Sizes that are not negative are known when none is found to be missing. -/
theorem sized_of_lastUnsized {number : Nat} {axes : List Axis}
    (nonneg : ∀ axis ∈ axes, 0 ≤ axis.size) (none : lastUnsized number axes = none) :
    Sized axes := by
  -- No axis was found without a size, and no size is negative.
  induction axes generalizing number with
  | nil => simp [Sized]
  | cons axis inner ih =>
    obtain ⟨first, others⟩ := List.forall_mem_cons.mp nonneg
    rw [lastUnsized, Option.or_eq_none_iff] at none
    have known : axis.size ≠ 0 := by simpa using none.2
    exact sized_cons.mpr ⟨by omega, ih others none.1⟩

/-- Extents that pass the check of their rows are those of one interval of bytes. -/
theorem fills_of_checkRows {element low last : Int} (positive : 0 < element) {axis : Axis}
    {inner : List Axis} (nonneg : 0 ≤ axis.size) (sized : Sized inner) (lowIn : 0 ≤ low)
    (ordered : low ≤ last) (inside : axis.size = 0 ∨ last < axis.size * span element inner)
    (lowWhole : element ∣ low + 0) (lastWhole : element ∣ last + 1)
    (checked : Extent.checkRows (extents element low last (axis :: inner)) = .ok ()) :
    Fills ((extents element low last (axis :: inner)).map Extent.toAxis) element low
      (last + 1) := by
  -- Either all rows are full below the outermost axis, or one row holds everything.
  rcases Extent.full_or_single_of_checkRows checked with full | single
  · have unit : 0 < span element inner := span_pos positive sized
    refine fills_above positive nonneg sized lowIn ordered inside ?_
    refine fills_full positive sized (emod_bounds low unit) (emod_bounds last unit)
      (dvd_emod_add (dvd_span element inner) lowWhole)
        (dvd_emod_add (dvd_span element inner) lastWhole) ?_
    rw [extents_emod positive sized (Int.dvd_refl _)]
    exact full
  · exact fills_single positive nonneg sized lowIn ordered inside lowWhole lastWhole single

/-- An interval of elements suits an array: it has bounds that lie between elements, the sizes of
all inner axes are known, and an array of known length is not shorter. -/
structure Suits (array target : Region) (element low high : Int) : Prop where
  -- The fields are the conditions that the conversion tests, in the order of their parts.
  arrayKind : array.kind = .perAxis
  arrayUpper : array.upper = some element
  arrayAxes : array.axes ≠ []
  targetKind : target.kind = .flat
  bounds : target.bounds? = some (low, high)
  nonneg : 0 ≤ low
  ordered : low < high
  positive : 0 < element
  lowWhole : element ∣ low
  highWhole : element ∣ high
  known : lastUnsized 1 array.axes.tail = none
  within : span element array.axes = 0 ∨ high ≤ span element array.axes

/-- An interval that suits an array with well-formed axes has all inner sizes
known and ends inside the array. -/
theorem Suits.inside {array target : Region} {element low high : Int}
    (suits : Suits array target element low high) (valid : AllValid array.axes) {axis : Axis}
    {inner : List Axis} (axes : array.axes = axis :: inner) :
    Sized inner ∧ (axis.size = 0 ∨ high - 1 < axis.size * span element inner) := by
  have known := suits.known
  have within := suits.within
  rw [axes] at known within valid
  have innerValid := (allValid_cons.mp valid).2
  have sized : Sized inner :=
    sized_of_lastUnsized (fun other member => (innerValid other member).2.2.2.1) known
  refine ⟨sized, ?_⟩
  -- An array of known length reaches up to the end of the interval.
  by_cases unknown : axis.size = 0
  · exact Or.inl unknown
  · have : axis.size * span element inner ≠ 0 :=
      Int.mul_ne_zero unknown (Int.ne_of_gt (span_pos suits.positive sized))
    rcases within with empty | longer
    · exact absurd empty this
    · exact Or.inr (Int.lt_of_lt_of_le (by omega) longer)

/-- A region holds the elements of an array that take exactly the bytes of an interval. -/
structure Reshaped (shaped array target : Region) (element low high : Int) : Prop
    extends Suits array target element low high where
  -- The shape takes its object from the interval, and everything else from the array.
  object : shaped.object = target.object
  kind : shaped.kind = .perAxis
  lower : shaped.lower = array.lower
  upper : shaped.upper = some element
  sizes : SameSizes shaped.axes array.axes
  sized : InnerSized array.axes
  fills : Fills shaped.axes element low high

/-- An interval is expressed by the axes of an array that it suits,
where its rows pass the check. -/
theorem suits_of_reshape {array target shaped : Region} (made : array.reshape target = .ok shaped) :
    ∃ element low high, Suits array target element low high ∧
      Extent.checkRows (extents element low (high - 1) array.axes) = .ok () ∧
      shaped = ⟨target.object, .perAxis, array.lower, some element,
        (extents element low (high - 1) array.axes).map Extent.toAxis⟩ := by
  -- Every test on the way ends the attempt, so all of them were passed.
  unfold reshape at made
  split at made
  · rename_i low high element arrayKind targetKind bounds size
    split at made
    · simp at made
    rename_i suited
    simp only [not_or, not_le, not_lt, ne_eq, not_not] at suited
    obtain ⟨ordered, nonneg, nonempty, positive, lowWhole, highWhole⟩ := suited
    split at made
    · simp at made
    rename_i known
    dsimp only at made
    split at made
    · simp at made
    rename_i within
    -- The rows are checked last.
    cases checked : Extent.checkRows (extents element low (high - 1) array.axes) with
    | error obstacle => simp [checked, Except.map] at made
    | ok _ =>
      simp only [checked, Except.map, Except.ok.injEq] at made
      refine ⟨element, low, high, ?_, checked, made.symm⟩
      exact ⟨arrayKind, by simpa [elementSize?, arrayKind] using size, nonempty, targetKind, bounds,
        nonneg, ordered, positive, Int.dvd_of_emod_eq_zero lowWhole,
        Int.dvd_of_emod_eq_zero highWhole, known, by omega⟩
  · simp at made

/-- An interval that is expressed by the axes of an array keeps its bytes. -/
theorem reshaped_of_reshape {array target shaped : Region} (valid : AllValid array.axes)
    (made : array.reshape target = .ok shaped) :
    ∃ element low high, Reshaped shaped array target element low high := by
  -- The outermost axis need not have a size, so the array is taken apart there.
  obtain ⟨element, low, high, suits, checked, rfl⟩ := suits_of_reshape made
  obtain ⟨axis, inner, axes⟩ := List.exists_cons_of_ne_nil suits.arrayAxes
  have ordered := suits.ordered
  obtain ⟨sized, inside⟩ := suits.inside valid axes
  rw [axes] at checked valid
  have axisValid := (allValid_cons.mp valid).1
  -- The bytes that the new axes reach are those of the interval.
  have fills :=
    fills_of_checkRows suits.positive axisValid.2.2.2.1 sized suits.nonneg (by omega) inside
    (by simpa using suits.lowWhole) (by simpa using suits.highWhole) checked
  exact ⟨element, low, high,
    { suits with
      object := rfl
      kind := rfl
      lower := rfl
      upper := rfl
      sizes := extents_sizes ..
      sized := by rw [axes]; exact sized
      fills := by simpa [axes] using fills }⟩

end Region

end Overlap
