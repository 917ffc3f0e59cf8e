import Mathlib.Tactic.LinearCombination
import Mathlib.Tactic.Ring
import Overlap.Proofs.Axis.Tuples
import Overlap.Region.Reshape

/-! Elements of an array lie in rows: their places tell their index tuples apart. -/

namespace Overlap

/-- The place of an element, counted in elements from the start of its array. A step along one axis
passes all elements of the axes further in. -/
def rowMajor : List Axis → List Int → Int
  -- An index passes over whole rows of the inner axes.
  | _ :: inner, index :: indices => index * Region.span 1 inner + rowMajor inner indices
  -- Tuples and axes are equally long wherever this is used.
  | _, _ => 0

/-- Every axis has a known size. -/
def Sized (axes : List Axis) : Prop :=
  -- A size of zero stands for an unknown number of positions.
  ∀ axis ∈ axes, 0 < axis.size

/-- Every axis but the outermost has a known size. -/
def InnerSized (axes : List Axis) : Prop :=
  -- The outermost size is not needed to find a place.
  Sized axes.tail

/-- Sizes are known when each one is. -/
instance (axes : List Axis) : Decidable (Sized axes) :=
  -- Finitely many axes are looked at.
  inferInstanceAs (Decidable (∀ axis ∈ axes, 0 < axis.size))

/-- Inner sizes are known when each one is. -/
instance (axes : List Axis) : Decidable (InnerSized axes) :=
  -- The axes behind the first one are looked at.
  inferInstanceAs (Decidable (Sized axes.tail))

/-- An address is one of the bytes of an element whose indices belong to the axes. -/
def Covers (axes : List Axis) (element address : Int) : Prop :=
  -- An address is one byte of one element, at the place of its tuple.
  ∃ tuple byte, InAxes axes tuple ∧ 0 ≤ byte ∧ byte < element ∧
    address = rowMajor axes tuple * element + byte

namespace Region

/-- A byte address belongs to a region: it lies between the bounds of an interval, or is one of the
bytes of an element of an array. -/
def Touches (region : Region) (address : Int) : Prop :=
  match region.kind with
  -- With an open bound no byte is known to be touched.
  | .flat => ∃ low high, region.bounds? = some (low, high) ∧ low ≤ address ∧ address < high
  | .perAxis => ∃ size, region.upper = some size ∧ Covers region.axes size address
  -- Nothing is known of a region that was not narrowed down.
  | .whole => False

/-- The bytes of a region are known: an interval has both bounds, and an array has elements of known
size along axes whose sizes are known, up to the outermost one. -/
def Located (region : Region) : Prop :=
  match region.kind with
  -- Both bounds are needed, as an open one has no place.
  | .flat => ∃ low high, region.bounds? = some (low, high)
  | .perAxis =>
    -- Sizes place the elements, and the element size places the bytes.
    region.axes ≠ [] ∧ InnerSized region.axes ∧ ∃ size, region.upper = some size ∧ 0 < size
  | .whole => False

/-- A flat region has the bytes between its bounds. -/
theorem touches_flat_iff {region : Region} {low high : Int} (kind : region.kind = .flat)
    (bounds : region.bounds? = some (low, high)) {address : Int} :
    region.Touches address ↔ low ≤ address ∧ address < high := by
  -- The bounds are the ones that are given, so no others can be meant.
  simp only [Touches, kind, bounds, Option.some.injEq, Prod.mk.injEq]
  constructor
  · intro touched
    obtain ⟨_, _, ⟨rfl, rfl⟩, inside⟩ := touched
    exact inside
  · intro inside
    exact ⟨low, high, ⟨rfl, rfl⟩, inside⟩

/-- Both bounds of a region are the bounds that it is said to have. -/
theorem bounds?_eq_some_iff {region : Region} {low high : Int} :
    region.bounds? = some (low, high) ↔ region.lower = some low ∧ region.upper = some high := by
  -- Both fields have to be there, and each of the four cases is settled by its fields.
  unfold bounds?
  split <;> simp_all

/-- The span counts elements, each of them as many times as it has bytes. -/
theorem span_eq_mul (element : Int) (axes : List Axis) :
    span element axes = span 1 axes * element := by
  -- The element size is the innermost factor.
  induction axes with
  | nil => simp [span]
  | cons axis inner ih =>
    simp only [span, ih]
    ring

/-- Axes of the same sizes span the same bytes. -/
theorem span_congr {axes others : List Axis} (sizes : SameSizes axes others) (element : Int) :
    span element axes = span element others := by
  -- Axis by axis, the factors are equal.
  induction sizes.forall₂ with
  | nil => rfl
  | cons size _ ih => simp only [span, size, ih (sameSizes_cons.mp sizes).2]

/-- Axes of known sizes span at least one byte. -/
theorem span_pos {element : Int} (positive : 0 < element) {axes : List Axis} (sized : Sized axes) :
    0 < span element axes := by
  -- All factors are positive.
  induction axes with
  | nil => exact positive
  | cons axis inner ih =>
    obtain ⟨first, rest⟩ := List.forall_mem_cons.mp sized
    exact Int.mul_pos first (ih rest)

end Region

/-- Known sizes are a known one in front of known ones. -/
@[simp] theorem sized_cons {axis : Axis} {axes : List Axis} :
    Sized (axis :: axes) ↔ 0 < axis.size ∧ Sized axes :=
  -- This is how a property of all axes is split.
  List.forall_mem_cons

/-- Known sizes are known further in. -/
theorem Sized.inner {axes : List Axis} (sized : Sized axes) : InnerSized axes :=
  -- The axes behind the first one are among all of them.
  fun axis member => sized axis (List.mem_of_mem_tail member)

/-- A part of an array has no more elements than the array. -/
theorem Region.span_le_append {front inner : List Axis} (sized : Sized (front ++ inner)) :
    Region.span 1 inner ≤ Region.span 1 (front ++ inner) := by
  -- Every axis in front multiplies the elements by a positive size.
  induction front with
  | nil => exact Int.le_refl _
  | cons axis front ih =>
    have size : 0 < axis.size := (sized_cons.mp sized).1
    have rest : Sized (front ++ inner) := (sized_cons.mp sized).2
    have shorter := ih rest
    have larger := Int.mul_le_mul_of_nonneg_right (show 1 ≤ axis.size by omega)
      (Int.le_of_lt (Region.span_pos Int.one_pos rest))
    simp only [List.cons_append, Region.span]
    omega

/-- Axes of the same sizes have known sizes together. -/
theorem Sized.congr {axes others : List Axis} (sized : Sized axes) (sizes : SameSizes axes others) :
    Sized others := by
  -- Both lists of axes have one list of sizes.
  have known : ∀ size ∈ axes.map Axis.size, 0 < size := by simpa [Sized] using sized
  rw [show axes.map Axis.size = others.map Axis.size from sizes] at known
  simpa [Sized] using known

/-- Axes of the same sizes have known inner sizes together. -/
theorem InnerSized.congr {axes others : List Axis} (sized : InnerSized axes)
    (sizes : SameSizes axes others) :
    InnerSized others := by
  -- The sizes behind the first one agree if all of them do.
  refine Sized.congr sized ?_
  simpa [SameSizes, List.map_tail] using congrArg List.tail sizes

/-- Places along axes of known sizes lie inside the array. -/
theorem rowMajor_bounds {axes : List Axis} (valid : AllValid axes) (sized : Sized axes)
    {tuple : List Int} (held : InAxes axes tuple) :
    0 ≤ rowMajor axes tuple ∧ rowMajor axes tuple < Region.span 1 axes := by
  -- The inner place is less than a row, and the index less than the number of rows.
  induction axes generalizing tuple with
  | nil =>
    rw [inAxes_nil.mp held]
    exact ⟨Int.le_refl 0, Int.zero_lt_one⟩
  | cons axis inner ih =>
    cases held with
    | @cons _ index _ indices first rest =>
      obtain ⟨axisValid, innerValid⟩ := allValid_cons.mp valid
      obtain ⟨size, innerSized⟩ := sized_cons.mp sized
      have positive := Region.span_pos Int.zero_lt_one innerSized
      obtain ⟨low, high⟩ := ih innerValid innerSized rest
      have bounds := Axis.mem_bounds axisValid first
      simp only [rowMajor, Region.span]
      -- The index counts full rows, and the last row that it can count is still inside.
      have lower := Int.mul_nonneg bounds.1 (Int.le_of_lt positive)
      have upper :=
        Int.mul_le_mul_of_nonneg_right (show index + 1 ≤ axis.size by omega) (Int.le_of_lt positive)
      rw [Int.add_mul, Int.one_mul] at upper
      omega

/-- No place lies before the array. -/
theorem rowMajor_nonneg {axes : List Axis} (valid : AllValid axes) (sized : InnerSized axes)
    {tuple : List Int} (held : InAxes axes tuple) : 0 ≤ rowMajor axes tuple := by
  -- The outermost index may be large, but it is not negative.
  cases held with
  | nil => exact Int.le_refl 0
  | cons first rest =>
    obtain ⟨axisValid, innerValid⟩ := allValid_cons.mp valid
    have inside := (rowMajor_bounds innerValid sized rest).1
    have rows := Int.mul_nonneg (Axis.mem_bounds axisValid first).1
      (Int.le_of_lt (Region.span_pos Int.one_pos sized))
    exact Int.add_nonneg rows inside

/-- Numbers of full rows and places inside a row are told apart by their sum. -/
theorem rows_inj {row other place rest span : Int} (low : 0 ≤ place) (high : place < span)
    (restLow : 0 ≤ rest) (restHigh : rest < span)
    (same : row * span + place = other * span + rest) :
    row = other ∧ place = rest := by
  -- The quotient by the length of a row counts the full rows.
  have positive : 0 < span := by omega
  have rows : row = other := by
    have left : (row * span + place) / span = row := by
      rw [Int.add_comm, Int.add_mul_ediv_right _ _ (by omega), Int.ediv_eq_zero_of_lt low high,
        Int.zero_add]
    have right : (other * span + rest) / span = other := by
      rw [Int.add_comm, Int.add_mul_ediv_right _ _ (by omega),
        Int.ediv_eq_zero_of_lt restLow restHigh, Int.zero_add]
    rw [← left, ← right, same]
  subst rows
  exact ⟨rfl, by omega⟩

/-- Along axes of the same sizes, elements at one place have the same tuple. -/
theorem rowMajor_inj {axes others : List Axis} (valid : AllValid axes)
    (otherValid : AllValid others) (sizes : SameSizes axes others) (sized : InnerSized axes)
    {tuple other : List Int} (held : InAxes axes tuple) (otherHeld : InAxes others other)
    (same : rowMajor axes tuple = rowMajor others other) : tuple = other := by
  -- From the outside in, each place tells its first index and the place inside the row.
  induction sizes.forall₂ generalizing tuple other with
  | nil => rw [inAxes_nil.mp held, inAxes_nil.mp otherHeld]
  | @cons axis axis' inner inner' _ _ ih =>
    cases held with
    | cons first rest =>
      cases otherHeld with
      | cons first' rest' =>
        obtain ⟨-, innerValid⟩ := allValid_cons.mp valid
        obtain ⟨-, innerValid'⟩ := allValid_cons.mp otherValid
        obtain ⟨-, innerSizes⟩ := sameSizes_cons.mp sizes
        -- Rows are equally long on both sides, and hold the places of the inner axes.
        have innerSized : Sized inner := sized
        have innerSized' : Sized inner' := innerSized.congr innerSizes
        simp only [rowMajor, ← Region.span_congr innerSizes] at same
        obtain ⟨low, high⟩ := rowMajor_bounds innerValid innerSized rest
        obtain ⟨low', high'⟩ := rowMajor_bounds innerValid' innerSized' rest'
        rw [← Region.span_congr innerSizes] at high'
        obtain ⟨rfl, places⟩ := rows_inj low high low' high' same
        rw [ih innerValid innerValid' innerSizes innerSized.inner rest rest' places]

/-- Places depend on the sizes of the axes only. -/
theorem rowMajor_congr {axes others : List Axis} (sizes : SameSizes axes others)
    (tuple : List Int) :
    rowMajor axes tuple = rowMajor others tuple := by
  -- Places are built from spans, and these agree.
  induction sizes.forall₂ generalizing tuple with
  | nil => rfl
  | cons _ _ ih =>
    obtain ⟨-, innerSizes⟩ := sameSizes_cons.mp sizes
    cases tuple with
    | nil => rfl
    | cons index indices => rw [rowMajor, rowMajor, Region.span_congr innerSizes, ih innerSizes]

/-- Without axes there is a single element, at the start. -/
theorem covers_nil {element address : Int} :
    Covers [] element address ↔ 0 ≤ address ∧ address < element := by
  -- The empty tuple has place zero.
  constructor
  · intro covered
    obtain ⟨tuple, byte, -, low, high, rfl⟩ := covered
    simpa [rowMajor] using ⟨low, high⟩
  · intro bounds
    exact ⟨[], address, inAxes_nil.mpr rfl, bounds.1, bounds.2, by simp [rowMajor]⟩

/-- An address passes as many rows as the first index says, and lies in the next one. -/
theorem covers_cons {axis : Axis} {inner : List Axis} {element address : Int} :
    Covers (axis :: inner) element address ↔
      ∃ index, index ∈ axis ∧ ∃ rest, Covers inner element rest ∧
      address = index * Region.span element inner + rest := by
  -- The first index counts spans of the inner axes, in bytes.
  constructor
  · intro covered
    obtain ⟨tuple, byte, held, low, high, rfl⟩ := covered
    cases held with
    | @cons _ index _ indices first others =>
      refine ⟨index, first, _, ⟨indices, byte, others, low, high, rfl⟩, ?_⟩
      rw [rowMajor, Region.span_eq_mul element]
      ring
  · intro covered
    obtain ⟨index, first, rest, ⟨indices, byte, others, low, high, rfl⟩, rfl⟩ := covered
    refine ⟨index :: indices, byte, inAxes_cons.mpr ⟨first, others⟩, low, high, ?_⟩
    rw [rowMajor, Region.span_eq_mul element]
    ring

/-- Addresses along axes, with the places that axes of the same sizes have. -/
theorem covers_iff_of_sizes {axes others : List Axis} (sizes : SameSizes axes others)
    {unit address : Int} :
    Covers axes unit address ↔ ∃ tuple byte, InAxes axes tuple ∧ 0 ≤ byte ∧ byte < unit ∧
      address = rowMajor others tuple * unit + byte := by
  -- Only the sizes of axes enter the place of a tuple.
  simp only [Covers, rowMajor_congr sizes]

/-- Along axes of the same sizes, a common byte belongs to a common element. -/
theorem inAxes_of_covers {axes others : List Axis} {element address : Int} (valid : AllValid axes)
    (otherValid : AllValid others) (sizes : SameSizes axes others) (sized : InnerSized axes)
    (covered : Covers axes element address) (otherCovered : Covers others element address) :
    ∃ tuple byte, InAxes axes tuple ∧ InAxes others tuple ∧ 0 ≤ byte ∧ byte < element ∧
      address = rowMajor axes tuple * element + byte := by
  -- The byte inside the element is less than its size, so the places agree.
  obtain ⟨tuple, byte, held, low, high, rfl⟩ := covered
  obtain ⟨other, rest, otherHeld, restLow, restHigh, same⟩ := otherCovered
  obtain ⟨places, -⟩ := rows_inj low high restLow restHigh same
  obtain rfl := rowMajor_inj valid otherValid sizes sized held otherHeld places
  exact ⟨tuple, byte, held, otherHeld, low, high, rfl⟩

end Overlap
