import Overlap.Proofs.Footprint.Check
import Overlap.Proofs.Footprint.Offsets
import Overlap.Relation.Intersect

/-! Intervals that can be listed: their parts can be listed too, and bounds
tell which bytes are shared. -/

namespace Overlap.Region

/-- At most two pieces are left of an interval, one in front of the
common part and one behind it. -/
theorem mem_outside_iff {region common fragment : Region} {low high first stop : Int}
    (bounds : region.bounds? = some (low, high))
    (commonBounds : common.bounds? = some (first, stop)) :
    fragment ∈ region.outside common ↔
      low < first ∧ fragment = { region with upper := some first } ∨
        stop < high ∧ fragment = { region with lower := some stop } := by
  -- Each of the two parts is there under its own condition.
  simp only [outside, bounds, commonBounds, List.mem_append]
  by_cases some : low < first <;> by_cases other : stop < high <;> simp [some, other]

/-- What is left of an interval outside a part of it has the other bytes. -/
theorem touches_outside_iff {region common : Region} {low high first stop : Int}
    (kind : region.kind = .flat) (bounds : region.bounds? = some (low, high))
    (commonBounds : common.bounds? = some (first, stop)) (ordered : first < stop)
    (after : low ≤ first) (before : stop ≤ high) (address : Int) :
    (∃ fragment ∈ region.outside common, fragment.Touches address) ↔
      region.Touches address ∧ ¬ (first ≤ address ∧ address < stop) := by
  obtain ⟨lower, upper⟩ := bounds?_eq_some_iff.mp bounds
  -- The two fragments reach from one end of the region to the part.
  have front : ({ region with upper := some first } : Region).Touches address ↔
      low ≤ address ∧ address < first :=
    @touches_flat_iff { region with upper := some first } low first kind
      (by simp [bounds?, lower]) address
  have back : ({ region with lower := some stop } : Region).Touches address ↔
      stop ≤ address ∧ address < high :=
    @touches_flat_iff { region with lower := some stop } stop high kind
      (by simp [bounds?, upper]) address
  rw [touches_flat_iff kind bounds]
  constructor
  · intro touched
    obtain ⟨fragment, member, touched⟩ := touched
    -- Each fragment lies on one side of the part.
    rcases (mem_outside_iff bounds commonBounds).mp member with ⟨-, rfl⟩ | ⟨-, rfl⟩
    · have := front.mp touched
      omega
    · have := back.mp touched
      omega
  · -- A byte outside the part lies before its start or behind its end.
    intro outside
    by_cases early : address < first
    · have some : low < first := by omega
      exact ⟨_, (mem_outside_iff bounds commonBounds).mpr (Or.inl ⟨some, rfl⟩),
        front.mpr (by omega)⟩
    · have some : stop < high := by omega
      exact ⟨_, (mem_outside_iff bounds commonBounds).mpr (Or.inr ⟨some, rfl⟩), back.mpr (by omega)⟩

/-- A byte interval between moderate bounds that there is room for. -/
structure Interval [Limits] (region : Region) (low high : Int) : Prop where
  -- The bounds are small enough for double precision, and the bytes few enough for the memory.
  kind : region.kind = .flat
  bounds : region.bounds? = some (low, high)
  ordered : low < high
  lowest : -2 ^ 53 < low
  highest : high ≤ 2 ^ 53
  room : (high - low).toNat * wordBytes ≤ memoryBytes

namespace Interval

variable {region : Region} {low high : Int}

/-- The bytes of an interval lie between its bounds. -/
theorem touches_iff [Limits] (interval : region.Interval low high) {address : Int} :
    region.Touches address ↔ low ≤ address ∧ address < high :=
  -- Both bounds are given, so the bytes are those between them.
  touches_flat_iff interval.kind interval.bounds

/-- An interval is listed by its bytes. -/
theorem lists [Limits] (interval : region.Interval low high) :
    ListsBy byteOffsets region region.Touches := by
  -- There is room for all bytes, so listing has no fault.
  have listed := byteOffsets_interval interval.kind interval.bounds interval.ordered interval.lowest
    interval.highest
  rw [if_neg (Nat.not_lt.mpr interval.room)] at listed
  have bytes : Lists (Axis.toList ⟨low, 1, high - low, 0⟩) _ := Axis.lists_toList Int.one_pos
  refine ⟨_, listed, bytes.rising, fun address => ?_⟩
  rw [bytes.mem, Axis.mem_interval, interval.touches_iff]
  constructor <;> intro inside <;> omega

/-- A part of an interval, between bounds inside it. -/
theorem part [Limits] (interval : region.Interval low high) {part : Region} {first stop : Int}
    (kind : part.kind = .flat) (bounds : part.bounds? = some (first, stop)) (ordered : first < stop)
    (after : low ≤ first) (before : stop ≤ high) :
    part.Interval first stop where
  -- Bounds between those of the interval are small enough, and leave fewer bytes.
  kind := kind
  bounds := bounds
  ordered := ordered
  lowest := Int.lt_of_lt_of_le interval.lowest after
  highest := Int.le_trans before interval.highest
  room := Nat.le_trans (Nat.mul_le_mul_right wordBytes (by omega)) interval.room

/-- What is left of an interval outside a part of it has the other bytes. -/
theorem remainder [Limits] (interval : region.Interval low high) {common : Region}
    {first stop : Int} (commonBounds : common.bounds? = some (first, stop)) (ordered : first < stop)
    (after : low ≤ first) (before : stop ≤ high) {held : Int → Prop}
    (shared : ∀ address, held address ↔ first ≤ address ∧ address < stop) :
    Remainder byteOffsets (region.outside common) region.Touches held := by
  -- Each piece is a part of the interval, so it can be listed too.
  obtain ⟨lower, upper⟩ := bounds?_eq_some_iff.mp interval.bounds
  refine Or.inr ⟨Touches, fun fragment member => ?_, fun address => ?_⟩
  · rcases (mem_outside_iff interval.bounds commonBounds).mp member with ⟨front, rfl⟩ | ⟨back, rfl⟩
    · have piece : ({ region with upper := some first } : Region).Interval low first :=
        interval.part interval.kind (by simp [bounds?, lower]) front (Int.le_refl low) (by omega)
      exact piece.lists
    · have piece : ({ region with lower := some stop } : Region).Interval stop high :=
        interval.part interval.kind (by simp [bounds?, upper]) back (by omega) (Int.le_refl high)
      exact piece.lists
  · rw [shared]
    exact touches_outside_iff interval.kind interval.bounds commonBounds ordered after
      before address

end Interval

/-- The outcome of comparing two intervals passes. -/
theorem verify_intervals [Limits] {left right : Region} {low high otherLow otherHigh : Int}
    (interval : left.Interval low high) (other : right.Interval otherLow otherHigh)
    (meet : low < otherHigh ∧ otherLow < high) {common : Region} (shape : common =
      { left with lower := some (max low otherLow), upper := some (min high otherHigh) }) :
    verify left right (.exact common) (some (left.outside common)) (some (right.outside common)) =
      .ok [] := by
  -- The common part lies between the larger lower bound and the smaller upper one.
  have listing : listingFor left right = byteOffsets := by simp [listingFor, interval.kind]
  -- Both intervals have bytes, and so has the common part.
  have ordered := interval.ordered
  have otherOrdered := other.ordered
  have bounds : common.bounds? = some (max low otherLow, min high otherHigh) := by
    simp [shape, bounds?]
  have shared : common.Interval (max low otherLow) (min high otherHigh) :=
    interval.part (by simp [shape, interval.kind]) bounds (by omega) (by omega) (by omega)
  have both : ∀ address, left.Touches address ∧ right.Touches address ↔
      max low otherLow ≤ address ∧ address < min high otherHigh := by
    intro address
    rw [interval.touches_iff, other.touches_iff]
    omega
  -- The three listings are compared with what the intervals touch.
  obtain ⟨numbers, listed, rising, mem⟩ := shared.lists
  have commonLists : ListsBy byteOffsets common fun address => left.Touches address ∧
      right.Touches address :=
    ⟨numbers, listed, rising,
      fun number => (mem number).trans (shared.touches_iff.trans (both number).symm)⟩
  exact verify_eq_ok listing interval.lists other.lists commonLists
    (interval.remainder bounds shared.ordered (by omega) (by omega) both)
    (other.remainder bounds shared.ordered (by omega) (by omega) both)

end Overlap.Region
