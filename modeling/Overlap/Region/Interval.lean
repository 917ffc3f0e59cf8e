import Overlap.Region.Basic

/-! Bytes that two flat regions have in common, and what is left of each of them. -/

namespace Overlap

/-- How two byte intervals lie to each other. -/
inductive IntervalMeet where
  /-- They belong to different objects. -/
  | foreign
  /-- They share no byte. -/
  | apart
  /-- They may share bytes, but an open bound leaves it undecided which. -/
  | undecided
  /-- They share the bytes of a region. -/
  | shared (common : Region)
deriving DecidableEq, Repr

namespace Region

/-- A given end lies at or before a given start. -/
def EndsBefore (stop start : Option Int) : Prop :=
  match stop, start with
  -- The end is not part of the interval, so it may coincide with the start.
  | some stop, some start => stop ≤ start
  | _, _ => False

/-- Two bounds are compared only when both are given. -/
instance : (stop start : Option Int) → Decidable (EndsBefore stop start)
  -- An open bound is never before another one.
  | some stop, some start => inferInstanceAs (Decidable (stop ≤ start))
  | none, _ => inferInstanceAs (Decidable False)
  | some _, none => inferInstanceAs (Decidable False)

/-- The bytes common to two intervals of one object, before anything is told of them. -/
def meetBytes (left right : Region) : IntervalMeet :=
  -- Bounds of different objects say nothing about each other.
  if ¬ SameObject left.object right.object then .foreign
  else match left.bounds?, right.bounds? with
    | some (leftLow, leftHigh), some (rightLow, rightHigh) =>
      -- An interval without bytes meets nothing, wherever it lies.
      if leftHigh ≤ rightLow ∨ rightHigh ≤ leftLow ∨ leftHigh ≤ leftLow ∨ rightHigh ≤ rightLow then
        .apart
      else
        .shared { left with
          lower := some (max leftLow rightLow)
          upper := some (min leftHigh rightHigh) }
    | _, _ =>
      -- With an open bound, only an end that is given before a start that is given decides.
      if EndsBefore left.upper right.lower ∨ EndsBefore right.upper left.lower then .apart
      else .undecided

/-- The bytes of an interval before and after a common part of it. -/
def outside (region common : Region) : List Region :=
  match region.bounds?, common.bounds? with
  | some (low, high), some (first, stop) =>
    -- Both parts keep the object and the kind of the region.
    let before := if low < first then [{ region with upper := some first }] else []
    let after := if stop < high then [{ region with lower := some stop }] else []
    before ++ after
  -- Without both bounds of both, what is left cannot be told.
  | _, _ => []

end Region

/-- The bytes of one of the two intervals that are not shared, as far
as the shared ones are known. -/
def IntervalMeet.leftover (region : Region) : IntervalMeet → List Region
  -- Where nothing is known to be shared, nothing is put aside either.
  | .shared common => region.outside common
  | _ => []

end Overlap
