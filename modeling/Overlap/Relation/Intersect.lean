import Overlap.Axis.Difference
import Overlap.Axis.Meet
import Overlap.Region.Interval
import Overlap.Region.Kept
import Overlap.Region.Reshape
import Overlap.Relation.Basic

/-! The relation between two regions, together with what is left of each of them. -/

namespace Overlap

/-- Skipped phases that one axis may leave over, unless a caller asks for another budget. -/
def defaultBudget : Int :=
  -- Ten phases are the most that are listed one by one.
  10

/-- The answer to a comparison: the outcome and, for an exact one, the wanted leftover parts. -/
structure Comparison where
  -- Without an exact outcome there are no leftover parts.
  outcome : Outcome
  left : List Region := []
  right : List Region := []
deriving DecidableEq, Repr

/-- How the axes of two arrays lie to each other. -/
inductive AxesMeet where
  /-- An axis has different sizes in the two arrays. -/
  | mismatch (axis : Nat)
  /-- Along one axis no index is shared. -/
  | apart (axis : Nat)
  /-- The shared indices along every axis. -/
  | shared (axes : List Axis)
deriving DecidableEq, Repr

/-- Accepts a list of well-formed axes, and names the first fault otherwise. -/
def checkAxes : List Axis → Except Fault Unit
  | [] => .ok ()
  | axis :: rest => do
    -- The axis itself is not changed by its check.
    let _ ← axis.check
    checkAxes rest

/-- Compares two lists of axes from the outside in, starting at a given axis number. -/
def meetAxes (number : Nat) : List Axis → List Axis → Except Fault AxesMeet
  | left :: lefts, right :: rights => do
    -- Axes of different sizes lie in arrays of different shapes, and
    -- nothing is concluded from them.
    if left.size ≠ right.size then return .mismatch number
    match ← left.meet right with
    | none => return .apart number
    | some common =>
      match ← meetAxes (number + 1) lefts rights with
      -- The common indices of the inner axes follow those of this one.
      | .shared axes => return .shared (common :: axes)
      | other => return other
  -- Both lists end together, as their lengths were compared before.
  | _, _ => return .shared []

/-- Index tuples outside a part, as lists of axes that do not overlap. Behind the first axis on
which a tuple leaves the part all indices are free, and before it they stay in the part. There is no
answer when some axis exceeds the budget. -/
def leftoverAxes (budget : Int) : List Axis → List Axis → Except Fault (Option (List (List Axis)))
  | whole :: wholes, part :: parts => do
    -- Every axis has its own budget.
    match ← whole.difference part budget with
    | none => return none
    | some pieces =>
      match ← leftoverAxes budget wholes parts with
      | none => return none
      -- Tuples that leave the part here may end anywhere, and the others are still inside so far.
      | some rest => return some (pieces.map (· :: wholes) ++ rest.map (part :: ·))
  | _, _ => return some []

namespace Region

/-- A region of the same array with other axes. -/
def withAxes (region : Region) (axes : List Axis) : Region :=
  -- The object, the element size and the lower bound stay as they are.
  { region with kind := .perAxis, axes := axes }

/-- What is left of a region outside a part of it; the region itself, not narrowed down, if the
budget does not allow for more. -/
def leftover (region : Region) (part : List Axis) (budget : Int) : Except Fault (List Region) := do
  match ← leftoverAxes budget region.axes part with
  -- The part that was not narrowed down covers what is left, and the shared part too.
  | none => return [region.widen]
  | some pieces => return pieces.map region.withAxes

/-- Brings a byte interval into the shape of the array that it is compared with, where possible. -/
def alignShapes (left right : Region) : Region × Region :=
  match left.kind, right.kind with
  -- An interval that does not fit the array is compared as it is.
  | .flat, .perAxis => ((right.reshape left).toOption.getD left, right)
  | .perAxis, .flat => (left, (left.reshape right).toOption.getD right)
  | _, _ => (left, right)

/-- Relates two byte intervals. -/
def relateBytes (left right : Region) (wanted : Wanted) : Comparison :=
  match left.meetBytes right with
  -- That the objects differ was ruled out before, so both mean that nothing is shared.
  | .foreign | .apart => { outcome := .disjoint }
  | .undecided => { outcome := .imprecise }
  | .shared common =>
    { outcome := .exact common
      -- The parts of a side are not even made if nobody wants them.
      left := if wanted.left then left.outside common else []
      right := if wanted.right then right.outside common else [] }

/-- Relates two regions given per axis. -/
def relateAxes (left right : Region) (budget : Int) (wanted : Wanted) :
    Except Fault Comparison := do
  -- Malformed axes are refused before anything is compared.
  checkAxes (left.axes ++ right.axes)
  -- Elements of different sizes have no indices in common that mean the same bytes.
  if left.axes.length ≠ right.axes.length ∨ left.upper ≠ right.upper then
    return { outcome := .imprecise }
  -- Equal arrays share everything, and nothing is left of either.
  if left.lower = right.lower ∧ left.axes = right.axes then
    return { outcome := .exact left }
  match ← meetAxes 0 left.axes right.axes with
  | .mismatch _ => return { outcome := .imprecise }
  | .apart _ => return { outcome := .disjoint }
  | .shared axes =>
    -- Left comes first, so its fault is the one that shows.
    let leftRest ← if wanted.left then left.leftover axes budget else pure []
    let rightRest ← if wanted.right then right.leftover axes budget else pure []
    return { outcome := .exact (left.withAxes axes), left := leftRest, right := rightRest }

/-- Relates two regions. An exact outcome comes with the parts of either region outside the other,
as far as they are wanted; the budget bounds the skipped phases along one axis. -/
def intersect (left right : Region) (budget : Int := defaultBudget) (wanted : Wanted := {}) :
    Except Fault Comparison := do
  -- The objects are looked at before anything else, on both sides.
  if left.object = none ∨ right.object = none then
    throw (.breach .noObject)
  if ¬ SameObject left.object right.object then
    return { outcome := .differentObjects }
  let (left, right) := alignShapes left right
  match left.kind, right.kind with
  | .flat, .flat => return relateBytes left right wanted
  | .perAxis, .perAxis => relateAxes left right budget wanted
  -- A region that could not be narrowed down may share anything.
  | _, _ => return { outcome := .imprecise }

end Region

end Overlap
