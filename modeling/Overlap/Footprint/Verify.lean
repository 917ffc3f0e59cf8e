import Overlap.Footprint.Basic
import Overlap.Relation.Intersect
import Std.Data.HashSet

/-! Checking an outcome against the listed addresses of the regions. -/

namespace Overlap

/-- Numbers of a list that are also in another one. -/
def commonNumbers (numbers others : List Int) : List Int :=
  -- A set makes long lists cheap to compare, and the order of the first list is kept.
  let known := Std.HashSet.ofList others
  numbers.filter known.contains

/-- Numbers of a list that are not in another one. -/
def otherNumbers (numbers others : List Int) : List Int :=
  -- Numbers that occur more than once stay as often as they occur.
  let known := Std.HashSet.ofList others
  numbers.filter fun number => !known.contains number

/-- One of the two regions that are compared. -/
inductive Side where
  | left
  | right
deriving DecidableEq, Repr

/-- The word for a side. -/
def Side.word : Side → String
  -- The words open the messages about leftover parts.
  | .left => "left"
  | .right => "right"

/-- A disagreement between an outcome and the listed addresses. -/
inductive Problem where
  -- The first two are about the whole outcome, and the others about what is left of one side.
  | shared (count : Nat)
  | wrongRegion (region : Region) (count : Nat)
  | outside (side : Side) (base : Region)
  | overlapping (side : Side)
  | uncovered (side : Side) (base : Region)
deriving DecidableEq, Repr

/-- The wording of a disagreement. -/
def Problem.text : Problem → String
  -- Addresses are counted, and not shown.
  | .shared count => s!"reported disjoint, but {count} addresses are shared"
  | .wrongRegion region count =>
    "intersection " ++ region.text ++ s!" does not match the {count} shared addresses"
  | .outside side base => side.word ++ " fragments reach outside " ++ base.text
  | .overlapping side => side.word ++ " fragments overlap the intersection"
  | .uncovered side base => side.word ++ " fragments and intersection do not cover " ++ base.text

/-- The numbers in the wording of a disagreement. -/
def Problem.numbers : Problem → List Int
  -- Counts of addresses are always short, so they do not count here.
  | .shared _ | .overlapping _ => []
  | .wrongRegion region _ | .outside _ region | .uncovered _ region => region.numbers

/-- All addresses of several regions. -/
def listAll (listing : Region → Except Fault (List Int)) (regions : List Region) :
    Except Fault (List Int) := do
  -- A fault in one region stops the listing, in the order of the regions.
  return ascending (← regions.mapM listing).flatten

/-- Checks the leftover parts of one side. Nothing is known of a part that was not narrowed down,
and then nothing is checked. -/
def checkSide (listing : Region → Except Fault (List Int)) (side : Side) (base : Region)
    (addresses common : List Int) : Option (List Region) → Except Fault (List Problem)
  | none => return []
  | some fragments => do
    -- One part that was not narrowed down is enough.
    if fragments.any (·.kind == .whole) then return []
    let rest ← listAll listing fragments
    -- All three tests are made, so that a side may have up to three problems.
    let outside := if (otherNumbers rest addresses).isEmpty then [] else [.outside side base]
    let overlapping := if (commonNumbers rest common).isEmpty then [] else [.overlapping side]
    let uncovered := if ascending (rest ++ common) = addresses then [] else [.uncovered side base]
    return outside ++ overlapping ++ uncovered

/-- Elements are compared when both regions are given per axis and the element size is not
known, and bytes otherwise. -/
def listingFor [Limits] (left right : Region) : Region → Except Fault (List Int) :=
  -- An element size of zero says as little as a missing one.
  if left.kind = .perAxis ∧ right.kind = .perAxis ∧ left.upper.getD 0 = 0 then
    Region.elementOffsets
  else Region.byteOffsets

/-- Compares an outcome and the leftover parts with the listed addresses of both regions. -/
def verify [Limits] (left right : Region) (outcome : Outcome)
    (leftParts rightParts : Option (List Region)) : Except Fault (List Problem) :=
  match outcome.relation with
  -- These outcomes say nothing that could be wrong.
  | .imprecise | .differentObjects => .ok []
  | relation => do
    let listing := listingFor left right
    let leftAddresses ← listing left
    let rightAddresses ← listing right
    -- Addresses of an interval start over behind the largest word, and are not in order then.
    let shared := commonNumbers (ascending leftAddresses) rightAddresses
    -- Leftover parts are not looked at when nothing is shared.
    if relation = .disjoint then
      return if shared.isEmpty then [] else [.shared shared.length]
    match outcome.region with
    -- The outcome was not made by a comparison then, which always tells the region.
    | none => throw .noRegion
    | some region =>
      let common ← listing region
      let wrong := if common = shared then [] else [.wrongRegion region shared.length]
      -- The left side is listed and checked before the right one.
      let leftProblems ← checkSide listing .left left leftAddresses common leftParts
      let rightProblems ← checkSide listing .right right rightAddresses common rightParts
      return wrong ++ leftProblems ++ rightProblems

/-- The wording of all disagreements, unless it holds a number that is too long. -/
def verifyTold [Limits] (left right : Region) (outcome : Outcome)
    (leftParts rightParts : Option (List Region)) :
    Except Fault (List String) := do
  -- A fault that cannot be told becomes the one about its numbers.
  let problems ← withTold (verify left right outcome leftParts rightParts)
  -- The problems were found by now, and can still fail to be told.
  checkNumbers (problems.flatMap Problem.numbers)
  return problems.map Problem.text

/-- The wording of all disagreements of a comparison with the listed addresses. -/
def Comparison.verifyTold [Limits] (comparison : Comparison) (left right : Region) :
    Except Fault (List String) :=
  -- A comparison always has its leftover parts, even if there are none.
  Overlap.verifyTold left right comparison.outcome (some comparison.left) (some comparison.right)

end Overlap
