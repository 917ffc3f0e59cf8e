import Overlap.Region.Basic

/-! Lists that collect the leftover parts of two regions. -/

namespace Overlap

/-- For which of the two regions the leftover parts are wanted. -/
structure Wanted where
  -- Both are wanted unless a caller says otherwise.
  left : Bool := true
  right : Bool := true
deriving DecidableEq, Repr

/-- Lists of regions behind which leftover parts are put. A side without a list drops its parts. -/
structure Kept where
  -- A list that is empty is not the same as no list.
  left : Option (List Region) := none
  right : Option (List Region) := none
deriving DecidableEq, Repr

namespace Kept

/-- Leftover parts are wanted for the sides that have a list. -/
def wanted (kept : Kept) : Wanted :=
  -- What the lists hold already makes no difference.
  ⟨kept.left.isSome, kept.right.isSome⟩

/-- Puts leftover parts behind the lists. -/
def add (kept : Kept) (left right : List Region) : Kept :=
  -- What was there stays in front.
  ⟨kept.left.map (· ++ left), kept.right.map (· ++ right)⟩

end Kept

end Overlap
