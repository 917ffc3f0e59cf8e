import Overlap.Footprint.Verify
import Overlap.Relation.Told

/-! A session works on named lists of regions. -/

namespace Overlap

/-- Named lists of regions. -/
structure Session where
  -- A name occurs at most once, which `set` keeps up.
  lists : List (String × List Region) := []
deriving DecidableEq, Repr

namespace Session

/-- The list with a name, which is empty as long as nothing was put there. -/
def list (session : Session) (name : String) : List Region :=
  -- Lists come into being when something is put there, so no list has to be declared.
  (session.lists.lookup name).getD []

/-- A region by the name of its list and its place there. -/
def get? (session : Session) (name : String) (place : Nat) : Option Region :=
  -- Places count from zero.
  (session.list name)[place]?

/-- Replaces the list with a name. -/
def set (session : Session) (name : String) (regions : List Region) : Session :=
  -- The list that was there before is dropped as a whole.
  ⟨(name, regions) :: session.lists.filter fun (other, _) => other ≠ name⟩

/-- Puts regions behind those of a list. -/
def append (session : Session) (name : String) (regions : List Region) : Session :=
  -- The order within a list is that in which regions were put there.
  session.set name (session.list name ++ regions)

/-- Puts regions behind those of a list, if one is named. -/
def append? (session : Session) (name : Option String) (regions : List Region) : Session :=
  match name with
  | some name => session.append name regions
  -- Without a name the regions are dropped.
  | none => session

/-- Relates two regions. The leftover parts go to the named lists, first those of the left region,
and then the shared region of an exact outcome goes to the list for it. -/
def intersect (session : Session) (left right : Region)
    (leftName rightName sharedName : Option String) (budget : Int) :
    Except Fault (Outcome × Session) := do
  -- Parts are wanted for the sides that have a list to go to.
  let (comparison, _) ← left.intersectTold right budget ⟨leftName.isSome, rightName.isSome⟩ false
  -- Both names may be the same, and then the right parts follow the left ones.
  let session := (session.append? leftName comparison.left).append? rightName comparison.right
  match comparison.outcome.shared? with
  -- The shared region goes last, also if its list is one of the other two.
  | some shared => return (comparison.outcome, session.append? sharedName [shared])
  | none => return (comparison.outcome, session)

/-- Takes one region away from several ones, given how each of them compares with it. Each
of them is replaced by its leftover parts, or stays as it is when the overlap is not exact;
its relation is told as well. -/
def subtractAll (compare : Region → Except Fault Comparison) :
    List Region → Except Fault (List Relation × List Region)
  | [] => .ok ([], [])
  | first :: rest => do
    -- The first comparison that fails stops all of them, and the session stays as it was.
    let comparison ← compare first
    -- Only an exact overlap says what is left.
    let kept := if comparison.outcome.relation = .exact then comparison.left else [first]
    let (relations, others) ← subtractAll compare rest
    return (comparison.outcome.relation :: relations, kept ++ others)

/-- Takes one region away from a list. -/
def subtract (session : Session) (name : String) (region : Region) (budget : Int) :
    Except Fault (List Relation × Session) := do
  -- The right side has nothing to leave, so its parts are not wanted.
  let compare (first : Region) :=
    (first.intersectTold region budget ⟨true, false⟩ false).map Prod.fst
  let (relations, rest) ← subtractAll compare (session.list name)
  -- The list is replaced in one go, once all of its regions were compared.
  return (relations, session.set name rest)

/-- The written regions of a list. -/
def texts (session : Session) (name : String) : Except Fault (List String) :=
  -- The first region that cannot be written stops the listing.
  (session.list name).mapM Region.textTold

/-- Relates two regions and tells how the answer disagrees with the listed addresses. -/
def verify [Limits] (left right : Region) (budget : Int) : Except Fault (List String) := do
  -- All leftover parts are wanted, since they are checked as well.
  let (comparison, _) ← left.intersectTold right budget {} false
  comparison.verifyTold left right

end Session

end Overlap
