import Overlap.Region.Text

/-! The relation between two regions, and the region that they share. -/

namespace Overlap

/-- How two regions lie to each other. -/
inductive Relation where
  /-- The shared part is known. -/
  | exact
  /-- Nothing is shared. -/
  | disjoint
  /-- Something may be shared, and it is not known what. -/
  | imprecise
  /-- The regions belong to different objects, and nothing was compared. -/
  | differentObjects
deriving DecidableEq, Repr

/-- The word for a relation. -/
def Relation.word : Relation → String
  -- These words stand in the written form and in the nested one.
  | .exact => "exact"
  | .disjoint => "disjoint"
  | .imprecise => "imprecise"
  | .differentObjects => "different-objects"

/-- The relation that a word stands for. -/
def Relation.ofWord? : String → Option Relation
  -- Only the exact words are known.
  | "exact" => some .exact
  | "disjoint" => some .disjoint
  | "imprecise" => some .imprecise
  | "different-objects" => some .differentObjects
  | _ => none

/-- A relation with the region that goes with it. -/
structure Outcome where
  -- The region does not have to be there, and need not be shared.
  relation : Relation
  region : Option Region := none
deriving DecidableEq, Repr

namespace Outcome

/-- The shared part is the given region. -/
def exact (region : Region) : Outcome :=
  -- Only this outcome says what is shared.
  ⟨.exact, some region⟩

/-- Nothing is shared. -/
def disjoint : Outcome :=
  -- There is no region that could be named.
  ⟨.disjoint, none⟩

/-- The shared part is not known. -/
def imprecise : Outcome :=
  -- The region is there, but it describes nothing.
  ⟨.imprecise, some Region.unknown⟩

/-- The objects differ. -/
def differentObjects : Outcome :=
  -- Regions of different objects have no common region.
  ⟨.differentObjects, none⟩

/-- A dependence has to be assumed unless the regions are known to share nothing. -/
def mayOverlap (outcome : Outcome) : Bool :=
  -- Different objects count as well, because nothing was compared.
  outcome.relation != .disjoint

/-- The shared region, where the relation says that it is known. -/
def shared? (outcome : Outcome) : Option Region :=
  -- A region that goes with another relation is not shared.
  if outcome.relation = .exact then outcome.region else none

/-- The relation, with the shared region behind it where that is known. -/
def text (outcome : Outcome) : String :=
  match outcome.shared? with
  -- The word alone would not tell which bytes are shared.
  | some region => outcome.relation.word ++ ": " ++ region.text
  | none => outcome.relation.word

end Outcome

end Overlap
