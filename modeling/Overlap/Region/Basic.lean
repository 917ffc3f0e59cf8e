import Overlap.Axis.Basic

/-! A region is the part of one object that a single access may touch. -/

namespace Overlap

/-- What tells one object from another: a name, a number or a flag. -/
inductive Identity where
  -- Names never denote the same object as numbers do.
  | name (text : String)
  | number (value : Int)
  | flag (value : Bool)
deriving DecidableEq, Repr

namespace Identity

/-- The representative of an identity: a flag stands for the number one or zero. -/
def canonical : Identity → Identity
  -- No flag is its own representative.
  | .flag value => .number (if value then 1 else 0)
  | other => other

/-- Two identities denote one object when their representatives agree. -/
def Same (left right : Identity) : Prop :=
  -- A flag and the number that it stands for denote one object.
  left.canonical = right.canonical

/-- Sameness is settled by comparing the representatives. -/
instance (left right : Identity) : Decidable (left.Same right) :=
  -- Representatives are compared as data.
  inferInstanceAs (Decidable (_ = _))

/-- The plain text of an identity. -/
def text : Identity → String
  -- A name stands for itself, without quotes.
  | .name text => text
  | .number value => toString value
  | .flag true => "True"
  | .flag false => "False"

end Identity

/-- How a region is described: by a byte interval, axis by axis, or not at all. -/
inductive Kind where
  | flat
  | perAxis
  | whole
deriving DecidableEq, Repr

/-- The word for a kind. -/
def Kind.word : Kind → String
  -- These are the words of the nested form, and the written form has others.
  | .flat => "default"
  | .perAxis => "collapsed"
  | .whole => "non-collapsable"

/-- The kind that a word stands for. -/
def Kind.ofWord? : String → Option Kind
  -- Every word above is found again, and no other word is accepted.
  | "default" => some .flat
  | "collapsed" => some .perAxis
  | "non-collapsable" => some .whole
  | _ => none

/-- Addresses of one access to an object.

A flat region holds the bytes from `lower` up to but not including `upper`, where a missing bound is
open. A region given per axis has one axis for each array dimension, outermost first, and `upper`
is then the size in bytes of one innermost element. A whole region could not be narrowed down and
stands for the entire object. -/
structure Region where
  -- All fields have defaults, which together describe every byte of no object.
  object : Option Identity := none
  kind : Kind := .flat
  lower : Option Int := none
  upper : Option Int := none
  axes : List Axis := []
deriving DecidableEq, Repr

namespace Region

/-- The region of an overlap whose extent is not known. -/
def unknown : Region :=
  -- No object goes with it, so nothing may be concluded from its open bounds.
  {}

/-- Both ends of the region are given. -/
def bounds? (region : Region) : Option (Int × Int) :=
  -- One open end is enough for the bytes to be unlimited.
  match region.lower, region.upper with
  | some lower, some upper => some (lower, upper)
  | _, _ => none

/-- Bytes of one innermost element, known only for a region given per axis. -/
def elementSize? (region : Region) : Option Int :=
  -- For intervals the same field is a bound, and says nothing of elements.
  if region.kind = .perAxis then region.upper else none

/-- The same object, marked as a part that could not be narrowed down. -/
def widen (region : Region) : Region :=
  -- The fields for bounds stay as they are, also where one of them held an element size.
  { region with kind := .whole, axes := [] }

/-- Objects agree when both are missing or both denote the same one. -/
def SameObject : Option Identity → Option Identity → Prop
  -- Two missing objects agree, although regions without an object are never compared.
  | none, none => True
  | some left, some right => left.Same right
  | _, _ => False

/-- Agreement of objects is settled by comparing identities. -/
instance : (left right : Option Identity) → Decidable (SameObject left right)
  -- One case for each case of the definition, with both of the last kind.
  | none, none => inferInstanceAs (Decidable True)
  | some left, some right => inferInstanceAs (Decidable (left.Same right))
  | none, some _ => inferInstanceAs (Decidable False)
  | some _, none => inferInstanceAs (Decidable False)

/-- Two regions are alike when all fields agree, objects up to sameness. -/
def Alike (left right : Region) : Prop :=
  -- Flags and numbers of one object are alike, so likeness is not equality.
  SameObject left.object right.object ∧ left.kind = right.kind ∧ left.lower = right.lower ∧
    left.upper = right.upper ∧ left.axes = right.axes

/-- Likeness is settled field by field. -/
instance (left right : Region) : Decidable (left.Alike right) :=
  -- Only the first of the five conditions is not an equation.
  inferInstanceAs (Decidable (_ ∧ _))

end Region

end Overlap
