/-! A phrase is the written form of a region, split into its parts.

The name of an object is followed by one of three forms: `bytes [LOW, HIGH)`, `dims(AXIS, …) elem
SIZE` and `whole`. Both bounds, the element size and an interval behind `whole` may be left out, and
an axis reads `START step STEP count COUNT of SIZE`, where the step may be left out. -/

namespace Overlap

/-- The digits of a number. -/
abbrev Numeral := List Char

/-- An axis as written. `before` and `after` are the lengths of the text from its first digit on and
behind its last digit. -/
structure AxisPhrase where
  start : Numeral
  step : Option Numeral
  count : Numeral
  size : Numeral
  -- Lengths of what is left take the place of offsets, so that a reader
  -- need not know where it started.
  before : Nat
  after : Nat
deriving DecidableEq, Repr

/-- A byte interval as written. -/
structure BoundsPhrase where
  -- A bound that is left out has no digits, which is not the same as the digit zero.
  lower : Option Numeral := none
  upper : Option Numeral := none
deriving DecidableEq, Repr

/-- What follows the name of the object. -/
inductive FormPhrase where
  -- The interval behind `whole` is left out by leaving out both bounds.
  | bytes (bounds : BoundsPhrase)
  | dims (axes : List AxisPhrase) (element : Option Numeral)
  | whole (bounds : BoundsPhrase)
deriving DecidableEq, Repr

/-- A region as written. -/
structure Phrase where
  -- Quotes around a name are not part of it.
  name : List Char
  form : FormPhrase
deriving DecidableEq, Repr

end Overlap
