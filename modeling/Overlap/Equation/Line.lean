/-! A line gives the values of one unknown of an equation, one for each integer parameter. -/

namespace Overlap

/-- The values `constant + slope * t`, where `t` runs through the integers. -/
structure Line where
  constant : Int
  slope : Int
deriving DecidableEq, Repr

namespace Line

/-- The value at one parameter. -/
def valueAt (line : Line) (t : Int) : Int :=
  -- At the parameter zero this is the constant.
  line.constant + line.slope * t

/-- The numbers of a line. -/
def fields (line : Line) : List Int :=
  -- The constant comes first, as in the formula.
  [line.constant, line.slope]

/-- The line as a formula in its parameter. -/
def text (line : Line) : String :=
  -- A negative slope is written behind a plus sign all the same.
  s!"{line.constant} + {line.slope} * T"

end Line

end Overlap
