import Overlap.Equation.Line
import Overlap.Region.Text
import Overlap.Text.Integer

/-! Every reason for which a computation on regions gives no answer, and the wording of each. -/

namespace Overlap

/-- A caller broke the contract of an operation. -/
inductive Breach where
  -- Equations and lines come first, then single axes, pairs of axes and regions.
  | zeroCoefficient (a b : Int)
  | slope (line : Line)
  | start (axis : Axis)
  | step (axis : Axis)
  | count (axis : Axis)
  | size (axis : Axis)
  | bounds (axis : Axis)
  | strideMismatch (part whole : Axis)
  | notPart (part whole : Axis)
  | noObject
deriving DecidableEq, Repr

/-- What was expected of the caller. -/
def Breach.message : Breach → String
  -- Axes are shown as records where one of their fields is at fault, and as
  -- texts where two are compared.
  | .zeroCoefficient a b => s!"Coefficients must be nonzero: a={a}, b={b}"
  | .slope line => "Solution slope must be positive: " ++ line.text
  | .start axis => "Start must be non-negative: " ++ axis.record
  | .step axis => "Step must be positive: " ++ axis.record
  | .count axis => "Trip count must be positive: " ++ axis.record
  | .size axis => "Dimension size must be non-negative: " ++ axis.record
  | .bounds axis => s!"Index {axis.last} is out of dimension bounds: " ++ axis.record
  | .strideMismatch part whole =>
    "Step of " ++ part.text ++ " is not a multiple of the step of " ++ whole.text
  | .notPart part whole => part.text ++ " is not a subset of " ++ whole.text
  | .noObject => "Pointers of intersected memory locations must not be null"

/-- The numbers in the message about a broken contract. -/
def Breach.numbers : Breach → List Int
  -- The numbers are those of the message, whatever their order in it.
  | .zeroCoefficient a b => [a, b]
  | .slope line => line.fields
  | .start axis | .step axis | .count axis | .size axis => axis.fields
  -- The last index is computed for the message, and may be longer than any field.
  | .bounds axis => axis.last :: axis.fields
  | .strideMismatch part whole | .notPart part whole => part.fields ++ whole.fields
  | .noObject => []

/-- A region whose addresses cannot be listed. -/
inductive Unlisted where
  -- Offsets are a matter of axes, and the other causes of something that is not known.
  | offsets (region : Region)
  | axisSize (index : Nat) (region : Region)
  | openBounds (region : Region)
  | elementSize (region : Region)
  | everything (region : Region)
deriving DecidableEq, Repr

/-- Why the addresses of a region cannot be listed. -/
def Unlisted.message : Unlisted → String
  -- Every message shows the whole region.
  | .offsets region => "Only collapsed locations have element offsets: " ++ region.text
  | .axisSize index region => s!"Axis {index} of " ++ region.text ++ " has unknown size"
  | .openBounds region => "Open bounds cannot be enumerated: " ++ region.text
  | .elementSize region => "Element size is unknown: " ++ region.text
  | .everything region => "Non-collapsable location has no known footprint: " ++ region.text

/-- The region that a message is about. -/
def Unlisted.region : Unlisted → Region
  -- All causes carry the region that they are about.
  | .offsets region | .axisSize _ region | .openBounds region | .elementSize region
  | .everything region => region

/-- A computation on regions stopped without an answer. -/
inductive Fault where
  -- The first two carry their own message, and the others have a fixed one.
  | breach (cause : Breach)
  | unlisted (cause : Unlisted)
  | zeroDivisor
  | zeroStep
  | negativeLength
  | tooMany
  | outOfMemory
  | wordOverflow
  | noRegion
  /-- A number has too many digits to be written. -/
  | longNumber
  /-- An expression is nested too deeply. -/
  | tooNested
deriving DecidableEq, Repr

/-- The code that marks a broken contract. -/
def breachCode : String := "E9001"

/-- A message with its code in front. -/
def codedMessage (code message : String) : String :=
  -- The code stands in brackets.
  s!"[{code}] {message}"

/-- The wording of a fault. -/
def Fault.message : Fault → String
  -- Only broken contracts have a code.
  | .breach cause => codedMessage breachCode cause.message
  | .unlisted cause => cause.message
  | .zeroDivisor => "division by zero"
  | .zeroStep => "a progression needs a nonzero step"
  | .negativeLength => "a length is never negative"
  | .tooMany => "too many numbers to list"
  | .outOfMemory => "not enough memory"
  | .wordOverflow => "number does not fit a 64-bit word"
  | .noRegion => "an exact overlap needs its region"
  | .longNumber => "a number has too many digits"
  | .tooNested => "an expression is nested too deeply"

/-- The numbers in the message of a fault. -/
def Fault.numbers : Fault → List Int
  | .breach cause => cause.numbers
  -- The number of an axis is short, so only the numbers of the region matter.
  | .unlisted cause => cause.region.numbers
  -- Fixed messages hold no numbers.
  | _ => []

/-- Accepts numbers that can all be written. -/
def checkNumbers (numbers : List Int) : Except Fault Unit :=
  -- The position of a number that is too long makes no difference.
  if ∀ number ∈ numbers, Writable number then .ok () else .error .longNumber

/-- The fault that shows: one whose message cannot be written gives way to that fact. -/
def Fault.told (fault : Fault) : Fault :=
  -- The fault that takes its place holds no numbers itself.
  match checkNumbers fault.numbers with
  | .ok _ => fault
  | .error other => other

/-- A computation with the fault that shows. -/
def withTold (result : Except Fault α) : Except Fault α :=
  -- An answer is not touched.
  result.mapError Fault.told

/-- A text that holds the given numbers. -/
def written (numbers : List Int) (text : String) : Except Fault String :=
  -- The text is only asked for once its numbers can be written.
  (checkNumbers numbers).map fun _ => text

end Overlap
