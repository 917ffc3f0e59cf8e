/-! Signed 64-bit words, as the integers that they hold. -/

namespace Overlap.Word

/-- The number can be held in a word. -/
def Fits (value : Int) : Prop :=
  -- There is one negative number more than there are positive ones.
  -0x8000000000000000 ≤ value ∧ value < 0x8000000000000000

/-- Fitting is settled by comparing with the ends. -/
instance (value : Int) : Decidable (Fits value) :=
  -- Both comparisons are between integers.
  inferInstanceAs (Decidable (_ ∧ _))

/-- The number that a word holds after an operation: the result up to
multiples of two to the 64th. -/
def wrap (value : Int) : Int :=
  -- Numbers that fit are not touched, which keeps the usual case simple.
  if Fits value then value else value.bmod 0x10000000000000000

/-- A number that fits is held as it is. -/
theorem wrap_of_fits {value : Int} (fits : Fits value) : wrap value = value :=
  -- This is the first branch of the definition.
  if_pos fits

end Overlap.Word
