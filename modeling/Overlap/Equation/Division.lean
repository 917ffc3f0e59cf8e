import Overlap.Fault

/-! Integer quotients, rounded down or up. -/

namespace Overlap

/-- The largest integer that is not above the quotient. -/
def floorQuotient (a b : Int) : Except Fault Int :=
  -- The quotient is rounded towards lower numbers for divisors of either sign.
  if b = 0 then .error .zeroDivisor else .ok (a.fdiv b)

/-- The smallest integer that is not below the quotient. -/
def ceilQuotient (a b : Int) : Except Fault Int :=
  -- Rounding up is rounding down on the other side of zero.
  if b = 0 then .error .zeroDivisor else .ok (-((-a).fdiv b))

/-- The remainder that belongs to the quotient rounded down. -/
def floorRemainder (a b : Int) : Except Fault Int :=
  -- The remainder has the sign of the divisor.
  if b = 0 then .error .zeroDivisor else .ok (a.fmod b)

end Overlap
