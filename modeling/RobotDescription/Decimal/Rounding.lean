import RobotDescription.Decimal.Binary

/-!
# Rounding to binary64

A non-negative rational is rounded to the nearest double, a tie going to the one whose last bit is
zero. What lies at or beyond the midpoint between the greatest double and the next power of two
becomes infinite.
-/

namespace RobotDescription

/-- The natural number nearest to `numerator / denominator`, a half going to the even neighbour. -/
def roundHalfEven (numerator denominator : Nat) : Nat :=
  let quotient := numerator / denominator
  let twice := 2 * (numerator % denominator)
  if twice < denominator then quotient
  else if denominator < twice then quotient + 1
  else quotient + quotient % 2

namespace Binary64

/-- The magnitude nearest to `numerator / denominator`.  The scale is chosen so that the
significand has 53 bits, or is zero for small numbers. A significand that is rounded up to `2 ^
53` carries into the next scale by itself, since a magnitude is the sum of its parts. -/
def nearestMagnitude (numerator denominator : Nat) : Nat :=
  let units := numerator * unitsPerOne
  let scale := (units / denominator).log2 - 52
  let significand := roundHalfEven units (denominator * Nat.pow 2 scale)
  min infiniteMagnitude (scale * fractionCount + significand)

def nearest (negative : Bool) (numerator denominator : Nat) : Binary64 :=
  ofMagnitude negative (nearestMagnitude numerator denominator)

def ofInt (n : Int) : Binary64 :=
  nearest (n < 0) n.natAbs 1

end Binary64

end RobotDescription
