import RobotDescription.Decimal.Shortest

/-!
# Positional notation

Doubles as text: shortest digits, never an exponent, and always at least one digit on each side of
the point.
-/

namespace RobotDescription

namespace Scientific

/-- A decimal number in positional notation. A whole number gets the fraction `0`. -/
def positional (d : Scientific) : List Char :=
  let digits := Nat.toDigits 10 d.digits
  match d.exponent with
  | .ofNat zeros => digits ++ List.replicate zeros '0' ++ ['.', '0']
  | .negSucc below =>
    let places := below + 1
    if places < digits.length then
      digits.take (digits.length - places) ++ '.' :: digits.drop (digits.length - places)
    else
      '0' :: '.' :: (List.replicate (places - digits.length) '0' ++ digits)

end Scientific

namespace Binary64

/-- A double as text: `NaN`, `inf`, `-inf`, or shortest digits in positional notation after the
sign. -/
def toText (x : Binary64) : String :=
  if x.isNaN then "NaN"
  else
    let unsigned := if x.isInfinite then "inf" else String.ofList (shortest x.magnitude).positional
    if x.isNegative then "-" ++ unsigned else unsigned

end Binary64

end RobotDescription
