import RobotDescription.Decimal.Rounding

/-!
# Shortest digits

The decimal digits that a finite double is printed with: as few as read back to the same double, of
those the nearest to its value, and of two equally near ones the greater.
-/

namespace RobotDescription

/-- The decimal number `digits * 10 ^ exponent`. -/
structure Scientific where
  digits : Nat
  exponent : Int
deriving DecidableEq, Repr

namespace Scientific

/-- The numerator of a decimal number written as a fraction of natural numbers. -/
def numerator (d : Scientific) : Nat :=
  d.digits * Nat.pow 10 d.exponent.toNat

/-- The denominator of a decimal number written as a fraction of natural numbers. -/
def denominator (d : Scientific) : Nat :=
  Nat.pow 10 (-d.exponent).toNat

/-- The magnitude of the double nearest to a decimal number. -/
def nearestMagnitude (d : Scientific) : Nat :=
  Binary64.nearestMagnitude d.numerator d.denominator

/-- Moves the zeros at the end of the digits into the exponent, at most `fuel` of them. -/
def dropZeros : Nat → Scientific → Scientific
  | 0, d => d
  | fuel + 1, d =>
    if d.digits % 10 = 0 then dropZeros fuel ⟨d.digits / 10, d.exponent + 1⟩ else d

end Scientific

/-- The number of decimal digits of a natural number. -/
def decimalLength (n : Nat) : Nat :=
  (Nat.toDigits 10 n).length

namespace Binary64

/-- The place of the first digit of a finite positive magnitude: its value is below `10 ^ place`
and not below `10 ^ (place - 1)`. -/
def decimalPlace (magnitude : Nat) : Int :=
  (decimalLength (unitsOf magnitude * Nat.pow 10 400 / unitsPerOne) : Int) - 400

/-- The two neighbours of a magnitude's value among the multiples of `10 ^ exponent`: the greatest
one that does not exceed it, and the next. -/
def gridFloor (magnitude : Nat) (exponent : Int) : Nat :=
  unitsOf magnitude * Nat.pow 10 (-exponent).toNat / (unitsPerOne * Nat.pow 10 exponent.toNat)

/-- The upper one of the two neighbours is at least as near. -/
def upperIsNearer (magnitude : Nat) (exponent : Int) : Bool :=
  let value := unitsOf magnitude * Nat.pow 10 (-exponent).toNat
  let step := unitsPerOne * Nat.pow 10 exponent.toNat
  step ≤ 2 * (value - gridFloor magnitude exponent * step)

/-- The one of two candidates that is accepted; of two that are, the upper one if it is nearer. -/
def choose? (accepts : Scientific → Bool) (lower upper : Scientific) (nearer : Bool) :
    Option Scientific :=
  match accepts lower, accepts upper with
  | true, true => some (if nearer then upper else lower)
  | true, false => some lower
  | false, true => some upper
  | false, false => none

/-- The multiple of `10 ^ exponent` that reads back as the magnitude, if there is one: of two the
nearer. -/
def onGrid? (magnitude : Nat) (exponent : Int) : Option Scientific :=
  choose? (·.nearestMagnitude == magnitude) ⟨gridFloor magnitude exponent, exponent⟩
    ⟨gridFloor magnitude exponent + 1, exponent⟩ (upperIsNearer magnitude exponent)

/-- The shortest decimal number that reads back as a finite magnitude, without zeros at its end.
Up to seventeen digits are tried. -/
def shortest (magnitude : Nat) : Scientific :=
  if magnitude = 0 then ⟨0, 0⟩
  else
    let place := decimalPlace magnitude
    -- From the coarsest grid on: each allows one digit more.
    let found := (List.range 17).findSome? fun n : Nat => onGrid? magnitude (place - (n + 1))
    (found.getD ⟨0, 0⟩).dropZeros 20

end Binary64

end RobotDescription
