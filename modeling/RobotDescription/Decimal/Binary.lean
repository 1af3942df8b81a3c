/-!
# Binary64 numbers

A double is kept as its 64 bits. Below the sign bit stands the *magnitude*, a natural number that
grows with the absolute value. A finite magnitude denotes a whole number of *units*, where one
unit is the least positive double, `2 ^ -1074`; so exact arithmetic on doubles is arithmetic on
natural numbers.
-/

namespace RobotDescription

/-- A binary64 floating point number, given by its bits. -/
structure Binary64 where
  bits : UInt64
deriving DecidableEq, Repr

namespace Binary64

/-- The place of the sign bit. -/
def signPlace : Nat := Nat.pow 2 63

/-- The number of different fractions that share one exponent. -/
def fractionCount : Nat := Nat.pow 2 52

/-- The magnitude of an infinity: the first one that is not finite. -/
def infiniteMagnitude : Nat := 2047 * fractionCount

/-- The magnitude of the NaN that the library itself makes. -/
def quietMagnitude : Nat := infiniteMagnitude + Nat.pow 2 51

def isNegative (x : Binary64) : Bool :=
  signPlace ≤ x.bits.toNat

/-- The bits below the sign. -/
def magnitude (x : Binary64) : Nat :=
  x.bits.toNat % signPlace

/-- The double with a given sign and magnitude. -/
def ofMagnitude (negative : Bool) (magnitude : Nat) : Binary64 :=
  ⟨UInt64.ofNat ((if negative then signPlace else 0) + magnitude)⟩

def isFinite (x : Binary64) : Bool :=
  x.magnitude < infiniteMagnitude

def isInfinite (x : Binary64) : Bool :=
  x.magnitude == infiniteMagnitude

def isNaN (x : Binary64) : Bool :=
  infiniteMagnitude < x.magnitude

def zero : Binary64 := ⟨0⟩

def infinity (negative : Bool) : Binary64 :=
  ofMagnitude negative infiniteMagnitude

def nan (negative : Bool) : Binary64 :=
  ofMagnitude negative quietMagnitude

/-- The binary exponent of a magnitude, in units: subnormal numbers share that of the least normal
ones. -/
def scaleOf (magnitude : Nat) : Nat :=
  magnitude / fractionCount - 1

/-- The integer that is multiplied by a power of two. -/
def significandOf (magnitude : Nat) : Nat :=
  magnitude - scaleOf magnitude * fractionCount

/-- The absolute value of a finite magnitude, in units. -/
def unitsOf (magnitude : Nat) : Nat :=
  significandOf magnitude * Nat.pow 2 (scaleOf magnitude)

def unitsPerOne : Nat := Nat.pow 2 1074

/-- Comparison of values: the two zeros are equal, and a NaN equals nothing. -/
def sameValue (x y : Binary64) : Bool :=
  !x.isNaN && !y.isNaN && (x.bits == y.bits || (x.magnitude == 0 && y.magnitude == 0))

end Binary64

end RobotDescription
