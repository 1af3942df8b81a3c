import RobotDescription.Decimal.Rounding

/-!
# Reading decimals

A decimal literal is read exactly and rounded once. The grammar: an optional sign, digits with an
optional point somewhere among them (at least one digit in all), and an optional exponent.
-/

namespace RobotDescription

/-- The value of a decimal digit, which must be an ASCII one. -/
def digitValue (c : Char) : Nat :=
  c.toNat - '0'.toNat

/-- The natural number that a list of decimal digits denotes. -/
def digitsValue (digits : List Char) : Nat :=
  digits.foldl (fun n c => 10 * n + digitValue c) 0

namespace Binary64

/-- The double nearest to `digits * 10 ^ exponent`. A number so large or so small that its size
alone decides is not computed: every double is zero or lies between `10 ^ -324` and `10 ^ 309`. -/
def ofScientific (negative : Bool) (digits : Nat) (exponent : Int) : Binary64 :=
  let length := (Nat.toDigits 10 digits).length
  if digits = 0 || exponent + length < -400 then ofMagnitude negative 0
  else if 400 < exponent + length then infinity negative
  else nearest negative (digits * Nat.pow 10 exponent.toNat) (Nat.pow 10 (-exponent).toNat)

/-- An optional sign at the front: whether it is a minus, and the rest. -/
def takeSign : List Char → Bool × List Char
  | '-' :: rest => (true, rest)
  | '+' :: rest => (false, rest)
  | rest => (false, rest)

/-- The exponent after the digits: absent, or `e` with an optional sign and digits to the end. -/
def readExponent? : List Char → Option Int
  | [] => some 0
  | mark :: rest =>
    if mark = 'e' || mark = 'E' then
      let (negative, digits) := takeSign rest
      if digits ≠ [] && digits.all Char.isDigit then
        some (if negative then -(digitsValue digits : Int) else digitsValue digits)
      else none
    else none

/-- Reads a decimal literal; what is too large becomes infinite. -/
def ofLiteral? (text : List Char) : Option Binary64 :=
  let (negative, unsigned) := takeSign text
  let whole := unsigned.takeWhile Char.isDigit
  let afterWhole := unsigned.dropWhile Char.isDigit
  let (fraction, afterFraction) :=
    match afterWhole with
    | '.' :: rest => (rest.takeWhile Char.isDigit, rest.dropWhile Char.isDigit)
    | rest => ([], rest)
  if whole = [] && fraction = [] then none
  else
    (readExponent? afterFraction).map fun exponent =>
      ofScientific negative (digitsValue (whole ++ fraction)) (exponent - fraction.length)

/-- Reads a decimal literal whose value is finite. -/
def ofFiniteLiteral? (text : List Char) : Option Binary64 :=
  (ofLiteral? text).filter isFinite

end Binary64

end RobotDescription
