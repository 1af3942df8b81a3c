import RobotDescription.Decimal.Reading
import RobotDescription.Text.Hexadecimal
import RobotDescription.Toml.Value

/-!
# Numbers

Digits may be grouped by underscores, each between two digits. A decimal number has no leading
zeros. An integer must fit 64 bits; a float without a minus sign must not be too large for a
double.
-/

namespace RobotDescription.Toml.Number

/-- Reads on through digits after a digit: those that follow without their underscores, and the
text after them. -/
def moreDigits? (isDigit : Char → Bool) : List Char → Option (List Char × List Char)
  | '_' :: c :: rest =>
    if isDigit c then (moreDigits? isDigit rest).map fun (digits, after) => (c :: digits, after)
    else none
  | '_' :: [] => none
  | c :: rest =>
    if isDigit c then (moreDigits? isDigit rest).map fun (digits, after) => (c :: digits, after)
    else some ([], c :: rest)
  | [] => some ([], [])

/-- Reads one digit or more. -/
def digits? (isDigit : Char → Bool) : List Char → Option (List Char × List Char)
  | c :: rest =>
    if isDigit c then (moreDigits? isDigit rest).map fun (digits, after) => (c :: digits, after)
    else none
  | [] => none

def whole? : List Char → Option (List Char × List Char)
  | '0' :: rest => some (['0'], rest)
  | text => digits? Char.isDigit text

/-- Reads the fraction after a whole number, if there is one: the text it is written as, without
underscores. -/
def fraction? : List Char → Option (List Char × List Char)
  | '.' :: rest => (digits? Char.isDigit rest).map fun (digits, after) => ('.' :: digits, after)
  | text => some ([], text)

/-- Reads the exponent after a number, if there is one. -/
def exponent? : List Char → Option (List Char × List Char)
  | mark :: rest =>
    if mark == 'e' || mark == 'E' then
      let sign := rest.take 1 |>.filter fun c => c == '+' || c == '-'
      (digits? Char.isDigit (rest.drop sign.length)).map fun (digits, after) =>
        (mark :: sign ++ digits, after)
    else some ([], mark :: rest)
  | [] => some ([], [])

def ofInt? (n : Int) : Option Value :=
  if Int64.minValue.toInt ≤ n && n ≤ Int64.maxValue.toInt then some (.int (Int64.ofInt n))
  else none

def inBase? (base : Nat) (text : List Char) : Option (Value × List Char) := do
  let (digits, rest) ← digits? (fun c => (Text.hexDigit? c).any (· < base)) text
  let n ← Text.valueInBase? base digits
  return (← ofInt? n, rest)

/-- Reads a decimal number with an optional sign: a float, if it has a fraction or an exponent. -/
def decimal? (text : List Char) : Option (Value × List Char) := do
  let (negative, unsigned) := Binary64.takeSign text
  let (whole, afterWhole) ← whole? unsigned
  let (fraction, afterFraction) ← fraction? afterWhole
  let (exponent, rest) ← exponent? afterFraction
  if fraction.isEmpty && exponent.isEmpty then
    let n : Int := digitsValue whole
    return (← ofInt? (if negative then -n else n), rest)
  else
    let sign := if negative then ['-'] else []
    let x ← Binary64.ofLiteral? (sign ++ whole ++ fraction ++ exponent)
    if x = .infinity false then none else return (.float x, rest)

def number? (text : List Char) : Option (Value × List Char) :=
  let (negative, unsigned) := Binary64.takeSign text
  match text, unsigned with
  | '0' :: 'x' :: rest, _ => inBase? 16 rest
  | '0' :: 'o' :: rest, _ => inBase? 8 rest
  | '0' :: 'b' :: rest, _ => inBase? 2 rest
  | _, 'i' :: 'n' :: 'f' :: rest => some (.float (.infinity negative), rest)
  | _, 'n' :: 'a' :: 'n' :: rest => some (.float (.nan negative), rest)
  | _, _ => decimal? text

end RobotDescription.Toml.Number
