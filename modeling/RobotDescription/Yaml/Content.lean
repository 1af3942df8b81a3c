import RobotDescription.Decimal.Reading
import RobotDescription.Text.Hexadecimal
import RobotDescription.Yaml.Node

/-!
# What scalars stand for

The core kinds of plain scalars: null, booleans, integers and floats. Everything else is a text.
-/

namespace RobotDescription.Yaml

/-- What a scalar stands for. -/
inductive Content where
  | null
  | bool (value : Bool)
  | int (value : Int)
  | float (value : Binary64)
  | text (value : String)
deriving DecidableEq, Repr

namespace Content

def isNull (text : String) : Bool :=
  ["~", "null", "Null", "NULL"].contains text

def bool? (text : String) : Option Bool :=
  if ["true", "True", "TRUE"].contains text then some true
  else if ["false", "False", "FALSE"].contains text then some false
  else none

/-- The digits of a decimal number that may not be one: more than one, beginning with a zero. -/
def hasLeadingZero (digits : List Char) : Bool :=
  match digits with
  | '0' :: second :: rest => (second :: rest).all Char.isDigit
  | _ => false

/-- The value of digits in a base, all of them and at least one. -/
def inBase? (base : Nat) (digits : List Char) : Option Nat :=
  if digits.isEmpty then none else Text.valueInBase? base digits

/-- A number without sign: decimal, or after `0x`, `0o` or `0b` in another base. -/
def natural? (text : List Char) : Option Nat :=
  match text with
  | '0' :: 'x' :: digits => inBase? 16 digits
  | '0' :: 'o' :: digits => inBase? 8 digits
  | '0' :: 'b' :: digits => inBase? 2 digits
  | digits => if hasLeadingZero digits then none else inBase? 10 digits

/-- An integer with an optional sign that fits 128 bits. -/
def int? (text : String) : Option Int :=
  match text.toList with
  | '-' :: rest => ((natural? rest).filter (· ≤ Nat.pow 2 127)).map fun n => -(n : Int)
  | '+' :: rest => ((natural? rest).filter (· < Nat.pow 2 128)).map Int.ofNat
  | rest => ((natural? rest).filter (· < Nat.pow 2 128)).map Int.ofNat

/-- A plus sign in front of a literal is dropped, unless another sign follows it. -/
def dropPlus? (text : List Char) : Option (List Char) :=
  match text with
  | '+' :: rest => if rest.head?.any "+-".toList.contains then none else some rest
  | _ => some text

/-- A float: infinity, not a number, or a decimal literal of finite value. -/
def float? (text : String) : Option Binary64 :=
  if ["-.inf", "-.Inf", "-.INF"].contains text then some (.infinity true)
  else if [".nan", ".NaN", ".NAN"].contains text then some (.nan false)
  else
    (dropPlus? text.toList).bind fun literal =>
      if [".inf", ".Inf", ".INF"].contains (String.ofList literal) then some (.infinity false)
      else Binary64.ofFiniteLiteral? literal

/-- What a plain scalar without a tag stands for. Digits with leading zeros are a text. -/
def ofPlain (text : String) : Content :=
  if text.isEmpty || isNull text then .null
  else
    match bool? text, int? text with
    | some b, _ => .bool b
    | none, some n => .int n
    | none, none =>
      let digits := (Binary64.takeSign text.toList).2
      if hasLeadingZero digits then .text text
      else
        match float? text with
        | some x => .float x
        | none => .text text

end Content

/-- The kinds that a tag can force. -/
inductive CoreTag where
  | null
  | bool
  | int
  | float
deriving DecidableEq, Repr

def CoreTag.ofAddress? (address : String) : Option CoreTag :=
  if address = "tag:yaml.org,2002:null" then some .null
  else if address = "tag:yaml.org,2002:bool" then some .bool
  else if address = "tag:yaml.org,2002:int" then some .int
  else if address = "tag:yaml.org,2002:float" then some .float
  else none

/-- The bytes of an address are the encoding of a text. -/
def encodesText (address : List Char) : Bool :=
  (String.fromUTF8? ⟨(address.map fun c => UInt8.ofNat c.toNat).toArray⟩).isSome

/-- A tag of the document's own, which no kind belongs to: an exclamation mark and a text. -/
def isLocalTag (tag : Option String) : Bool :=
  match tag with
  | some address =>
    match address.toList with
    | '!' :: name => encodesText name
    | _ => false
  | none => false

namespace Scalar

def coreTag? (s : Scalar) : Option CoreTag :=
  s.tag.bind CoreTag.ofAddress?

/-- What a scalar stands for; nothing, if its text contradicts its tag. -/
def content? (s : Scalar) : Option Content :=
  match s.coreTag? with
  | some .null => if Content.isNull s.text then some .null else none
  | some .bool => (Content.bool? s.text).map .bool
  | some .int => (Content.int? s.text).map .int
  | some .float => (Content.float? s.text).map .float
  | none =>
    if s.style = .plain && s.tag.all (·.startsWith "!") then some (.ofPlain s.text)
    else some (.text s.text)

/-- Nothing is written. -/
def isAbsent (s : Scalar) : Bool :=
  s.style = .plain && s.text.isEmpty

end Scalar

end RobotDescription.Yaml
