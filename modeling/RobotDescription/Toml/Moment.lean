import RobotDescription.Toml.Value

/-!
# Dates and times

A date, a time of day, or a date with a time and perhaps its distance from universal time. The
calendar is checked; what the values mean beyond that is of no concern here.
-/

namespace RobotDescription.Toml.Moment

/-- Reads a number of exactly as many digits. -/
def number? : Nat → Nat → List Char → Option (Nat × List Char)
  | 0, n, text => some (n, text)
  | count + 1, n, c :: rest =>
    if c.isDigit then number? count (10 * n + (c.toNat - '0'.toNat)) rest else none
  | _ + 1, _, [] => none

/-- Reads a number of two digits between two bounds. -/
def between? (low high : Nat) (text : List Char) : Option (Nat × List Char) :=
  (number? 2 0 text).filter fun (n, _) => low ≤ n && n ≤ high

def mark? (c : Char) : List Char → Option (List Char)
  | first :: rest => if first = c then some rest else none
  | [] => none

def isLeapYear (year : Nat) : Bool :=
  year % 4 == 0 && (year % 100 != 0 || year % 400 == 0)

def daysIn (year month : Nat) : Nat :=
  if month = 2 then (if isLeapYear year then 29 else 28)
  else if [4, 6, 9, 11].contains month then 30
  else 31

def date? (text : List Char) : Option (List Char) := do
  let (year, rest) ← number? 4 0 text
  let (month, rest) ← between? 1 12 (← mark? '-' rest)
  let (_, rest) ← between? 1 (daysIn year month) (← mark? '-' rest)
  return rest

/-- Reads a fraction of a second, if there is one. -/
def fraction? (text : List Char) : Option (List Char) :=
  match text with
  | '.' :: rest =>
    if rest.head?.any Char.isDigit then some (rest.dropWhile Char.isDigit) else none
  | rest => some rest

def time? (text : List Char) : Option (List Char) := do
  let (_, rest) ← between? 0 23 text
  let (_, rest) ← between? 0 59 (← mark? ':' rest)
  let (_, rest) ← between? 0 60 (← mark? ':' rest)
  fraction? rest

/-- Reads the distance from universal time, if it is given. -/
def offset? (text : List Char) : Option (List Char) :=
  match text with
  | [] => some []
  | c :: rest =>
    if c == 'Z' || c == 'z' then some rest
    else if c == '+' || c == '-' then do
      let (_, afterHours) ← between? 0 23 rest
      let (_, stop) ← between? 0 59 (← mark? ':' afterHours)
      return stop
    else some text

/-- A date begins with four digits and a dash. -/
def beginsDate (text : List Char) : Bool :=
  (number? 4 0 text).any fun (_, rest) => rest.head? = some '-'

/-- A time begins with two digits and a colon. -/
def beginsTime (text : List Char) : Bool :=
  (number? 2 0 text).any fun (_, rest) => rest.head? = some ':'

/-- A character between a date and a time. -/
def isSeparator (c : Char) : Bool :=
  c == 'T' || c == 't' || c == ' '

/-- Reads what begins as a date or a time, and tells the text after it. -/
def stop? (text : List Char) : Option (List Char) :=
  if beginsDate text then do
    let afterDate ← date? text
    if afterDate.head?.any isSeparator && beginsTime afterDate.tail then
      offset? (← time? afterDate.tail)
    else return afterDate
  else time? text

def moment? (text : List Char) : Option (Value × List Char) := do
  let rest ← stop? text
  return (.moment (String.ofList (text.take (text.length - rest.length))), rest)

end RobotDescription.Toml.Moment
