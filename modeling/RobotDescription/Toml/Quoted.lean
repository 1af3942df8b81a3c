import RobotDescription.Text.Hexadecimal

/-!
# Strings and bare keys

The four kinds of strings: between double quotes with escapes, between single quotes as they
stand, and each of them in one line or, with threefold quotes, in several. A reader takes the text
after the opening quotes, and gives the string with the text after the closing ones.
-/

namespace RobotDescription.Toml

/-- A space or a tab. -/
def isGap (c : Char) : Bool :=
  c == ' ' || c == '\t'

/-- A character that may stand in comments and strings: no control character but the tab. -/
def isPrintable (c : Char) : Bool :=
  c == '\t' || (0x20 ≤ c.toNat && c.toNat ≠ 0x7F)

/-- A character of keys without quotes. -/
def isBare (c : Char) : Bool :=
  c.isAlphanum || c == '-' || c == '_'

/-- The rest of a text after a line end. -/
def afterLineEnd? : List Char → Option (List Char)
  | '\n' :: rest => some rest
  | '\r' :: '\n' :: rest => some rest
  | _ => none

namespace Quoted

/-- A string that was read, and the text after it. -/
abbrev Result := Option (List Char × List Char)

/-- The result with one more character in front of the string. -/
def cons (c : Char) (result : Result) : Result :=
  result.map fun (text, rest) => (c :: text, rest)

/-- The result with the character of a number in front, if there is such a character. -/
def consNumbered (digits : List Char) (result : Result) : Result := do
  let n ← Text.hexValue? digits
  let c ← Text.charOfNat? n
  cons c result

/-- The character written as a backslash and one other character. -/
def shortEscape? (c : Char) : Option Char :=
  match c with
  | 'b' => some '\x08'
  | 't' => some '\t'
  | 'n' => some '\n'
  | 'f' => some '\x0c'
  | 'r' => some '\r'
  | '"' => some '"'
  | '\\' => some '\\'
  | _ => none

/-- Reads to the double quote. -/
def basic? : List Char → Result
  | [] => none
  | '"' :: rest => some ([], rest)
  | '\\' :: 'u' :: a :: b :: c :: d :: rest => consNumbered [a, b, c, d] (basic? rest)
  | '\\' :: 'U' :: a :: b :: c :: d :: e :: f :: g :: h :: rest =>
    consNumbered [a, b, c, d, e, f, g, h] (basic? rest)
  | '\\' :: c :: rest =>
    match shortEscape? c with
    | some escaped => cons escaped (basic? rest)
    | none => none
  | c :: rest => if isPrintable c && c != '\\' then cons c (basic? rest) else none

/-- Reads to the single quote. -/
def literal? : List Char → Result
  | [] => none
  | '\'' :: rest => some ([], rest)
  | c :: rest => if isPrintable c then cons c (literal? rest) else none

/-- Nothing but blanks is left of the line. -/
def endsLine (text : List Char) : Bool :=
  (afterLineEnd? (text.dropWhile isGap)).isSome

/-- Reads to three double quotes; up to two more may stand before them. A backslash at the end of
a line takes away the line end and all blanks and line ends after it, which is what `joining`
says. -/
def basicLines? (joining : Bool) : List Char → Result
  | [] => none
  | '\r' :: '\n' :: rest =>
    if joining then basicLines? true rest else cons '\n' (basicLines? false rest)
  | '"' :: '"' :: '"' :: '"' :: '"' :: rest => some (['"', '"'], rest)
  | '"' :: '"' :: '"' :: '"' :: rest => some (['"'], rest)
  | '"' :: '"' :: '"' :: rest => some ([], rest)
  | '\\' :: 'u' :: a :: b :: c :: d :: rest => consNumbered [a, b, c, d] (basicLines? false rest)
  | '\\' :: 'U' :: a :: b :: c :: d :: e :: f :: g :: h :: rest =>
    consNumbered [a, b, c, d, e, f, g, h] (basicLines? false rest)
  | '\\' :: c :: rest =>
    if endsLine (c :: rest) then basicLines? true (c :: rest)
    else
      match shortEscape? c with
      | some escaped => cons escaped (basicLines? false rest)
      | none => none
  | c :: rest =>
    if joining && (isGap c || c == '\n') then basicLines? true rest
    else if c == '\n' || (isPrintable c && c != '\\') then cons c (basicLines? false rest)
    else none

/-- Reads to three single quotes; up to two more may stand before them. -/
def literalLines? : List Char → Result
  | [] => none
  | '\r' :: '\n' :: rest => cons '\n' (literalLines? rest)
  | '\'' :: '\'' :: '\'' :: '\'' :: '\'' :: rest => some (['\'', '\''], rest)
  | '\'' :: '\'' :: '\'' :: '\'' :: rest => some (['\''], rest)
  | '\'' :: '\'' :: '\'' :: rest => some ([], rest)
  | c :: rest => if c == '\n' || isPrintable c then cons c (literalLines? rest) else none

/-- The text without a line end at its front. -/
def dropLineEnd (text : List Char) : List Char :=
  (afterLineEnd? text).getD text

/-- Reads a string of any kind from its opening quotes. -/
def string? : List Char → Result
  | '"' :: '"' :: '"' :: rest => basicLines? false (dropLineEnd rest)
  | '\'' :: '\'' :: '\'' :: rest => literalLines? (dropLineEnd rest)
  | '"' :: rest => basic? rest
  | '\'' :: rest => literal? rest
  | _ => none

/-- Reads one part of a key: a string in one line, or bare. -/
def keyPart? : List Char → Result
  | '"' :: rest => basic? rest
  | '\'' :: rest => literal? rest
  | text =>
    let bare := text.takeWhile isBare
    if bare.isEmpty then none else some (bare, text.dropWhile isBare)

end Quoted

end RobotDescription.Toml
