import RobotDescription.Text.Hexadecimal
import RobotDescription.Yaml.Cursor
import RobotDescription.Yaml.Token

/-!
# Anchors, tags and directives

A tag is an address. It is written in full between angle brackets, or as a handle and a suffix,
where a directive tells what address the handle stands for. An address consists of bytes, each
kept as the character of its number; a byte may be escaped by a per cent sign.
-/

namespace RobotDescription.Yaml

/-- The byte written as a per cent sign and two hexadecimal digits. -/
def escapedByte? : List Char → Option Nat
  | '%' :: high :: low :: _ => Text.hexValue? [high, low]
  | _ => none

/-- The number of bytes of a character by its first byte. -/
def encodedLength? (lead : Nat) : Option Nat :=
  if lead < 0x80 then some 1
  else if lead < 0xC0 then none
  else if lead < 0xE0 then some 2
  else if lead < 0xF0 then some 3
  else if lead < 0xF8 then some 4
  else none

/-- The escaped bytes of one character, which must be as many as the first tells and go on as
others do. -/
def escapedBytes? (text : List Char) : Option (List Char) := do
  let lead ← escapedByte? text
  let count ← encodedLength? lead
  let others ← (List.range (count - 1)).mapM fun i =>
    (escapedByte? (text.drop (3 * (i + 1)))).filter (· / 0x40 = 2)
  return (lead :: others).map Char.ofNat

/-- Reads the longest address and tells its number of characters. Brackets and commas belong to it
only where `verbatim`. -/
def address? (verbatim : Bool) (text : List Char) : Option (List Char × Nat) :=
  match text with
  | [] => some ([], 0)
  | c :: rest =>
    if c == '%' then
      match escapedBytes? text with
      | none => none
      | some bytes =>
        (address? verbatim (rest.drop (3 * bytes.length - 1))).map fun (tail, n) =>
          (bytes ++ tail, n + 3 * bytes.length)
    else if isWord c || isAddressMark c || (verbatim && ",[]".toList.contains c) then
      (address? verbatim rest).map fun (tail, n) => (c :: tail, n + 1)
    else some ([], 0)
termination_by text.length
decreasing_by
  · rw [List.length_drop, List.length_cons]
    omega
  · exact Nat.lt_succ_self rest.length

/-- An address counts up to a null byte. -/
def addressText (bytes : List Char) : String :=
  String.ofList (bytes.takeWhile (· != '\x00'))

/-- Reads an address that is not empty, and moves past it. -/
def Cursor.address? (c : Cursor) (verbatim : Bool) : Option (String × Cursor) := do
  let (bytes, n) ← Yaml.address? verbatim c.rest
  if n = 0 then none else return (addressText bytes, c.skip n)

/-- Reads a tag at its exclamation mark, apart from what must follow it. -/
def Cursor.tag? (c : Cursor) : Option (Token × Cursor) :=
  if c.peekAt 1 = some '<' then do
    let (text, stop) ← (c.skip 2).address? true
    if stop.sees '>' then return (.tag "" text, stop.skip 1) else none
  else do
    let (word, afterWord) := (c.skip 1).takeWhile isWord
    if afterWord.sees '!' then
      let (text, stop) ← (afterWord.skip 1).address? false
      return (.tag ("!" ++ String.ofList word ++ "!") text, stop)
    else
      let (bytes, n) ← Yaml.address? false afterWord.rest
      let suffix := addressText (word ++ bytes)
      let token := if suffix.isEmpty then .tag "" "!" else .tag "!" suffix
      return (token, afterWord.skip n)

/-- Reads the name of an anchor or an alias after its indicator. -/
def Cursor.anchorName? (c : Cursor) : Option (String × Cursor) :=
  let (name, stop) := c.takeWhile isWord
  if !name.isEmpty && (isApart stop.peek || stop.peek.any "?:,]\x7d%@\x60".toList.contains) then
    some (String.ofList name, stop)
  else none

/-- Reads a number of at most nine digits. -/
def Cursor.versionNumber? (c : Cursor) : Option (Nat × Cursor) :=
  let (digits, stop) := c.takeWhile Char.isDigit
  if digits.isEmpty || 9 < digits.length then none
  else some (digits.foldl (fun n d => 10 * n + (d.toNat - '0'.toNat)) 0, stop)

def Cursor.version? (c : Cursor) : Option (Token × Cursor) := do
  let (major, afterMajor) ← c.versionNumber?
  if !afterMajor.sees '.' then none
  let (minor, stop) ← (afterMajor.skip 1).versionNumber?
  return (.version major minor, stop)

/-- Reads a handle and the address that it stands for. -/
def Cursor.tagShorthand? (c : Cursor) : Option (Token × Cursor) := do
  if !c.sees '!' then none
  let (word, afterWord) := (c.skip 1).takeWhile isWord
  let closed := afterWord.sees '!'
  if !closed && !word.isEmpty then none
  let handle := "!" ++ String.ofList word ++ (if closed then "!" else "")
  let afterHandle := if closed then afterWord.skip 1 else afterWord
  if !afterHandle.peek.any isGap then none
  let (text, stop) ← (afterHandle.skipWhile isGap).address? true
  if isApart stop.peek then return (.tagShorthand handle text, stop) else none

/-- Reads a directive at its per cent sign, to the end of its line. -/
def Cursor.directive? (c : Cursor) : Option (Token × Cursor) := do
  let (name, afterName) := (c.skip 1).takeWhile isWord
  if name.isEmpty || !isApart afterName.peek then none
  let start := afterName.skipWhile isGap
  let (token, stop) ←
    if name = "YAML".toList then start.version?
    else if name = "TAG".toList then start.tagShorthand?
    else none
  return (token, ← stop.restOfLine?)

end RobotDescription.Yaml
