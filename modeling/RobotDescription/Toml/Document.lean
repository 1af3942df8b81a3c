import RobotDescription.Toml.Moment
import RobotDescription.Toml.Number
import RobotDescription.Toml.Quoted
import RobotDescription.Toml.Table

/-!
# Reading a TOML document

A document is a list of sections. Each has a header, apart from the first, and definitions of
values by keys. It is read as a whole: one mistake anywhere leaves nothing of it.
-/

namespace RobotDescription.Toml

/-- Reading consumes text from the front, or fails. -/
abbrev Reader := StateT (List Char) Option

namespace Reader

/-- The greatest number of collections around a value, and the greatest number of parts of a key. -/
def maxDepth : Nat := 79

def ofFunction {α : Type} (read : List Char → Option (α × List Char)) : Reader α := read

def peek : Reader (Option Char) := return (← get).head?

def mark (c : Char) : Reader Unit := do
  match ← get with
  | first :: rest => if first = c then set rest else failure
  | [] => failure

def skipGap : Reader Unit := modify (·.dropWhile isGap)

/-- Moves over a comment to the end of its line. -/
def skipComment : Reader Unit := do
  if (← peek) = some '#' then modify (·.dropWhile isPrintable)

def lineEnd : Reader Unit := do
  match afterLineEnd? (← get) with
  | some rest => set rest
  | none => failure

/-- Reads what may follow in a line: blanks, a comment, and the end of the line or the text. -/
def restOfLine : Reader Unit := do
  skipGap
  skipComment
  if (← get).isEmpty then return () else lineEnd

/-- Moves over blanks, comments and line ends, in a text of at most so many characters. -/
def skipLines : Nat → Reader Unit
  | 0 => return ()
  | fuel + 1 => do
    skipGap
    match ← peek with
    | some c =>
      if c == '#' || c == '\n' || c == '\r' then
        restOfLine
        skipLines fuel
      else return ()
    | none => return ()

/-- Reads a key of at most so many parts. -/
def keyParts : Nat → Reader Key
  | 0 => failure
  | count + 1 => do
    skipGap
    let part ← ofFunction Quoted.keyPart?
    skipGap
    let name := String.ofList part
    if (← peek) = some '.' then
      mark '.'
      let rest ← keyParts count
      return { rest with parents := name :: rest.parents }
    else return { name := name }

def key : Reader Key := keyParts maxDepth

/-- Reads the items of an array after its bracket, in a text of at most so many characters. -/
def items (item : Reader Value) : Nat → Reader (List Value)
  | 0 => failure
  | fuel + 1 => do
    skipLines fuel
    if (← peek) = some ']' then
      mark ']'
      return []
    else
      let first ← item
      skipLines fuel
      if (← peek) = some ',' then
        mark ','
        return first :: (← items item fuel)
      else
        mark ']'
        return [first]

/-- Reads a key with its value, within a line. -/
def pair (value : Reader Value) : Reader (Key × Value) := do
  let name ← key
  mark '='
  skipGap
  let v ← value
  skipGap
  return (name, v)

/-- Reads the pairs of a table between braces after a pair or its opening brace. -/
def pairs (value : Reader Value) : Nat → Reader (List (Key × Value))
  | 0 => failure
  | fuel + 1 => do
    let first ← pair value
    if (← peek) = some ',' then
      mark ','
      return first :: (← pairs value fuel)
    else return [first]

/-- Reads the pairs of a table after its opening brace. The table is complete with its closing
brace. -/
def inlineTable (value : Reader Value) : Reader Value := do
  skipGap
  let found ←
    if (← peek) = some '\x7d' then pure []
    else pairs value (← get).length
  mark '\x7d'
  match Entries.insertAll [] found with
  | some entries => return entries.toValue
  | none => failure

/-- Reads one of the words that stand for truth values. -/
def word (text : String) (v : Value) : Reader Value := do
  let chars ← get
  if chars.take text.length = text.toList then
    set (chars.drop text.length)
    return v
  else failure

/-- Reads a value, given how values inside of it are read; without that, it cannot be a
collection. -/
def valueAround (inner : Option (Reader Value)) : Reader Value := do
  match ← peek with
  | none => failure
  | some c =>
    if c == '"' || c == '\'' then return .text (String.ofList (← ofFunction Quoted.string?))
    else if c == '[' || c == '\x7b' then
      match inner with
      | none => failure
      | some inner =>
        mark c
        if c == '[' then return .array (← items inner (← get).length) else inlineTable inner
    else if c == 't' then word "true" (.bool true)
    else if c == 'f' then word "false" (.bool false)
    else
      let text ← get
      -- Numbers begin with digits too, but no mark of a date or a time follows in their place.
      if Moment.beginsDate text || Moment.beginsTime text then ofFunction Moment.moment?
      else ofFunction Number.number?

/-- Reads a value with at most so many collections inside each other. -/
def value : Nat → Reader Value
  | 0 => valueAround none
  | depth + 1 => valueAround (some (value depth))

/-- The header of a section. -/
structure Header where
  key : Key
  /-- It opens one more table of an array. -/
  isElement : Bool
deriving DecidableEq, Repr

/-- A line that is not empty: the header of a section, or a definition. -/
inductive Line where
  | header (header : Header)
  | pair (key : Key) (value : Value)

def header : Reader Header := do
  mark '['
  let isElement := (← peek) = some '['
  if isElement then mark '['
  let name ← key
  mark ']'
  if isElement then mark ']'
  return ⟨name, isElement⟩

/-- Reads lines to the end of a text of at most so many characters. -/
def lines : Nat → Reader (List Line)
  | 0 => return []
  | fuel + 1 => do
    skipLines fuel
    match ← peek with
    | none => return []
    | some c =>
      let line ←
        if c == '[' then pure (Line.header (← header))
        else do
          let (name, v) ← pair (value maxDepth)
          pure (Line.pair name v)
      restOfLine
      return line :: (← lines fuel)

end Reader

/-- A section: its header, apart from the first one, and what it defines. -/
structure Section where
  header : Option Reader.Header
  pairs : List (Key × Value)

/-- The sections that lines make up, where the definitions in front belong to a section with the
given header. -/
def sections (header : Option Reader.Header) (pairs : List (Key × Value)) :
    List Reader.Line → List Section
  | [] => [⟨header, pairs⟩]
  | .header next :: rest => ⟨header, pairs⟩ :: sections (some next) [] rest
  | .pair key value :: rest => sections header (pairs ++ [(key, value)]) rest

/-- Adds a section to the tables built so far. -/
def Entries.addSection (entries : Entries) (part : Section) : Option Entries :=
  match part.header with
  | none => entries.insertAll part.pairs
  | some header =>
    entries.alterBelow (fun inner =>
      if header.isElement then inner.openElement header.key.name (·.insertAll part.pairs)
      else inner.openTable header.key.name (·.insertAll part.pairs)) header.key.parents

/-- The text without the mark that may open it. -/
def dropByteOrderMark : List Char → List Char
  | '\ufeff' :: rest => rest
  | text => text

/-- Reads a document; its value is a table. -/
def Value.ofText? (text : String) : Option Value := do
  let chars := dropByteOrderMark text.toList
  let (lines, rest) ← (Reader.lines (chars.length + 1)).run chars
  if !rest.isEmpty then none
  let entries ← (sections none [] lines).foldlM Entries.addSection []
  return Entries.toValue entries

end RobotDescription.Toml
