import RobotDescription.Yaml.Character

/-!
# A place in a text

What is left to read, with the position reached: its offset in bytes, its line, and its column in
characters. A line feed after a carriage return belongs to the same line end.
-/

namespace RobotDescription.Yaml

/-- The number of bytes that a text takes up. -/
def byteLength (text : List Char) : Nat :=
  text.foldr (fun c n => c.utf8Size + n) 0

/-- A place in a text and what follows it. -/
structure Cursor where
  rest : List Char
  /-- The number of bytes in front of it. -/
  offset : Nat := 0
  line : Nat := 0
  column : Nat := 0
deriving Repr

namespace Cursor

def size (c : Cursor) : Nat := c.rest.length

def peek (c : Cursor) : Option Char := c.rest.head?

def peekAt (c : Cursor) (distance : Nat) : Option Char := c.rest[distance]?

def sees (c : Cursor) (expected : Char) : Bool := c.rest.head? == some expected

/-- The place some characters on in the same line. -/
def skip (c : Cursor) (count : Nat := 1) : Cursor :=
  { c with
    rest := c.rest.drop count
    offset := c.offset + byteLength (c.rest.take count)
    column := c.column + count }

/-- The longest run of characters of a class, and the place after it. -/
def takeWhile (c : Cursor) (p : Char → Bool) : List Char × Cursor :=
  let run := c.rest.takeWhile p
  (run, c.skip run.length)

/-- The place after the longest run of characters of a class. -/
def skipWhile (c : Cursor) (p : Char → Bool) : Cursor :=
  (c.takeWhile p).2

/-- The place at the end of the line. -/
def skipLine (c : Cursor) : Cursor :=
  c.skipWhile (!isLineEnd ·)

/-- The place at the end of the line if a comment begins here. -/
def skipComment (c : Cursor) : Cursor :=
  if c.sees '#' then c.skipLine else c

/-- The place after a byte order mark at the beginning of a line. -/
def skipMark (c : Cursor) : Cursor :=
  if c.column == 0 && c.sees byteOrderMark then c.skip 1 else c

/-- The place `count` characters on, at the beginning of the next line. -/
def nextLine (c : Cursor) (count : Nat) : Cursor :=
  { rest := c.rest.drop count
    offset := c.offset + byteLength (c.rest.take count)
    line := c.line + 1
    column := 0 }

/-- The line end at this place as it is kept in a text, and the place after it. Separators of
lines and paragraphs are kept; every other line end is a line feed. -/
def lineEnd? (c : Cursor) : Option (Char × Cursor) :=
  match c.rest with
  | '\r' :: '\n' :: _ => some ('\n', c.nextLine 2)
  | first :: _ =>
    if first == '\u2028' || first == '\u2029' then some (first, c.nextLine 1)
    else if isLineEnd first then some ('\n', c.nextLine 1)
    else none
  | [] => none

/-- The place after a line end; the same place if there is none. -/
def skipLineEnd (c : Cursor) : Cursor :=
  match c.lineEnd? with
  | some (_, next) => next
  | none => c

/-- The place in the next line, if nothing but blanks and a comment is left in this one. -/
def restOfLine? (c : Cursor) : Option Cursor :=
  let stop := (c.skipWhile isGap).skipComment
  if endsLine stop.peek then some stop.skipLineEnd else none

/-- A line that begins with three of a character, apart from what follows: a document marker. -/
def atMarker (c : Cursor) (mark : Char) : Bool :=
  c.column == 0 && c.rest.take 3 == [mark, mark, mark] && isApart (c.peekAt 3)

/-- A marker that starts or ends a document. -/
def atDocumentMarker (c : Cursor) : Bool :=
  c.atMarker '-' || c.atMarker '.'

/-- Moving on takes as many characters from those that are left. -/
theorem size_skip (c : Cursor) (count : Nat) : (c.skip count).size = c.size - count := by
  simp [skip, size]

/-- Where a character is left, moving on leaves fewer. -/
theorem size_skip_lt {c : Cursor} {first : Char} (h : c.peek = some first) (count : Nat) :
    (c.skip (count + 1)).size < c.size := by
  cases hr : c.rest with
  | nil => simp [peek, hr] at h
  | cons _ rest =>
    rw [size_skip, size, hr, List.length_cons]
    omega

/-- Where a character is left, the next line has fewer. -/
theorem size_nextLine_lt {c : Cursor} {first : Char} {rest : List Char} (h : c.rest = first :: rest)
    (count : Nat) : (c.nextLine (count + 1)).size < c.size := by
  rw [size, size, nextLine, h, List.length_drop, List.length_cons]
  omega

/-- Fewer characters are left after a line end. -/
theorem size_lineEnd_lt {c next : Cursor} {kept : Char} (h : c.lineEnd? = some (kept, next)) :
    next.size < c.size := by
  unfold lineEnd? at h
  split at h
  case h_1 hr =>
    cases h
    exact size_nextLine_lt hr 1
  case h_2 hr =>
    split at h
    · cases h
      exact size_nextLine_lt hr 0
    · split at h
      · cases h
        exact size_nextLine_lt hr 0
      · cases h
  case h_3 => cases h

/-- Passing a line end leaves no more characters. -/
theorem size_skipLineEnd_le (c : Cursor) : c.skipLineEnd.size ≤ c.size := by
  unfold skipLineEnd
  split
  · exact Nat.le_of_lt (size_lineEnd_lt ‹_›)
  · exact Nat.le_refl _

/-- A character that ends lines stands at a line end. -/
theorem isSome_lineEnd {c : Cursor} {first : Char} {rest : List Char} (h : c.rest = first :: rest)
    (ends : isLineEnd first) : c.lineEnd?.isSome := by
  unfold lineEnd?
  rw [h]
  split
  case h_1 => rfl
  case h_2 same =>
    cases same
    split <;> rfl
  case h_3 same => cases same

theorem size_skip_le (c : Cursor) (count : Nat) : (c.skip count).size ≤ c.size :=
  Nat.le_trans (Nat.le_of_eq (size_skip ..)) (Nat.sub_le ..)

theorem size_skipWhile_le (c : Cursor) (p : Char → Bool) : (c.skipWhile p).size ≤ c.size :=
  size_skip_le ..

theorem size_skipComment_le (c : Cursor) : c.skipComment.size ≤ c.size := by
  unfold skipComment
  split
  · exact size_skipWhile_le ..
  · exact Nat.le_refl _

/-- Passing a byte order mark leaves no more characters. -/
theorem size_skipMark_le (c : Cursor) : c.skipMark.size ≤ c.size := by
  unfold skipMark
  split
  · exact size_skip_le ..
  · exact Nat.le_refl _

end Cursor

end RobotDescription.Yaml
