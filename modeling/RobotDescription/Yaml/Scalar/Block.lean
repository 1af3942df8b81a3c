import RobotDescription.Yaml.Cursor

/-!
# Block scalars

A scalar that an indicator introduces and indentation delimits. The literal kind keeps its line
ends. The folded kind joins two lines by a space unless one of them begins with a blank. The
header says what becomes of the line ends at the end of the text.
-/

namespace RobotDescription.Yaml.Block

/-- What becomes of the line ends at the end: all are dropped, the first is kept, or all are kept.
-/
inductive Chomping where
  | strip
  | clip
  | keep
deriving DecidableEq, Repr

/-- What the header line says. -/
structure Header where
  chomping : Chomping := .clip
  /-- The indentation of the text beyond that of the block around it, unless the text shows it. -/
  indentation : Option Nat := none
deriving Repr

/-- A sign for the treatment of the last line ends. -/
def chomping? : Char → Option Chomping
  | '+' => some .keep
  | '-' => some .strip
  | _ => none

def indentation? (c : Char) : Option Nat :=
  if c.isDigit then some (c.toNat - '0'.toNat) else none

/-- The sign and the digit after the indicator, in either order, and their number of characters. -/
def marks (text : List Char) : Header × Nat :=
  match text with
  | [] => ({}, 0)
  | first :: rest =>
    match chomping? first, indentation? first with
    | some chomping, _ =>
      match rest.head?.bind indentation? with
      | some n => (⟨chomping, some n⟩, 2)
      | none => (⟨chomping, none⟩, 1)
    | none, some n =>
      match rest.head?.bind chomping? with
      | some chomping => (⟨chomping, some n⟩, 2)
      | none => (⟨.clip, some n⟩, 1)
    | none, none => ({}, 0)

def header? (c : Cursor) : Option (Header × Cursor) :=
  let (header, length) := marks c.rest
  if header.indentation = some 0 then none
  else (c.skip length).restOfLine?.map (header, ·)

/-- Empty lines before a line of text. -/
structure Margin where
  breaks : List Char
  /-- The rightmost column that was reached. -/
  reach : Nat
  next : Cursor
deriving Repr

/-- Reads empty lines, and spaces up to the given column where one is given. A tab in the place of
such a space is refused. -/
def margin? (column : Option Nat) (breaks : List Char) (reach : Nat) (c : Cursor) : Option Margin :=
  let spaces := c.rest.takeWhile (· == ' ')
  let width :=
    match column with
    | some n => min spaces.length (n - c.column)
    | none => spaces.length
  let here := c.skip width
  let reached := max reach here.column
  if here.sees '\t' && (match column with | some n => here.column < n | none => true) then none
  else
    match _ended : here.lineEnd? with
    | none => some ⟨breaks, reached, here⟩
    | some (kept, next) => margin? column (breaks ++ [kept]) reached next
termination_by c.size
decreasing_by
  exact Nat.lt_of_lt_of_le (Cursor.size_lineEnd_lt ‹_›) (Cursor.size_skip_le c width)

theorem size_margin_le {column : Option Nat} {breaks : List Char} {reach : Nat} {c : Cursor}
    {margin : Margin} (h : margin? column breaks reach c = some margin) :
    margin.next.size ≤ c.size := by
  fun_induction margin? column breaks reach c with
  | case1 => cases h
  | case2 =>
    cases h
    exact Cursor.size_skip_le ..
  | case3 _ _ _ _ _ _ _ _ _ _ ended ih =>
    have shorter := Nat.lt_of_lt_of_le (Cursor.size_lineEnd_lt ended) (Cursor.size_skip_le ..)
    exact Nat.le_trans (ih h) (Nat.le_of_lt shorter)

/-- A line of text. -/
structure Line where
  text : List Char
  /-- The end of the line as it is kept. -/
  lineEnd : Option Char
  next : Cursor
deriving Repr

/-- Reads to the end of the line and past it. -/
def line (c : Cursor) : Line :=
  let (text, stop) := c.takeWhile (!isLineEnd ·)
  match stop.lineEnd? with
  | some (kept, next) => ⟨text, some kept, next⟩
  | none => ⟨text, none, stop⟩

/-- Where something is left, reading a line leaves less. -/
theorem size_line_lt {c : Cursor} (left : c.rest ≠ []) : (line c).next.size < c.size := by
  obtain ⟨first, rest, hr⟩ := List.exists_cons_of_ne_nil left
  unfold line Cursor.takeWhile
  dsimp only
  split
  case h_1 ended => exact Nat.lt_of_lt_of_le (Cursor.size_lineEnd_lt ended) (Cursor.size_skip_le ..)
  case h_2 unended =>
    cases ends : isLineEnd first with
    | true =>
      have stays : c.skip 0 = c := rfl
      rw [hr, List.takeWhile_cons_of_neg (by rw [ends]; decide), List.length_nil, stays] at unended
      have ended := Cursor.isSome_lineEnd hr ends
      rw [unended] at ended
      cases ended
    | false =>
      have here : c.peek = some first := by rw [Cursor.peek, hr, List.head?_cons]
      rw [hr, List.takeWhile_cons_of_pos (by rw [ends]; rfl), List.length_cons]
      exact Cursor.size_skip_lt here _

/-- How the last line of a text ends and begins. -/
structure Seam where
  /-- The line end after it. -/
  lineEnd : Option Char := none
  /-- It begins with a blank. -/
  indented : Bool := false
deriving Repr

/-- What stands before the next line, which begins with a blank or not, given the empty lines
before it. -/
def Seam.joined (seam : Seam) (folds : Bool) (breaks : List Char) (indented : Bool) : List Char :=
  if folds && seam.lineEnd == some '\n' && !seam.indented && !indented then
    if breaks.isEmpty then [' '] else breaks
  else seam.lineEnd.toList ++ breaks

/-- What the header lets stand at the end of the text. -/
def Seam.chomped (seam : Seam) (chomping : Chomping) (breaks : List Char) : List Char :=
  match chomping with
  | .strip => []
  | .clip => seam.lineEnd.toList
  | .keep => seam.lineEnd.toList ++ breaks

/-- Reads lines as long as they begin at the given column. -/
def lines? (folds : Bool) (chomping : Chomping) (column : Nat) (seam : Seam) (breaks : List Char)
    (c : Cursor) : Option (List Char × Cursor) :=
  if _left : c.column = column ∧ c.rest ≠ [] then
    let indented := c.peek.any isGap
    let found := line c
    match _margin : margin? (some column) [] 0 found.next with
    | none => none
    | some margin =>
      (lines? folds chomping column ⟨found.lineEnd, indented⟩ margin.breaks margin.next).map
        fun (later, stop) => (seam.joined folds breaks indented ++ found.text ++ later, stop)
  else some (seam.chomped chomping breaks, c)
termination_by c.size
decreasing_by exact Nat.lt_of_le_of_lt (size_margin_le _margin) (size_line_lt _left.2)

/-- Reads a block scalar after its indicator. The block around it is indented by `indent`, which
is negative outside of all blocks. -/
def scan? (folds : Bool) (indent : Int) (c : Cursor) : Option (List Char × Cursor) := do
  let (header, start) ← header? c
  let given := header.indentation.map fun n => (max indent 0).toNat + n
  let margin ← margin? given [] 0 start
  let column := given.getD (max margin.reach (max (indent + 1) 1).toNat)
  lines? folds header.chomping column {} margin.breaks margin.next

end RobotDescription.Yaml.Block
