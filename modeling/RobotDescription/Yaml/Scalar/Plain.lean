import RobotDescription.Yaml.Folding

/-!
# Plain scalars

A scalar without quotes ends before a colon that stands apart, before a comment, before a document
marker, where the indentation falls back, and between brackets before a bracket or a comma. Its
line ends are folded.
-/

namespace RobotDescription.Yaml.Plain

/-- A colon that a bracket, a comma or a question mark follows. Between brackets that is not
allowed. -/
def isColonBeforeMark : List Char → Bool
  | ':' :: next :: _ => isFlowMark next || next == '?'
  | _ => false

/-- The number of characters up to the end of the scalar or a gap; `none` at a colon that is not
allowed. -/
def pieceLength? (inFlow : Bool) : List Char → Option Nat
  | [] => some 0
  | c :: rest =>
    if isApart (some c) then some 0
    else if inFlow && isColonBeforeMark (c :: rest) then none
    else if (c == ':' && isApart rest.head?) || (inFlow && isFlowMark c) then some 0
    else (pieceLength? inFlow rest).map (· + 1)

/-- What was read of a plain scalar. -/
structure Result where
  text : List Char
  /-- A line end was met after the text. -/
  afterLineEnd : Bool
  next : Cursor
deriving Repr

/-- Fewer characters are left after a piece that is not empty. -/
theorem size_skip_piece_lt {inFlow : Bool} {c : Cursor} {length : Nat}
    (h : pieceLength? inFlow c.rest = some (length + 1)) : (c.skip (length + 1)).size < c.size := by
  cases hr : c.rest with
  | nil =>
    rw [hr] at h
    cases h
  | cons first rest =>
    have here : c.peek = some first := by rw [Cursor.peek, hr, List.head?_cons]
    exact Cursor.size_skip_lt here length

/-- Reads on after a gap, which belongs to the text if more of it follows. Lines after the first
must begin at the given column or further right. -/
def scan? (inFlow : Bool) (column : Nat) (gap : Gap) (c : Cursor) : Option Result :=
  if c.atDocumentMarker || c.sees '#' then some ⟨[], gap.broken, c⟩
  else
    match _piece : pieceLength? inFlow c.rest with
    | none => none
    | some 0 => some ⟨[], gap.broken, c⟩
    | some (length + 1) =>
      let text := gap.text ++ c.rest.take (length + 1)
      match _gap : Gap.scan? {} column (c.skip (length + 1)) with
      | none => none
      | some (after, next) =>
        if after ≠ {} ∧ (inFlow || column ≤ next.column) then
          (scan? inFlow column after next).map fun later =>
            { later with text := text ++ later.text }
        else some ⟨text, after.broken, next⟩
termination_by c.size
decreasing_by exact Nat.lt_of_le_of_lt (Gap.size_scan_le ‹_›) (size_skip_piece_lt ‹_›)

end RobotDescription.Yaml.Plain
