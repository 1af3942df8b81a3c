import RobotDescription.Text.Hexadecimal
import RobotDescription.Yaml.Folding

/-!
# Quoted scalars

Between single quotes only a doubled quote is special; between double quotes a backslash starts an
escape. In both, line ends are folded, and a document marker may not stand at the beginning of a
line.
-/

namespace RobotDescription.Yaml.Quoted

/-- The character written as a backslash and one other character. -/
def shortEscape? (c : Char) : Option Char :=
  match c with
  | '0' => some '\x00'
  | 'a' => some '\x07'
  | 'b' => some '\x08'
  | 't' => some '\t'
  | '\t' => some '\t'
  | 'n' => some '\n'
  | 'v' => some '\x0b'
  | 'f' => some '\x0c'
  | 'r' => some '\r'
  | 'e' => some '\x1b'
  | ' ' => some ' '
  | '"' => some '"'
  | '/' => some '/'
  | '\\' => some '\\'
  | 'N' => some '\u0085'
  | '_' => some '\u00a0'
  | 'L' => some '\u2028'
  | 'P' => some '\u2029'
  | _ => none

/-- The number of hexadecimal digits after the letter of a numeric escape. -/
def escapeLength? (c : Char) : Option Nat :=
  match c with
  | 'x' => some 2
  | 'u' => some 4
  | 'U' => some 8
  | _ => none

/-- The character of the escape after a backslash, and the number of characters that write it. -/
def escape? (after : List Char) : Option (Char × Nat) :=
  match after with
  | [] => none
  | letter :: rest =>
    match shortEscape? letter, escapeLength? letter with
    | some c, _ => some (c, 1)
    | none, none => none
    | none, some length =>
      if (rest.take length).length = length then do
        let n ← Text.hexValue? (rest.take length)
        let c ← Text.charOfNat? n
        return (c, length + 1)
      else none

/-- A run of a quoted scalar up to the closing quote or a gap. -/
structure Piece where
  text : List Char
  /-- The number of characters that write it. -/
  length : Nat
  /-- It ends in a backslash before a line end. -/
  escapedEnd : Bool
deriving Repr

/-- The piece with one more character in front, written as `length` characters. -/
def Piece.cons (c : Char) (length : Nat) (piece : Piece) : Piece :=
  { piece with text := c :: piece.text, length := piece.length + length }

def singlePiece : List Char → Piece
  | '\'' :: '\'' :: rest => (singlePiece rest).cons '\'' 2
  | '\'' :: _ => ⟨[], 0, false⟩
  | c :: rest => if isApart (some c) then ⟨[], 0, false⟩ else (singlePiece rest).cons c 1
  | [] => ⟨[], 0, false⟩

/-- Reads a piece between double quotes; `none` for an escape that does not exist. -/
def doublePiece? (text : List Char) : Option Piece :=
  match text with
  | [] => some ⟨[], 0, false⟩
  | '"' :: _ => some ⟨[], 0, false⟩
  | '\\' :: rest =>
    if rest.head?.any isLineEnd then some ⟨[], 1, true⟩
    else
      match escape? rest with
      | none => none
      | some (c, length) => (doublePiece? (rest.drop length)).map (·.cons c (length + 1))
  | c :: rest =>
    if isApart (some c) then some ⟨[], 0, false⟩ else (doublePiece? rest).map (·.cons c 1)
termination_by text.length
decreasing_by
  · rw [List.length_drop, List.length_cons]
    omega
  · exact Nat.lt_succ_self rest.length

/-- Reads a piece between quotes of either kind. -/
def piece? (double : Bool) (text : List Char) : Option Piece :=
  if double then doublePiece? text else some (singlePiece text)

/-- The place after a piece, in the next line if its line end is escaped. -/
def Piece.stop (piece : Piece) (c : Cursor) : Cursor :=
  let stop := c.skip piece.length
  if piece.escapedEnd then stop.skipLineEnd else stop

/-- The characters of a piece are no longer left after it. -/
theorem Piece.size_stop_le (piece : Piece) (c : Cursor) :
    (piece.stop c).size ≤ c.size - piece.length := by
  unfold Piece.stop
  split
  · exact Nat.le_trans (Cursor.size_skipLineEnd_le _) (Nat.le_of_eq (Cursor.size_skip ..))
  · exact Nat.le_of_eq (Cursor.size_skip ..)

/-- A piece and a gap, one of which is not empty, leave fewer characters. -/
theorem size_scan_lt {c next : Cursor} {piece : Piece} {before gap : Gap} (left : c.rest ≠ [])
    (read : before.scan? 0 (piece.stop c) = some (gap, next))
    (moved : ¬(piece.length = 0 ∧ gap = before)) : next.size < c.size := by
  have positive : 0 < c.size := List.length_pos_iff.2 left
  have := piece.size_stop_le c
  cases Gap.size_scan_lt_or_eq read with
  | inl shorter => omega
  | inr same =>
    have : piece.length ≠ 0 := fun empty => moved ⟨empty, same.1⟩
    rw [same.2]
    omega

/-- Reads on from a place inside the quotes: the text from there, and the place after the closing
quote. -/
def scan? (double : Bool) (c : Cursor) : Option (List Char × Cursor) :=
  if _left : c.rest = [] then none
  else if c.atDocumentMarker then none
  else
    match piece? double c.rest with
    | none => none
    | some piece =>
      let stop := piece.stop c
      if stop.sees (if double then '"' else '\'') then some (piece.text, stop.skip 1)
      else
        let before : Gap := { broken := piece.escapedEnd }
        match _read : before.scan? 0 stop with
        | none => none
        | some (gap, next) =>
          if _same : piece.length = 0 ∧ gap = before then none
          else
            (scan? double next).map fun (later, stop) => (piece.text ++ gap.text ++ later, stop)
termination_by c.size
decreasing_by exact size_scan_lt _left _read _same

end RobotDescription.Yaml.Quoted
