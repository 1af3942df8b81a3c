import RobotDescription.Yaml.Cursor

/-!
# Gaps inside scalars

Between two pieces of a plain or quoted scalar stand gaps: blanks within a line, or line ends with
the blanks around them. Blanks within a line are kept. A single line end becomes a space, and of
several the first is dropped.
-/

namespace RobotDescription.Yaml

/-- What was read between two pieces of a scalar. -/
structure Gap where
  /-- The blanks before the first line end. -/
  blanks : List Char := []
  /-- A line end was met, kept in the text or not. -/
  broken : Bool := false
  /-- The first line end, unless it was escaped. -/
  first : Option Char := none
  /-- The line ends after the first. -/
  later : List Char := []
deriving Repr, DecidableEq

namespace Gap

/-- What a gap stands for. -/
def text (gap : Gap) : List Char :=
  if gap.broken then
    match gap.first with
    | none => gap.later
    | some '\n' => if gap.later.isEmpty then [' '] else gap.later
    | some separator => separator :: gap.later
  else gap.blanks

/-- The gap with one more line end. Blanks at the end of a line are dropped. -/
def addLineEnd (gap : Gap) (kept : Char) : Gap :=
  if gap.broken then { gap with later := gap.later ++ [kept] }
  else { blanks := [], broken := true, first := some kept }

/-- The gap with one more blank. Blanks at the beginning of a line are dropped. -/
def addBlank (gap : Gap) (c : Char) : Gap :=
  if gap.broken then gap else { gap with blanks := gap.blanks ++ [c] }

/-- Reads on through blanks and line ends. A tab at the beginning of a line stops the reading with
no result when it stands before the given column. -/
def scan? (gap : Gap) (tabColumn : Nat) (c : Cursor) : Option (Gap × Cursor) :=
  match _here : c.peek with
  | none => some (gap, c)
  | some next =>
    if isGap next then
      if next == '\t' && gap.broken && c.column < tabColumn then none
      else scan? (gap.addBlank next) tabColumn (c.skip 1)
    else
      match _ended : c.lineEnd? with
      | some (kept, after) => scan? (gap.addLineEnd kept) tabColumn after
      | none => some (gap, c)
termination_by c.size
decreasing_by
  · exact Cursor.size_skip_lt ‹_› 0
  · exact Cursor.size_lineEnd_lt ‹_›

/-- Reading on moves forward, or nothing was there to be read. -/
theorem size_scan_lt_or_eq {gap result : Gap} {tabColumn : Nat} {c next : Cursor}
    (h : gap.scan? tabColumn c = some (result, next)) :
    next.size < c.size ∨ (result = gap ∧ next = c) := by
  fun_induction scan? gap tabColumn c with
  | case1 | case5 =>
    cases h
    exact .inr ⟨rfl, rfl⟩
  | case2 => cases h
  | case3 _ _ _ here _ _ ih =>
    have shorter := Cursor.size_skip_lt here 0
    exact .inl ((ih h).elim (Nat.lt_trans · shorter) fun ⟨_, same⟩ => same ▸ shorter)
  | case4 _ _ _ _ _ _ _ ended ih =>
    have shorter := Cursor.size_lineEnd_lt ended
    exact .inl ((ih h).elim (Nat.lt_trans · shorter) fun ⟨_, same⟩ => same ▸ shorter)

theorem size_scan_le {gap result : Gap} {tabColumn : Nat} {c next : Cursor}
    (h : gap.scan? tabColumn c = some (result, next)) : next.size ≤ c.size :=
  (size_scan_lt_or_eq h).elim Nat.le_of_lt fun ⟨_, same⟩ => same ▸ Nat.le_refl _

end Gap

end RobotDescription.Yaml
