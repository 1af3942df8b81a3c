import RobotDescription.Yaml.Property
import RobotDescription.Yaml.Scalar.Block
import RobotDescription.Yaml.Scalar.Plain
import RobotDescription.Yaml.Scalar.Quoted

/-!
# Tokens of a text

Reading goes from left to right. A colon can turn what stands before it in the line into a key, so
the last place where such a key may have begun is remembered, one for each level of brackets, and
the tokens that open a mapping are put there afterwards. Indentation outside of brackets opens and
closes blocks.
-/

namespace RobotDescription.Yaml

/-- A place where a key may have begun. -/
structure KeyStart where
  /-- The number of the token that begins there. -/
  number : Nat
  /-- Nothing but a key may stand there. -/
  required : Bool
  offset : Nat
  line : Nat
  column : Nat
deriving Repr

/-- The number of bytes within which a key must end. -/
def maxKeyLength : Nat := 1024

/-- A key that began there can still end here. -/
def KeyStart.reaches (start : KeyStart) (c : Cursor) : Bool :=
  start.line == c.line && c.offset ≤ start.offset + maxKeyLength

/-- The state of reading. -/
structure Lexer where
  cursor : Cursor
  tokens : Array Token := #[]
  /-- The column of the innermost block, or -1. -/
  indent : Int := -1
  /-- The columns of the blocks around it, innermost first. -/
  outerIndents : List Int := []
  /-- A key may begin here. -/
  keyAllowed : Bool := true
  /-- The place where a key may have begun, in the innermost brackets. -/
  keyStart : Option KeyStart := none
  /-- The same for the brackets around, innermost first, and last for the text outside of all. -/
  outerKeyStarts : List (Option KeyStart) := []
deriving Repr

namespace Lexer

/-- The place is between brackets. -/
def inFlow (s : Lexer) : Bool := !s.outerKeyStarts.isEmpty

/-- The state with one more token, and the place after it. -/
def pushTo (s : Lexer) (token : Token) (c : Cursor) : Lexer :=
  { s with tokens := s.tokens.push token, cursor := c }

/-- A place where a key can no longer end is forgotten; there is no result if one was required
there. -/
def expire? (c : Cursor) : Option KeyStart → Option (Option KeyStart)
  | none => some none
  | some start =>
    if start.reaches c then some (some start)
    else if start.required then none
    else some none

/-- Forgets all places where a key can no longer end. -/
def expireKeys? (s : Lexer) : Option Lexer := do
  let keyStart ← expire? s.cursor s.keyStart
  let outer ← s.outerKeyStarts.mapM (expire? s.cursor)
  return { s with keyStart := keyStart, outerKeyStarts := outer }

/-- Gives up the key that may have begun in these brackets. -/
def dropKey? (s : Lexer) : Option Lexer :=
  if s.keyStart.any (·.required) then none else some { s with keyStart := none }

/-- Remembers this place if a key may begin here. -/
def markKey? (s : Lexer) : Option Lexer :=
  if s.keyAllowed then do
    let dropped ← s.dropKey?
    let c := s.cursor
    let required := !s.inFlow && s.indent == (c.column : Int)
    return { dropped with
      keyStart := some ⟨s.tokens.size, required, c.offset, c.line, c.column⟩ }
  else some s

/-- Opens a block at a column further right, with its token put before the token of the given
number. -/
def openBlock (s : Lexer) (column number : Nat) (token : Token) : Lexer :=
  if s.inFlow || (column : Int) ≤ s.indent then s
  else
    { s with
      indent := column
      outerIndents := s.indent :: s.outerIndents
      tokens := s.tokens.insertIdxIfInBounds number token }

/-- Closes the blocks that begin right of a column. -/
def closeBlocksTo (column : Int) (indent : Int) (outer : List Int) (tokens : Array Token) :
    Int × List Int × Array Token :=
  match outer with
  | [] => (indent, [], tokens)
  | next :: rest =>
    if column < indent then closeBlocksTo column next rest (tokens.push .blockEnd)
    else (indent, outer, tokens)

/-- Closes the blocks that begin right of a column, unless between brackets. -/
def closeBlocks (s : Lexer) (column : Int) : Lexer :=
  if s.inFlow then s
  else
    let (indent, outer, tokens) := closeBlocksTo column s.indent s.outerIndents s.tokens
    { s with indent := indent, outerIndents := outer, tokens := tokens }

/-- The place after the blanks and the comment that stand here. Where a key may begin outside of
brackets, tabs do not count as blanks. -/
def gapEnd (s : Lexer) : Cursor :=
  let isBlank := fun c => c == ' ' || (c == '\t' && (s.inFlow || !s.keyAllowed))
  (s.cursor.skipMark.skipWhile isBlank).skipComment

/-- Passing blanks and a comment leaves no more characters. -/
theorem size_gapEnd_le (s : Lexer) : s.gapEnd.size ≤ s.cursor.size :=
  Nat.le_trans (Cursor.size_skipComment_le _)
    (Nat.le_trans (Cursor.size_skipWhile_le ..) (Cursor.size_skipMark_le _))

/-- Moves over blanks, comments and line ends. In a new line outside of brackets a key may begin.
-/
def skipGap (s : Lexer) : Lexer :=
  let stop := s.gapEnd
  match _ended : stop.lineEnd? with
  | none => { s with cursor := stop }
  | some (_, next) => skipGap { s with cursor := next, keyAllowed := s.keyAllowed || !s.inFlow }
termination_by s.cursor.size
decreasing_by exact Nat.lt_of_lt_of_le (Cursor.size_lineEnd_lt ‹_›) s.size_gapEnd_le

/-- Ends all blocks before something that belongs to no block. -/
def leaveBlocks? (s : Lexer) : Option Lexer := do
  let dropped ← (s.closeBlocks (-1)).dropKey?
  return { dropped with keyAllowed := false }

/-- The end of the text, which ends the last line too. -/
def atEnd? (s : Lexer) : Option Lexer :=
  let stop := if s.cursor.column = 0 then s.cursor else s.cursor.nextLine 0
  s.leaveBlocks?.map (·.pushTo .streamEnd stop)

def atDirective? (s : Lexer) : Option Lexer := do
  let (token, next) ← s.cursor.directive?
  return (← s.leaveBlocks?).pushTo token next

/-- A marker that starts or ends a document. -/
def atMarker? (s : Lexer) (token : Token) : Option Lexer :=
  s.leaveBlocks?.map (·.pushTo token (s.cursor.skip 3))

def atOpening? (s : Lexer) (token : Token) : Option Lexer := do
  let marked ← s.markKey?
  return { marked.pushTo token (s.cursor.skip 1) with
    keyAllowed := true
    keyStart := none
    outerKeyStarts := marked.keyStart :: marked.outerKeyStarts }

def atClosing? (s : Lexer) (token : Token) : Option Lexer := do
  let dropped ← s.dropKey?
  let closed := { dropped.pushTo token (s.cursor.skip 1) with keyAllowed := false }
  match closed.outerKeyStarts with
  | [] => return closed
  | start :: outer => return { closed with keyStart := start, outerKeyStarts := outer }

def atComma? (s : Lexer) : Option Lexer :=
  s.dropKey?.map fun dropped =>
    { dropped.pushTo .flowEntry (s.cursor.skip 1) with keyAllowed := true }

/-- Opens a block at this place, where one may begin. -/
def openHere? (s : Lexer) (token : Token) : Option Lexer :=
  if s.inFlow then some s
  else if s.keyAllowed then some (s.openBlock s.cursor.column s.tokens.size token)
  else none

def atDash? (s : Lexer) : Option Lexer := do
  let dropped ← (← s.openHere? .blockSequenceStart).dropKey?
  return { dropped.pushTo .blockEntry (s.cursor.skip 1) with keyAllowed := true }

def atQuestion? (s : Lexer) : Option Lexer := do
  let dropped ← (← s.openHere? .blockMappingStart).dropKey?
  return { dropped.pushTo .key (s.cursor.skip 1) with keyAllowed := !s.inFlow }

/-- A colon before a value. What stands before it becomes a key if one may have begun there. -/
def atColon? (s : Lexer) : Option Lexer :=
  match s.keyStart with
  | some start =>
    let keyed := { s with
      tokens := s.tokens.insertIdxIfInBounds start.number .key
      keyStart := none
      keyAllowed := false }
    -- The token that opens the block goes in front of the key's own.
    some ((keyed.openBlock start.column start.number .blockMappingStart).pushTo .value
      (s.cursor.skip 1))
  | none => do
    let opened ← s.openHere? .blockMappingStart
    return { opened.pushTo .value (s.cursor.skip 1) with keyAllowed := !s.inFlow }

def atName? (s : Lexer) (token : String → Token) : Option Lexer := do
  let marked ← s.markKey?
  let (name, next) ← (s.cursor.skip 1).anchorName?
  return { marked.pushTo (token name) next with keyAllowed := false }

/-- A tag. It must stand apart from what follows, but between brackets a comma may follow. -/
def atTag? (s : Lexer) : Option Lexer := do
  let marked ← s.markKey?
  let (token, next) ← s.cursor.tag?
  if isApart next.peek || (s.inFlow && next.sees ',') then
    return { marked.pushTo token next with keyAllowed := false }
  else none

def atBlockScalar? (s : Lexer) (folds : Bool) : Option Lexer := do
  let dropped ← s.dropKey?
  let (text, next) ← Block.scan? folds s.indent (s.cursor.skip 1)
  let token := .scalar (String.ofList text) (if folds then .folded else .literal)
  return { dropped.pushTo token next with keyAllowed := true }

def atQuoted? (s : Lexer) (double : Bool) : Option Lexer := do
  let marked ← s.markKey?
  let (text, next) ← Quoted.scan? double (s.cursor.skip 1)
  let token := .scalar (String.ofList text) (if double then .doubleQuoted else .singleQuoted)
  return { marked.pushTo token next with keyAllowed := false }

/-- A plain scalar. A key may begin after it if a line end was passed. -/
def atPlain? (s : Lexer) : Option Lexer := do
  let marked ← s.markKey?
  let result ← Plain.scan? s.inFlow (s.indent + 1).toNat {} s.cursor
  return { marked.pushTo (.scalar (String.ofList result.text) .plain) result.next with
    keyAllowed := result.afterLineEnd }

/-- A plain scalar may begin with a character and the one after it. -/
def beginsPlain (inFlow : Bool) (first : Char) (second : Option Char) : Bool :=
  (!isApart (some first) && !isIndicator first) ||
    (first == '-' && !second.any isGap) ||
    (!inFlow && (first == '?' || first == ':') && !isApart second)

def token? (s : Lexer) : Option Lexer :=
  let c := s.cursor
  match c.peek with
  | none => s.atEnd?
  | some first =>
    let apart := isApart (c.peekAt 1)
    if c.column == 0 && first == '%' then s.atDirective?
    else if c.atMarker '-' then s.atMarker? .documentStart
    else if c.atMarker '.' then s.atMarker? .documentEnd
    else if first == '[' then s.atOpening? .flowSequenceStart
    else if first == '\x7b' then s.atOpening? .flowMappingStart
    else if first == ']' then s.atClosing? .flowSequenceEnd
    else if first == '\x7d' then s.atClosing? .flowMappingEnd
    else if first == ',' then s.atComma?
    else if first == '-' && apart then s.atDash?
    else if first == '?' && (s.inFlow || apart) then s.atQuestion?
    else if first == ':' && (s.inFlow || apart) then s.atColon?
    else if first == '*' then s.atName? .alias
    else if first == '&' then s.atName? .anchor
    else if first == '!' then s.atTag?
    else if first == '|' && !s.inFlow then s.atBlockScalar? false
    else if first == '>' && !s.inFlow then s.atBlockScalar? true
    else if first == '\'' then s.atQuoted? false
    else if first == '"' then s.atQuoted? true
    else if beginsPlain s.inFlow first (c.peekAt 1) then s.atPlain?
    else none

def next? (s : Lexer) : Option Lexer := do
  let here ← s.skipGap.expireKeys?
  -- Blocks further right end before the token that stands here.
  let token ← (here.closeBlocks here.cursor.column).token?
  token.expireKeys?

/-- The tokens that cannot change any more: those before the first place where a key may have
begun. -/
def settled (s : Lexer) : List Token :=
  let starts := (s.keyStart :: s.outerKeyStarts).filterMap (·.map (·.number))
  (s.tokens.take (starts.foldl min s.tokens.size)).toList

/-- Reads to the end of the text. Where that fails, the tokens that were settled remain. -/
def run (s : Lexer) : List Token :=
  match s.next? with
  | none => s.settled
  | some after =>
    if after.tokens.back? = some .streamEnd then after.tokens.toList
    -- Every other token takes up text, so reading goes on with less of it.
    else if after.cursor.size < s.cursor.size then run after
    else after.settled
termination_by s.cursor.size

end Lexer

/-- The tokens of a text, up to the place where it stops being well-formed. Only a complete list
ends in `streamEnd`. -/
def Token.ofText (text : List Char) : List Token :=
  Lexer.run { cursor := ⟨text, 0, 0, 0⟩ }

end RobotDescription.Yaml
