import RobotDescription.Log.Note
import RobotDescription.Text.Alphanumeric
import RobotDescription.Text.Blank

/-!
# Log filters

A filter is a list of rules separated by commas. A rule gives the least important level that is
logged: for all notes, for those of channels whose names begin with a target, or for those that
have a field. Of the rules that match a note the one with the longest target decides; of those one
that names a field, then the one with the greater field name, and of equal rules the last.
-/

namespace RobotDescription

/-- A rule of a filter. -/
structure Filter.Rule where
  /-- What the name of a channel begins with. -/
  target : String := ""
  /-- The name of a field that a note has. -/
  field : Option String := none
  /-- The rank of the least important level that is logged; nothing is, if it is zero. -/
  limit : Nat
  /-- It applies only inside of a span of time that has a name, or a field of a given value. There
  are no such spans. -/
  inSpan : Bool := false
deriving DecidableEq, Repr

/-- What is logged. -/
structure Filter where
  rules : List Filter.Rule
deriving DecidableEq, Repr

namespace Filter

def upTo (level : Level) : Filter := ⟨[{ limit := level.rank }]⟩

namespace Rule

/-- The rule applies to a note. -/
def covers (rule : Rule) (note : Note) : Bool :=
  !rule.inSpan && note.channel.startsWith rule.target && rule.field.all note.fieldNames.contains

/-- A field name comes after a missing one, and after every smaller one. -/
def fieldBefore : Option String → Option String → Bool
  | _, none => false
  | none, some _ => true
  | some a, some b => a < b

/-- The other rule is more specific. -/
def yieldsTo (rule other : Rule) : Bool :=
  let length := rule.target.utf8ByteSize
  let otherLength := other.target.utf8ByteSize
  length < otherLength || (length == otherLength && fieldBefore rule.field other.field)

end Rule

def decisive? (filter : Filter) (note : Note) : Option Rule :=
  (filter.rules.filter (·.covers note)).foldl (fun best rule =>
    match best with
    | some earlier => if rule.yieldsTo earlier then some earlier else some rule
    | none => some rule) none

/-- A note is logged. -/
def accepts (filter : Filter) (note : Note) : Bool :=
  (filter.decisive? note).any fun rule => note.level.rank ≤ rule.limit

/-- A number without its sign, if that is a plus. -/
def dropSign : List Char → List Char
  | '+' :: digits => digits
  | digits => digits

/-- The rank written as a number, or as the name of a level in any case. -/
def limit? (text : List Char) : Option Nat :=
  let word := String.ofList (text.map Char.toLower)
  let digits := dropSign text
  if word = "off" then some 0
  else if word = "error" then some Level.error.rank
  else if word = "warn" then some Level.warn.rank
  else if word = "info" then some Level.info.rank
  else if word = "debug" then some Level.debug.rank
  else if word = "trace" then some Level.trace.rank
  else if !digits.isEmpty && digits.all Char.isDigit then
    (String.ofList digits).toNat?.filter (· ≤ Level.trace.rank)
  else none

/-- The rank written after a target. Where none is, everything is logged. -/
def limitOrAll? (text : List Char) : Option Nat :=
  if text.isEmpty then some Level.trace.rank else limit? text

def beginsRule (c : Char) : Bool :=
  Text.isAlphanumeric c || c == '-' || c == ':' || c == '_' || c == '['

/-- The text of a rule, with the places of its marks in the text without the blanks around it. The
pieces between the marks are taken from the full text at the same places, so a blank in front
shifts them. -/
structure Source where
  text : List Char
  marks : List Char

namespace Source

/-- The place of the next of some marks, from a place on; the end if there is none. -/
def find (source : Source) (isMark : Char → Bool) (start : Nat) : Nat :=
  start + ((source.marks.drop start).takeWhile (!isMark ·)).length

def piece (source : Source) (start stop : Nat) : String :=
  String.ofList ((source.text.take stop).drop start)

/-- The rank after a condition in brackets. -/
def limitAt? (source : Source) (place : Nat) : Option Nat :=
  match source.marks.drop place with
  | [] => some Level.trace.rank
  | '=' :: _ => limitOrAll? (source.text.drop (place + 1))
  | _ => none

/-- A condition in brackets and the rank after it: a span, or a span and a field. -/
def condition? (source : Source) (target : String) (start : Nat) : Option Rule :=
  let spanEnd := source.find (fun c => c == ']' || c == '\x7b') start
  match source.marks.drop spanEnd with
  | ']' :: _ =>
    (source.limitAt? (spanEnd + 1)).map fun n => { target := target, limit := n, inSpan := true }
  | '\x7b' :: _ =>
    let fieldEnd := source.find (· == '\x7d') (spanEnd + 1)
    let field := source.piece (spanEnd + 1) fieldEnd
    match source.marks.drop fieldEnd with
    | '\x7d' :: ']' :: _ =>
      if field.isEmpty then none
      else
        let name := String.ofList (field.toList.takeWhile (· != '='))
        -- A field with a value is one of a span.
        let inSpan := source.piece start spanEnd != "" || name != field
        (source.limitAt? (fieldEnd + 2)).map fun n =>
          { target := target, field := some name, limit := n, inSpan := inSpan }
    | _ => none
  | _ => none

/-- Reads a rule. A single word that is no level is a target. -/
def rule? (source : Source) : Option Rule :=
  if !source.marks.head?.any beginsRule then none
  else
    let targetEnd := source.find (fun c => c == '=' || c == '[') 0
    let target := source.piece 0 targetEnd
    match source.marks.drop targetEnd with
    | [] =>
      match limit? source.text with
      | some n => some { limit := n }
      | none => some { target := String.ofList source.text, limit := Level.trace.rank }
    | mark :: _ =>
      if mark == '=' then
        (limitOrAll? (source.text.drop (targetEnd + 1))).map fun n =>
          { target := target, limit := n }
      else source.condition? target (targetEnd + 1)

end Source

def rule? (text : List Char) : Option Rule :=
  (Source.mk text (Text.trimmed text)).rule?

def pieces (text : List Char) : List (List Char) :=
  text.foldr (fun c pieces =>
    match c, pieces with
    | ',', _ => [] :: pieces
    | _, piece :: rest => (c :: piece) :: rest
    | _, [] => [[c]]) [[]]

/-- Reads a filter. Empty rules are passed over, and without any rule errors only are logged. -/
def ofText? (text : String) : Option Filter :=
  match ((pieces text.toList).filter (!·.isEmpty)).mapM rule? with
  | none => none
  | some [] => some (upTo .error)
  | some rules => some ⟨rules⟩

/-- The filter for a run: what the environment says, if that can be read, and else a level that
rises with the verbosity that was asked for. -/
def forRun (environment : Option String) (verbosity : Nat) : Filter :=
  (environment.bind ofText?).getD
    (upTo (if verbosity = 0 then .warn else if verbosity = 1 then .info else .debug))

end Filter

end RobotDescription
