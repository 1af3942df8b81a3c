import RobotDescription.Config.ParameterName
import RobotDescription.Description.Arguments

/-!
# Reading xacro text

A reader of generated descriptions. It takes an attribute up to the next double quote and a comment
up to the first end mark, and knows nothing of how the text was written.
-/

namespace RobotDescription.Xacro

/-- Reading consumes text from the front, or fails. -/
abbrev Reader := StateT (List Char) Option

/-- What is read at one place of a description. -/
inductive Item where
  | inclusion (target : String)
  | call (name : String) (arguments : Arguments) (origins : List (String × String))
  | comment (text : String)
  | blank
deriving DecidableEq

namespace Reader

variable {α β : Type}

def word (text : String) : Reader Unit := fun input =>
  if text.toList.isPrefixOf input then some ((), input.drop text.toList.length) else none

/-- Reads up to the first place where a mark stands, and over the mark. -/
def upTo (mark : String) : List Char → Option (List Char × List Char)
  | [] => none
  | c :: rest =>
    if mark.toList.isPrefixOf (c :: rest) then some ([], (c :: rest).drop mark.toList.length)
    else (upTo mark rest).map fun (before, after) => (c :: before, after)

/-- Reads items up to the first place where the end can be read. An item that consumes nothing is a
failure. -/
def untilEnd (item : Reader α) (finish : Reader β) (input : List Char) :
    Option ((List α × β) × List Char) :=
  match finish input with
  | some (last, rest) => some (([], last), rest)
  | none =>
    match item input with
    | none => none
    | some (first, rest) =>
      if rest.length < input.length then
        (untilEnd item finish rest).map fun ((more, last), after) => ((first :: more, last), after)
      else none
termination_by input.length

/-- The text that a value stands for. An ampersand that begins no known entity is a failure. -/
def decode : List Char → Option (List Char)
  | [] => some []
  | '&' :: 'a' :: 'm' :: 'p' :: ';' :: rest => (decode rest).map ('&' :: ·)
  | '&' :: 'l' :: 't' :: ';' :: rest => (decode rest).map ('<' :: ·)
  | '&' :: 'g' :: 't' :: ';' :: rest => (decode rest).map ('>' :: ·)
  | '&' :: 'q' :: 'u' :: 'o' :: 't' :: ';' :: rest => (decode rest).map ('"' :: ·)
  | c :: rest => if c = '&' then none else (decode rest).map (c :: ·)

def namedValue : Reader (String × String) := do
  word " "
  let name ← upTo "="
  word "\""
  let value ← upTo "\""
  let decoded ← decode value
  return (String.ofList name, String.ofList decoded)

/-- Reads the end of a tag, and tells whether the element ends with it. -/
def tagEnd : Reader Bool :=
  (do word "/>"; return true) <|> (do word ">"; return false)

def namedValues : Reader (List (String × String) × Bool) := untilEnd namedValue tagEnd

/-- Reads the longest name, which may be empty. -/
def name : Reader String := fun input =>
  some (String.ofList (input.takeWhile ParameterName.isContinuation),
    input.dropWhile ParameterName.isContinuation)

def origin : Reader (String × String) := do
  word "    <origin"
  match ← namedValues with
  | ([("xyz", xyz), ("rpy", rpy)], true) =>
    word "\n"
    return (xyz, rpy)
  | _ => failure

/-- Reads the lines inside a call and its end tag. An element that is complete has neither. -/
def nested (tag : String) : Bool → Reader (List (String × String))
  | true => return []
  | false => do
    let (origins, _) ← untilEnd origin (word ("  </xacro:" ++ tag ++ ">\n"))
    return origins

/-- An element is an inclusion or the call of a macro, in which no argument may stand twice. -/
def element? (name : String) (entries : List (String × String))
    (origins : List (String × String)) : Option Item :=
  if name = "include" then
    match entries, origins with
    | [("filename", target)], [] => some (.inclusion target)
    | _, _ => none
  else if distinct : (entries.map (·.1)).Nodup then some (.call name ⟨entries, distinct⟩ origins)
  else none

def element : Reader Item := do
  word "  <xacro:"
  let tag ← name
  let (entries, complete) ← namedValues
  word "\n"
  let origins ← nested tag complete
  element? tag entries origins

def comment : Reader Item := do
  word "  <!--"
  let text ← upTo "-->"
  word "\n"
  return .comment (String.ofList text)

def blank : Reader Item := do
  word "\n"
  return .blank

def item : Reader Item := blank <|> comment <|> element

/-- Reads a whole description: the robot's name and the items. -/
def description : Reader (String × List Item) := do
  word "<?xml version=\"1.0\"?>\n<robot"
  match ← namedValues with
  | ([("name", robotName), ("xmlns:xacro", _)], false) =>
    word "\n"
    let (items, _) ← untilEnd item (word "</robot>\n")
    return (robotName, items)
  | _ => failure

end Reader

/-- Reads a description that is followed by nothing. -/
def read? (text : String) : Option (String × List Item) :=
  match Reader.description text.toList with
  | some (result, []) => some result
  | _ => none

end RobotDescription.Xacro
