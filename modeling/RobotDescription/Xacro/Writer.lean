import RobotDescription.Config.ParameterName
import RobotDescription.Xacro.Render

/-!
# Writers

A writer is the sink that turns directives into text at once. Its destination may be full, unable to
flush, or unable to take a text for the time being; what fits before a failure stays written.
-/

namespace RobotDescription.Xacro

/-- Where text goes: the bytes taken so far, how many bytes it takes in all (if it has a limit), and
whether it can flush. A text may also be refused for the time being: for each of the next texts in
turn, `outages` holds how many bytes of it are taken, or nothing if it is taken as usual. -/
structure Destination where
  stored : ByteArray := .empty
  capacity : Option Nat := none
  canFlush : Bool := true
  outages : List (Option Nat) := []

namespace Destination

/-- How many bytes of the next text are taken, if that is limited. -/
def room (destination : Destination) : Option Nat :=
  (destination.capacity.map (· - destination.stored.size)).merge min destination.outages.head?.join

/-- Takes a text, or the part of it that there is room for. -/
def write (text : String) (destination : Destination) : Destination × Except SinkError Unit :=
  let bytes := text.toUTF8
  let outages := destination.outages.tail
  match destination.room with
  | none => ({ destination with stored := destination.stored ++ bytes, outages }, .ok ())
  | some room =>
    let taken :=
      { destination with stored := destination.stored ++ bytes.extract 0 room, outages }
    if bytes.size ≤ room then (taken, .ok ()) else (taken, .error .io)

def flush (destination : Destination) : Except SinkError Unit :=
  if destination.canFlush then .ok () else .error .io

end Destination

/-- A sink that writes xacro text. -/
structure Writer where
  destination : Destination
  closed : Bool := false

namespace Writer

/-- Starts the description of a robot. A destination that cannot take the opening text is given
back. -/
def create (destination : Destination) (robotName : String) : Except Destination Writer :=
  match destination.write (openingText robotName) with
  | (opened, .ok ()) => .ok { destination := opened }
  | (full, .error _) => .error full

/-- The first name of an argument that cannot be an attribute name. -/
def invalidName? (arguments : Arguments) : Option String :=
  arguments.names.find? fun name => !ParameterName.isValid name

/-- Adds a text while the writer is open. -/
def append (text : String) (writer : Writer) : Reply Writer :=
  if writer.closed then ⟨writer, .error .closed, []⟩
  else
    let (destination, result) := writer.destination.write text
    ⟨{ writer with destination }, result, []⟩

/-- Writes a macro call. An argument name that cannot be written is the caller's fault, and is
noticed before anything else. -/
def writeCall (macroName : String) (arguments : Arguments) (blocks : List Block)
    (writer : Writer) : Reply Writer :=
  match invalidName? arguments with
  | some name => ⟨writer, .error (.fault (.invalidParameterName name)), []⟩
  | none => writer.append (directiveText (.call macroName arguments blocks))

/-- Writes the closing text and flushes; only then the writer is closed. -/
def close (writer : Writer) : Reply Writer :=
  let ended := writer.append closingText
  match ended.result, ended.sink.destination.flush with
  | .error e, _ => ⟨ended.sink, .error e, []⟩
  | .ok (), .error e => ⟨ended.sink, .error e, []⟩
  | .ok (), .ok () => ⟨{ ended.sink with closed := true }, .ok (), []⟩

instance : Sink Writer where
  writeInclusion package file path := append (directiveText (.inclusion package file path))
  writeCall := writeCall
  writeComment text := append (directiveText (.comment text))
  writeBlank := append (directiveText .blank)
  close := close

/-- A directive is added as its text, or it is a macro call with a name that cannot be written. -/
theorem write_cases (directive : Directive) (writer : Writer) :
    Sink.write directive writer = writer.append (directiveText directive) ∨
      ∃ name, Sink.write directive writer =
        ⟨writer, .error (.fault (.invalidParameterName name)), []⟩ := by
  cases directive with
  | call macroName arguments blocks =>
      simp only [Sink.write, Sink.writeCall, writeCall]
      split
      next name _ => exact .inr ⟨name, rfl⟩
      next => exact .inl rfl
  | _ => exact .inl rfl

end Writer

end RobotDescription.Xacro
