import RobotDescription.Description.Summary
import RobotDescription.Storage.Path

/-!
# Log notes

What the program reports of its own course. A note is an event of the domain; its level, its
channel and its line follow from it.
-/

namespace RobotDescription

/-- How important a note is. -/
inductive Level where
  | error
  | warn
  | info
  | debug
  | trace
deriving DecidableEq, Repr

/-- Levels from the most important one down. -/
def Level.rank : Level → Nat
  | .error => 1
  | .warn => 2
  | .info => 3
  | .debug => 4
  | .trace => 5

/-- The name of a level in a log line. -/
def Level.label : Level → String
  | .error => "ERROR"
  | .warn => "WARN"
  | .info => "INFO"
  | .debug => "DEBUG"
  | .trace => "TRACE"

/-- An event worth reporting. -/
inductive Note where
  | loaded (path : Path) (serial platform : String)
  | generating (serial : String)
  | platform (model : String)
  | decoration (kind file : String)
  | skipped (count : Nat)
  | mount (name model : String)
  | generated (summary : Summary)
  | opened (temporary target : Path)
  | replacing (target : Path)
  | written (target : Path)
deriving DecidableEq, Repr

namespace Note

def level : Note → Level
  | .loaded .. => .info
  | .generating .. => .info
  | .platform .. => .debug
  | .decoration .. => .debug
  | .skipped .. => .debug
  | .mount .. => .debug
  | .generated .. => .info
  | .opened .. => .debug
  | .replacing .. => .warn
  | .written .. => .debug

/-- The name by which a filter can select the part of the program that a note comes from. -/
def channel : Note → String
  | .loaded .. => "descgen::commands::generate"
  | .generating .. => "descgen_core::generator"
  | .platform .. => "descgen_core::generator"
  | .decoration .. => "descgen_core::generator"
  | .skipped .. => "descgen_core::generator"
  | .mount .. => "descgen_core::generator"
  | .generated .. => "descgen_core::generator"
  | .opened .. => "descgen_xacro::file"
  | .replacing .. => "descgen_xacro::file"
  | .written .. => "descgen_xacro::file"

def message : Note → String
  | .loaded .. => "loaded configuration"
  | .generating .. => "generating description"
  | .platform .. => "platform"
  | .decoration .. => "decoration"
  | .skipped .. => "skipped disabled decorations"
  | .mount .. => "mount"
  | .generated .. => "description generated"
  | .opened .. => "opened output"
  | .replacing .. => "replacing existing description"
  | .written .. => "description written"

def quoted (identifier : String) : String :=
  "\"" ++ identifier ++ "\""

/-- The particulars of a note by name. -/
def fields : Note → List (String × String)
  | .loaded path serial model => [("path", path.text), ("serial", serial), ("platform", model)]
  | .generating serial => [("serial", serial)]
  | .platform model => [("model", quoted model)]
  | .decoration kind file => [("decoration", kind), ("file", quoted file)]
  | .skipped count => [("skipped", toString count)]
  | .mount name model => [("mount", name), ("model", quoted model)]
  | .generated summary =>
    [("decorations", toString summary.decorations), ("skipped", toString summary.skipped),
      ("mounts", toString summary.mounts)]
  | .opened temporary target => [("temp", temporary.text), ("target", target.text)]
  | .replacing target => [("path", target.text)]
  | .written target => [("path", target.text)]

/-- The names of everything that a note tells. -/
def fieldNames (note : Note) : List String :=
  "message" :: note.fields.map (·.1)

/-- The line that is logged, without the time. -/
def line (note : Note) : String :=
  let fields := note.fields.map fun field => field.1 ++ "=" ++ field.2
  " ".intercalate (note.level.label :: note.message :: fields)

end Note

end RobotDescription
