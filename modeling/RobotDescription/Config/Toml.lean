import RobotDescription.Config.Draft
import RobotDescription.Toml.Document

/-!
# Configurations in TOML documents

A part of a configuration is a table. An array in its place gives its fields in their order
instead of by name. Keys that the model does not know are passed over.
-/

namespace RobotDescription.Toml

/-- Reading a value, which fails for the first thing that does not fit. -/
abbrev Reading := Except ReadError

namespace Reading

/-- The name under which a date or a time shows what is written. -/
def momentKey : String := "$__toml_private_datetime"

def text : Value → Reading String
  | .text s => .ok s
  | _ => .error .invalidType

def bool : Value → Reading Bool
  | .bool b => .ok b
  | _ => .error .invalidType

/-- A coordinate. An integer stands for the nearest double. -/
def coordinate : Value → Reading Binary64
  | .int n => .ok (.ofInt n.toInt)
  | .float x => .ok x
  | _ => .error .invalidType

def items : Value → Reading (List Value)
  | .array items => .ok items
  | _ => .error .invalidType

/-- Three coordinates. Items after the third do not count. -/
def vector (value : Value) : Reading Vector3 := do
  match ← ((← items value).take 3).mapM coordinate with
  | [x, y, z] => return ⟨x, y, z⟩
  | _ => throw .invalidLength

def parameterValue : Value → Reading ParameterValue
  | .bool b => .ok (.bool b)
  | .int n => .ok (.int n)
  | .float x => .ok (.float x)
  | .text s => .ok (.text s)
  | .moment _ | .array _ | .table _ => .error .noVariant

def entries : Value → Reading (List (String × Value))
  | .table entries => .ok entries
  | .moment written => .ok [(momentKey, .text written)]
  | _ => .error .invalidType

def parameters (value : Value) : Reading Parameters := do
  (← entries value).foldlM (fun parameters (name, v) => do
    return parameters.insert name (← parameterValue v)) .empty

/-- Reads a part of a configuration from its fields, which an array gives in the order of `names`.
An array that is too short for a field without default has the wrong length. -/
def part {Draft α : Type} (names : List String) (field : Draft → String → Value → Reading Draft)
    (start : Draft) (finish : Draft → Reading α) (value : Value) : Reading α := do
  match value with
  | .array items =>
    let draft ← (names.zip items).foldlM (fun draft (name, v) => field draft name v) start
    match finish draft with
    | .ok result => return result
    | .error _ => throw .invalidLength
  | other => finish (← (← entries other).foldlM (fun draft (name, v) => field draft name v) start)

def decorationField (draft : DecorationDraft) (name : String) (value : Value) :
    Reading DecorationDraft := do
  match name with
  | "type" => return { draft with kind := ← text value }
  | "enabled" => return { draft with enabled := ← bool value }
  | "parameters" => return { draft with parameters := ← parameters value }
  | _ => return draft

def decoration : Value → Reading Decoration :=
  part ["type", "enabled", "parameters"] decorationField {} DecorationDraft.finish

def mountField (draft : MountDraft) (name : String) (value : Value) : Reading MountDraft := do
  match name with
  | "name" => return { draft with name := ← text value }
  | "model" => return { draft with model := ← text value }
  | "parent" => return { draft with parent := ← text value }
  | "xyz" => return { draft with xyz := some (some (← vector value)) }
  | "rpy" => return { draft with rpy := some (some (← vector value)) }
  | "parameters" => return { draft with parameters := ← parameters value }
  | _ => return draft

def mount : Value → Reading Mount :=
  part ["name", "model", "parent", "xyz", "rpy", "parameters"] mountField {} MountDraft.finish

def platformField (draft : PlatformDraft) (name : String) (value : Value) :
    Reading PlatformDraft := do
  match name with
  | "model" => return { draft with model := ← text value }
  | "decorations" => return { draft with decorations := ← (← items value).mapM decoration }
  | _ => return draft

def platform : Value → Reading PlatformConfig :=
  part ["model", "decorations"] platformField {} PlatformDraft.finish

def configField (draft : ConfigDraft) (name : String) (value : Value) : Reading ConfigDraft := do
  match name with
  | "serial_number" => return { draft with serialNumber := ← text value }
  | "platform" => return { draft with platform := ← platform value }
  | "mounts" => return { draft with mounts := ← (← items value).mapM mount }
  | _ => return draft

def config : Value → Reading RobotConfig :=
  part ["serial_number", "platform", "mounts"] configField {} ConfigDraft.finish

end Reading

end RobotDescription.Toml

namespace RobotDescription

/-- The configuration that the value of a document holds. -/
def RobotConfig.ofToml (value : Toml.Value) : Except ReadError RobotConfig :=
  Toml.Reading.config value

end RobotDescription
