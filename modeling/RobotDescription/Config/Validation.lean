import RobotDescription.Config.Basic
import RobotDescription.Config.ParameterName
import RobotDescription.Text.Blank

/-!
# Validation

What is wrong with a configuration, apart from the question whether its models are supported:
names that are blank, a serial number that cannot name a file, mounts of the same name, and
parameter names that cannot be attribute names. The issues come in the order of the document.
-/

namespace RobotDescription

/-- The part of a configuration that carries parameters, as it is named in an issue. -/
inductive Owner where
  | decoration (kind : String)
  | mount (name : String)
deriving DecidableEq, Repr

/-- Something wrong with a configuration. -/
inductive Issue where
  | emptySerial
  | paddedSerial (serial : String)
  | unusableSerial (serial : String)
  | emptyPlatform
  | emptyDecorationType (index : Nat)
  | emptyMountName (index : Nat)
  | duplicateMount (name : String)
  | emptyMountModel (name : String)
  | invalidParameterName (owner : Owner) (name : String)
deriving DecidableEq, Repr

def Owner.label : Owner → String
  | .decoration kind => "decoration '" ++ kind ++ "'"
  | .mount name => "mount '" ++ name ++ "'"

def Issue.message : Issue → String
  | .emptySerial => "serial number is empty"
  | .paddedSerial serial => "serial number '" ++ serial ++ "' has leading or trailing whitespace"
  | .unusableSerial serial => "serial number '" ++ serial ++ "' is not a valid file name"
  | .emptyPlatform => "platform model is empty"
  | .emptyDecorationType index => "decoration #" ++ toString index ++ " has an empty type"
  | .emptyMountName index => "mount #" ++ toString index ++ " has an empty name"
  | .duplicateMount name => "duplicate mount name '" ++ name ++ "'"
  | .emptyMountModel name => "mount '" ++ name ++ "' has an empty model"
  | .invalidParameterName owner name =>
    owner.label ++ " has invalid parameter name '" ++ name ++ "'"

/-- A text that can be the stem of a file name inside its directory. -/
def isFileStem (s : String) : Bool :=
  s.toList.all (fun c => c ≠ '/' && c ≠ '\\') && s ≠ "." && s ≠ ".."

namespace RobotConfig

/-- At most one issue with a serial number, the coarsest. -/
def serialIssues (serial : String) : List Issue :=
  if Text.isAllBlank serial then [.emptySerial]
  else if Text.trim serial ≠ serial then [.paddedSerial serial]
  else if !isFileStem serial then [.unusableSerial serial]
  else []

def issueIf (condition : Bool) (issue : Issue) : List Issue :=
  if condition then [issue] else []

/-- One issue for each parameter name that cannot be used, in ascending order. -/
def parameterIssues (owner : Owner) (parameters : Parameters) : List Issue :=
  (parameters.names.filter fun name => !ParameterName.isValid name).map
    (.invalidParameterName owner)

/-- The issues with the decoration at an index. -/
def decorationIssues (index : Nat) (decoration : Decoration) : List Issue :=
  issueIf (Text.isAllBlank decoration.kind) (.emptyDecorationType index) ++
    parameterIssues (.decoration decoration.kind) decoration.parameters

/-- The issues with the mount at an index, given the names of the mounts before it. A blank name
is reported as such and never as a repetition. -/
def mountIssues (index : Nat) (earlier : List String) (mount : Mount) : List Issue :=
  (if Text.isAllBlank mount.name then [.emptyMountName index]
    else issueIf (earlier.contains mount.name) (.duplicateMount mount.name)) ++
  issueIf (Text.isAllBlank mount.model) (.emptyMountModel mount.name) ++
  parameterIssues (.mount mount.name) mount.parameters

/-- The issues with all mounts from an index on. -/
def mountListIssues (index : Nat) (earlier : List String) : List Mount → List Issue
  | [] => []
  | mount :: rest =>
    mountIssues index earlier mount ++ mountListIssues (index + 1) (earlier ++ [mount.name]) rest

/-- Everything wrong with a configuration, in the order of the document. -/
def issues (config : RobotConfig) : List Issue :=
  serialIssues config.serialNumber ++
  issueIf (Text.isAllBlank config.platform.model) .emptyPlatform ++
  (config.platform.decorations.mapIdx decorationIssues).flatten ++
  mountListIssues 0 [] config.mounts

def IsValid (config : RobotConfig) : Prop :=
  config.issues = []

instance (config : RobotConfig) : Decidable config.IsValid :=
  inferInstanceAs (Decidable (config.issues = []))

end RobotConfig

end RobotDescription
