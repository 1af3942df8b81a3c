import RobotDescription.Registry.Descriptor
import RobotDescription.Registry.Table

/-!
# Mounts

The supported mount models. A model's identifier is also the name of its template file and of its
macro.
-/

namespace RobotDescription

/-- The supported mount models. -/
inductive MountModel where
  | fathPivot
  | flirPtu
  | bracket
  | post
deriving DecidableEq, Repr

/-- What the registry holds of a mount model. The defaults are the arguments that it adds to name
and parent link. -/
structure MountRecord where
  model : MountModel
  id : String
  path : String
  defaults : List (String × String)
deriving DecidableEq, Repr

namespace MountModel

/-- The registry of mount models. -/
def table : Table MountModel MountRecord where
  rows := [
    { model := .fathPivot, id := "fath_pivot", path := "urdf/", defaults := [("angle", "0.0")] },
    { model := .flirPtu, id := "flir_ptu", path := "urdf/", defaults := [] },
    { model := .bracket, id := "bracket", path := "urdf/",
      defaults := [("model", "horizontal"), ("extension", "0")] },
    { model := .post, id := "post", path := "urdf/",
      defaults := [("model", "single"), ("spacing", "0.09"), ("height", "0.1")] }]
  entry := MountRecord.model
  id := MountRecord.id
  number := MountModel.ctorIdx
  number_lt model := by cases model <;> decide

/-- All models, in the order of the registry. -/
def all : List MountModel :=
  table.entries

def record (model : MountModel) : MountRecord :=
  table.row model

/-- The identifier used in configurations. -/
def id (model : MountModel) : String :=
  model.record.id

/-- The arguments that a model adds to name and parent link. -/
def defaults (model : MountModel) : List (String × String) :=
  model.record.defaults

def lookup? (id : String) : Option MountModel :=
  table.lookup? id

end MountModel

/-- The arguments of a mount before its configured parameters. -/
def Mount.baseArguments (mount : Mount) (model : MountModel) : List (String × String) :=
  ("name", mount.name) :: ("parent_link", mount.parent) :: model.defaults

/-- Resolves a mount. Configured parameters are laid over the base arguments, and the origin is
always given. -/
def Mount.describe (mount : Mount) : Except GenerationError Descriptor :=
  match MountModel.lookup? mount.model with
  | none => .error (.unsupported (.mountModel mount.name mount.model))
  | some model =>
    .ok {
      package := mountsPackage
      file := model.record.id
      path := model.record.path
      macroName := model.record.id
      arguments := (Arguments.ofList (mount.baseArguments model)).overlay mount.parameters
      origin := some (.ofPose mount.xyz mount.rpy) }

end RobotDescription
