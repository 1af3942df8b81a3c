import RobotDescription.Registry.Descriptor
import RobotDescription.Registry.Table

/-!
# Platforms

The supported platforms. A platform's identifier is also the name of its template file and of its
macro.
-/

namespace RobotDescription

/-- The supported robot platforms. -/
inductive PlatformModel where
  | a200
  | j100
  | dd100
  | dd150
  | r100
  | w200
deriving DecidableEq, Repr

/-- What the registry holds of a platform. -/
structure PlatformRecord where
  model : PlatformModel
  id : String
  name : String
  path : String
deriving DecidableEq, Repr

namespace PlatformModel

/-- The registry of platforms. -/
def table : Table PlatformModel PlatformRecord where
  rows := [
    { model := .a200, id := "a200", name := "Husky", path := "urdf/a200/" },
    { model := .j100, id := "j100", name := "Jackal", path := "urdf/j100/" },
    { model := .dd100, id := "dd100", name := "Dingo-D", path := "urdf/dd100/" },
    { model := .dd150, id := "dd150", name := "Dingo-O", path := "urdf/dd150/" },
    { model := .r100, id := "r100", name := "Ridgeback", path := "urdf/r100/" },
    { model := .w200, id := "w200", name := "Warthog", path := "urdf/w200/" }]
  entry := PlatformRecord.model
  id := PlatformRecord.id
  number := PlatformModel.ctorIdx
  number_lt platform := by cases platform <;> decide

/-- All platforms, in the order of the registry. -/
def all : List PlatformModel :=
  table.entries

def record (platform : PlatformModel) : PlatformRecord :=
  table.row platform

/-- The identifier used in configurations. -/
def id (platform : PlatformModel) : String :=
  platform.record.id

def displayName (platform : PlatformModel) : String :=
  platform.record.name

def lookup? (id : String) : Option PlatformModel :=
  table.lookup? id

/-- The reference to a platform's template; its macro takes no arguments. -/
def descriptor (platform : PlatformModel) : Descriptor where
  package := platformPackage
  file := platform.record.id
  path := platform.record.path
  macroName := platform.record.id
  arguments := .empty

def resolve (model : String) : Except GenerationError PlatformModel :=
  match lookup? model with
  | some platform => .ok platform
  | none => .error (.unsupported (.platform model))

end PlatformModel

end RobotDescription
