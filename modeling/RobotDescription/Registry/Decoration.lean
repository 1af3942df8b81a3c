import RobotDescription.Registry.Platform

/-!
# Decorations

The supported decorations. The kind selects the template file and the macro; the pair of platform
and kind selects the default arguments, since the same bumper attaches differently to different
platforms. A kind without a placement on a platform is not supported on it.
-/

namespace RobotDescription

/-- The supported kinds of decoration. -/
inductive DecorationKind where
  | frontBumper
  | rearBumper
  | topPlate
  | frontFender
  | rearFender
deriving DecidableEq, Repr

/-- The template of a kind of decoration. Its identifier is also the name of the macro. -/
structure DecorationTemplate where
  kind : DecorationKind
  id : String
  file : String
deriving DecidableEq, Repr

/-- How a kind of decoration is attached to a platform: the default arguments of its macro. -/
structure Placement where
  platform : PlatformModel
  kind : DecorationKind
  parameters : List (String × String)
deriving DecidableEq, Repr

namespace DecorationKind

/-- The templates of all kinds. -/
def table : Table DecorationKind DecorationTemplate where
  rows := [
    { kind := .frontBumper, id := "front_bumper", file := "bumper" },
    { kind := .rearBumper, id := "rear_bumper", file := "bumper" },
    { kind := .topPlate, id := "top_plate", file := "top_plate" },
    { kind := .frontFender, id := "front_fender", file := "fender" },
    { kind := .rearFender, id := "rear_fender", file := "fender" }]
  entry := DecorationTemplate.kind
  id := DecorationTemplate.id
  number := DecorationKind.ctorIdx
  number_lt kind := by cases kind <;> decide

/-- The kinds that can be fitted, platform by platform. -/
def placements : List Placement := [
  { platform := .a200, kind := .frontBumper,
    parameters := [("name", "front_bumper"), ("parent_link", "front_bumper_mount"),
      ("model", "default"), ("extension", "0.0")] },
  { platform := .a200, kind := .rearBumper,
    parameters := [("name", "rear_bumper"), ("parent_link", "rear_bumper_mount"),
      ("model", "default"), ("extension", "0.0")] },
  { platform := .a200, kind := .topPlate,
    parameters := [("name", "top_plate"), ("parent_link", "top_plate_mount"),
      ("model", "default")] },
  { platform := .w200, kind := .frontBumper,
    parameters := [("name", "front_bumper"), ("parent_link", "base_link"),
      ("xyz", "0.73 0.0 0.18")] },
  { platform := .w200, kind := .rearBumper,
    parameters := [("name", "rear_bumper"), ("parent_link", "base_link"),
      ("xyz", "-0.73 0.0 0.18")] },
  { platform := .j100, kind := .frontFender,
    parameters := [("name", "front_fender"), ("parent_link", "front_fender_mount")] },
  { platform := .j100, kind := .rearFender,
    parameters := [("name", "rear_fender"), ("parent_link", "rear_fender_mount")] }]

def template (kind : DecorationKind) : DecorationTemplate :=
  table.row kind

/-- The identifier used in configurations. -/
def id (kind : DecorationKind) : String :=
  kind.template.id

def lookup? (id : String) : Option DecorationKind :=
  table.lookup? id

/-- The kinds that can be fitted to a platform, in the order of their placements. -/
def supportedOn (platform : PlatformModel) : List DecorationKind :=
  (placements.filter (·.platform = platform)).map (·.kind)

/-- The default arguments of a kind on a platform, from the first placement for both. -/
def defaults? (platform : PlatformModel) (kind : DecorationKind) : Option (List (String × String)) :=
  (placements.find? fun row => row.platform = platform && row.kind = kind).map (·.parameters)

end DecorationKind

/-- Resolves an enabled decoration on a platform: first the template of its kind, then the placement
there. Configured parameters are laid over the defaults. -/
def Decoration.describe (decoration : Decoration) (platform : PlatformModel) :
    Except GenerationError Descriptor :=
  let unsupported : Except GenerationError Descriptor :=
    .error (.unsupported (.decoration platform.id decoration.kind))
  if !decoration.enabled then .error (.fault .disabledDecoration)
  else
    match DecorationKind.lookup? decoration.kind with
    | none => unsupported
    | some kind =>
      match DecorationKind.defaults? platform kind with
      | none => unsupported
      | some defaults =>
        .ok {
          package := platformPackage
          file := kind.template.file
          path := "urdf/decorations/"
          macroName := kind.template.id
          arguments := (Arguments.ofList defaults).overlay decoration.parameters }

end RobotDescription
