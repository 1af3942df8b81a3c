import RobotDescription.Registry.Decoration
import RobotDescription.Registry.Mount

/-!
# The list of what is supported

Platforms with their decorations, and mounts, for a user to read.
-/

namespace RobotDescription.Listing

/-- A text with blanks after it up to a width. -/
def padded (text : String) (width : Nat) : String :=
  text ++ String.ofList (List.replicate (width - text.length) ' ')

/-- The decorations of a platform, or a dash. -/
def decorations (platform : PlatformModel) : String :=
  match DecorationKind.supportedOn platform with
  | [] => "-"
  | kinds => ", ".intercalate (kinds.map DecorationKind.id)

def platformLine (platform : PlatformModel) : String :=
  "  " ++ padded platform.id 8 ++ " " ++ padded platform.displayName 12 ++ " decorations: " ++
    decorations platform ++ "\n"

def mountLine (mount : MountModel) : String :=
  "  " ++ mount.id ++ "\n"

/-- The whole list. -/
def text : String :=
  "Platforms:\n" ++ String.join (PlatformModel.all.map platformLine) ++
    "\nMounts:\n" ++ String.join (MountModel.all.map mountLine)

end RobotDescription.Listing
