import RobotDescription.Config.Basic
import RobotDescription.Config.ReadError

/-!
# Configurations while they are read

The fields of each part of a configuration that were met so far. A part is finished when its map
ends: a field that has no default and was not met is then missing.
-/

namespace RobotDescription

def required {α : Type} (name : String) : Option α → Except ReadError α
  | some value => .ok value
  | none => .error (.missingField name)

/-- The fields of a decoration. -/
structure DecorationDraft where
  kind : Option String := none
  enabled : Option Bool := none
  parameters : Option Parameters := none

/-- The fields of a mount. A pose that was met may still be unset. -/
structure MountDraft where
  name : Option String := none
  model : Option String := none
  parent : Option String := none
  xyz : Option (Option Vector3) := none
  rpy : Option (Option Vector3) := none
  parameters : Option Parameters := none

/-- The fields of a platform. -/
structure PlatformDraft where
  model : Option String := none
  decorations : Option (List Decoration) := none

/-- The fields of a configuration. -/
structure ConfigDraft where
  serialNumber : Option String := none
  platform : Option PlatformConfig := none
  mounts : Option (List Mount) := none

/-- A decoration is disabled and has no parameters unless fields say otherwise. -/
def DecorationDraft.finish (draft : DecorationDraft) : Except ReadError Decoration := do
  let kind ← required "type" draft.kind
  return ⟨kind, draft.enabled.getD false, draft.parameters.getD .empty⟩

/-- A mount is attached to the default link with no pose and no parameters unless fields say
otherwise. -/
def MountDraft.finish (draft : MountDraft) : Except ReadError Mount := do
  let name ← required "name" draft.name
  let model ← required "model" draft.model
  return ⟨name, model, draft.parent.getD defaultParentLink, draft.xyz.getD none,
    draft.rpy.getD none, draft.parameters.getD .empty⟩

/-- A platform has no decorations unless a field says otherwise. -/
def PlatformDraft.finish (draft : PlatformDraft) : Except ReadError PlatformConfig := do
  let model ← required "model" draft.model
  return ⟨model, draft.decorations.getD []⟩

/-- A configuration has no mounts unless a field says otherwise. -/
def ConfigDraft.finish (draft : ConfigDraft) : Except ReadError RobotConfig := do
  let serialNumber ← required "serial_number" draft.serialNumber
  let platform ← required "platform" draft.platform
  return ⟨serialNumber, platform, draft.mounts.getD []⟩

end RobotDescription
