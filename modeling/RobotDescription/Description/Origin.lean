import RobotDescription.Config.Basic

/-!
# Origins

The placement of an entity relative to its parent link.
-/

namespace RobotDescription

/-- Position and orientation; the angles are roll, pitch and yaw and are carried through as given.
-/
structure Origin where
  xyz : Vector3
  rpy : Vector3
deriving DecidableEq, Repr

namespace Origin

def zero : Origin := ⟨.zero, .zero⟩

/-- The origin of an optional pose: a half that is unset is zero. -/
def ofPose (xyz rpy : Option Vector3) : Origin :=
  ⟨xyz.getD .zero, rpy.getD .zero⟩

def sameValue (a b : Origin) : Bool :=
  a.xyz.sameValue b.xyz && a.rpy.sameValue b.rpy

end Origin

end RobotDescription
