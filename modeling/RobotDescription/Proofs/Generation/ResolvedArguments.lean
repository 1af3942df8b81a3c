import RobotDescription.Proofs.Description.InsertionOrder
import RobotDescription.Proofs.Generation.MountNames

/-!
# The arguments of resolved entities

The macro of a decoration or a mount is called with the arguments that the registries give it, each
at its place there, and after them with the configured parameters that are none of these. A
configured parameter decides the value of its name wherever the name stands.
-/

namespace RobotDescription

namespace Arguments

theorem names_overlay (arguments : Arguments) (parameters : Parameters) :
    (arguments.overlay parameters).names =
      arguments.names ++ parameters.names.filter (· ∉ arguments.names) :=
  (Change.names_apply arguments (.overlay parameters)).trans (by rw [Change.names_overlay])

end Arguments

end RobotDescription
