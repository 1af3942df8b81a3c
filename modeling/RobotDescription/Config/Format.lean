import RobotDescription.Storage.Path

/-!
# Document formats

The format of a configuration is told by the extension of its path alone, case included.
-/

namespace RobotDescription

/-- The formats in which a configuration can be written. -/
inductive Format where
  | yaml
  | toml
deriving DecidableEq, Repr

/-- The format that a path's extension stands for. -/
def Format.ofPath? (path : Path) : Option Format :=
  match path.extension? with
  | some "yaml" => some .yaml
  | some "yml" => some .yaml
  | some "toml" => some .toml
  | _ => none

end RobotDescription
