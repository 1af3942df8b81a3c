import RobotDescription.Config.Format
import RobotDescription.Config.ReadError
import RobotDescription.Config.Validation

/-!
# Why a configuration cannot be had

The failures of loading a configuration, with their wording.
-/

namespace RobotDescription

/-- Why a configuration cannot be loaded. -/
inductive ConfigError where
  /-- The document of a format cannot be read. -/
  | document (format : Format) (reason : ReadError)
  /-- The file cannot be read as a text. -/
  | unreadable
  | notFound (path : Path)
  | unsupportedFormat (path : Path)
  /-- The configuration has issues. -/
  | invalid (issues : List Issue)
deriving DecidableEq, Repr

def Format.label : Format → String
  | .yaml => "YAML"
  | .toml => "TOML"

def ConfigError.message : ConfigError → String
  | .document format reason =>
    format.label ++ " parse error" ++
      (match reason.message? with
      | some text => ": " ++ text
      | none => "")
  | .unreadable => "I/O error"
  | .notFound path => "configuration file not found: " ++ path.text
  | .unsupportedFormat path =>
    "unsupported configuration format: " ++ path.text ++ " (expected .yaml, .yml or .toml)"
  | .invalid issues => "validation error: " ++ "; ".intercalate (issues.map Issue.message)

end RobotDescription
