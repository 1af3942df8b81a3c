import RobotDescription.Config.Error
import RobotDescription.Config.Toml
import RobotDescription.Config.Yaml
import RobotDescription.Storage.FileSystem
import RobotDescription.Yaml.Tree

/-!
# Loading configurations

A configuration is read from its document and then validated. Whether a file exists is asked
before its format, and its format before its content.
-/

namespace RobotDescription

/-- The path that is read where none is given. -/
def defaultConfigPath : Path := ⟨"/etc/clearpath/robot.yaml"⟩

namespace RobotConfig

/-- Reads a document without validating what it holds. -/
def read (format : Format) (content : String) : Except ReadError RobotConfig :=
  match format with
  | .yaml => ofYaml (.ofText content)
  | .toml =>
    match Toml.Value.ofText? content with
    | none => .error .malformed
    | some value => ofToml value

/-- A configuration without issues, or all its issues. -/
def validated (config : RobotConfig) : Except ConfigError RobotConfig :=
  if config.IsValid then .ok config else .error (.invalid config.issues)

/-- Reads a document and validates what it holds. -/
def parse (format : Format) (content : String) : Except ConfigError RobotConfig :=
  match read format content with
  | .error reason => .error (.document format reason)
  | .ok config => config.validated

def load (fs : FileSystem) (path : Path) : Except ConfigError RobotConfig :=
  if !fs.pathExists path then .error (.notFound path)
  else
    match Format.ofPath? path with
    | none => .error (.unsupportedFormat path)
    | some format =>
      match fs.read path with
      | .error _ => .error .unreadable
      | .ok bytes =>
        match String.fromUTF8? bytes with
        | none => .error .unreadable
        | some content => parse format content

end RobotConfig

end RobotDescription
