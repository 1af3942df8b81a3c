/-!
# Texts about the program

What is put out when the version or help is asked for.
-/

namespace RobotDescription.Command

def programName : String := "descgen"

def versionText : String := programName ++ " 0.1.0\n"

def helpText : String :=
  "Generate a robot description (.urdf.xacro) from a robot configuration\n\n" ++
  "Usage: " ++ programName ++ " [OPTIONS] [CONFIG]\n\n" ++
  "Arguments:\n" ++
  "  [CONFIG]  Robot configuration file (default: /etc/clearpath/robot.yaml)\n\n" ++
  "Options:\n" ++
  "      --output-dir <OUTPUT_DIR>  Directory the description is written to " ++
  "(default: current directory)\n" ++
  "      --stdout                   " ++
  "Write the description to standard output instead of a file\n" ++
  "      --list-supported           List supported platforms, decorations and mounts\n" ++
  "  -v, --verbose...               Increase log verbosity (-v info, -vv debug); RUST_LOG overrides\n" ++
  "  -h, --help                     Print help\n" ++
  "  -V, --version                  Print version\n"

end RobotDescription.Command
