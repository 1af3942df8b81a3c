import RobotDescription.Command.Options
import RobotDescription.Config.Load
import RobotDescription.Log.Filter
import RobotDescription.Registry.Listing
import RobotDescription.Xacro.File
import RobotDescription.Xacro.Stream

/-!
# Runs

A run loads a configuration and generates its description, either into a file in a directory or
onto the output. It is a function of the options and the file system, and tells what it changes
there.
-/

namespace RobotDescription.Command

/-- Why a run fails. -/
inductive RunError where
  | noConfig (path : Path)
  | loading (path : Path) (reason : ConfigError)
  | creating (directory : Path) (reason : SinkError)
  | generating (serial : String) (reason : GenerationError)
  | streaming (reason : GenerationError)
deriving DecidableEq, Repr

/-- What a user is told: what was being done, and why it failed. -/
def RunError.message : RunError → String
  | .noConfig path => "configuration file '" ++ path.text ++ "' does not exist"
  | .loading path reason => "loading configuration " ++ path.text ++ ": " ++ reason.message
  | .creating directory reason => "creating output in " ++ directory.text ++ ": " ++ reason.message
  | .generating serial reason => "generating description for " ++ serial ++ ": " ++ reason.message
  | .streaming reason => reason.message

/-- How a run ended: the file system afterwards, what was put out or why it failed, and what was
reported. -/
structure Outcome where
  files : FileSystem
  result : Except RunError ByteArray
  notes : List Note := []

namespace Outcome

def exitCode (outcome : Outcome) : UInt32 :=
  if outcome.result.isOk then 0 else 1

/-- The same outcome with notes in front. -/
def after (outcome : Outcome) (notes : List Note) : Outcome :=
  { outcome with notes := notes ++ outcome.notes }

end Outcome

/-- The path of the configuration: one that is given must name a file. -/
def configPath (fs : FileSystem) (given : Option Path) : Except RunError Path :=
  match given with
  | some path => if fs.isFile path then .ok path else .error (.noConfig path)
  | none => .ok defaultConfigPath

/-- What is reported of a configuration that was loaded. -/
def loadedNote (path : Path) (config : RobotConfig) : Note :=
  .loaded path config.serialNumber config.platform.model

/-- Writes the description of a configuration into its file in a directory, and names the file. -/
def writeFile (fs : FileSystem) (directory : Path) (config : RobotConfig) : Outcome :=
  let opening := Xacro.DescriptionFile.create fs directory config.serialNumber
  match opening.result with
  | .error e => ⟨opening.files, .error (.creating directory e), opening.notes⟩
  | .ok file =>
    let generated := generate config (⟨opening.files, file⟩ : Xacro.FileSink)
    let sink := generated.sink
    Outcome.after
      ⟨Xacro.DescriptionFile.drop sink.files sink.file,
        match generated.result with
        | .error e => .error (.generating config.serialNumber e)
        | .ok _ => .ok ("Generated " ++ file.target.text ++ "\n").toUTF8,
        generated.notes⟩
      opening.notes

/-- Loads a configuration and writes its description into a directory. -/
def toDirectory (fs : FileSystem) (path directory : Path) : Outcome :=
  match RobotConfig.load fs path with
  | .error e => ⟨fs, .error (.loading path e), []⟩
  | .ok config => (writeFile fs directory config).after [loadedNote path config]

/-- What a destination has received, whether that is a whole description, and what was reported. -/
structure Delivery where
  destination : Xacro.Destination
  result : Except RunError Unit
  notes : List Note := []

/-- Loads a configuration and writes its description to a destination. -/
def toDestination (fs : FileSystem) (path : Path) (destination : Xacro.Destination) : Delivery :=
  match RobotConfig.load fs path with
  | .error e => ⟨destination, .error (.loading path e), []⟩
  | .ok config =>
    let streamed := Xacro.stream config destination
    ⟨streamed.destination,
      match streamed.result with
      | .error (.unsupported e) => .error (.generating config.serialNumber (.unsupported e))
      | .error e => .error (.streaming e)
      | .ok _ => .ok (),
      loadedNote path config :: streamed.notes⟩

/-- Loads a configuration and puts out its description. -/
def toOutput (fs : FileSystem) (path : Path) : Outcome :=
  let delivery := toDestination fs path {}
  ⟨fs, delivery.result.map fun _ => delivery.destination.stored, delivery.notes⟩

def run (fs : FileSystem) (options : Options) : Outcome :=
  if options.listSupported then ⟨fs, .ok Listing.text.toUTF8, []⟩
  else
    match configPath fs options.config with
    | .error e => ⟨fs, .error e, []⟩
    | .ok path =>
      if options.toOutput then toOutput fs path
      else
        let here := FileSystem.pathOf fs.workingDirectory
        toDirectory fs path (options.outputDirectory.getD here)

/-- The lines that are logged for an outcome. -/
def Outcome.log (outcome : Outcome) (filter : Filter) : List String :=
  (outcome.notes.filter filter.accepts).map Note.line

end RobotDescription.Command
