import RobotDescription.Command.Run
import RobotDescription.Command.Text

/-!
# The program

What a run needs to know of the disk is looked up first, and what the run has changed is written
afterwards; the run itself knows nothing of the disk. A file is written under a temporary name and
then moved to its place.
-/

namespace RobotDescription.Disk

/-- What stands at a place. Something that is there but cannot be read as a file counts as a
directory. -/
def entryAt (place : Location) : IO (Option Entry) := do
  try
    return some (.file (← IO.FS.readBinFile (FileSystem.pathOf place).text))
  catch
    | .noFileOrDirectory .. => return none
    | _ => return some .directory

/-- Adds what stands on the way of some steps. -/
def observeSteps (fs : FileSystem) (here : Location) : List String → IO FileSystem
  | [] => return fs
  | step :: rest =>
    if step = ".." then observeSteps fs here.dropLast rest
    else do
      let place := here ++ [step]
      match ← entryAt place with
      | none => return fs
      | some (.file content) => return fs.put place (.file content)
      | some .directory => observeSteps (fs.put place .directory) place rest

/-- Adds what stands on the way of a path. -/
def observe (fs : FileSystem) (path : Path) : IO FileSystem :=
  observeSteps fs (fs.start path) path.steps

/-- The entries that differ from what was observed, those that were made first in front. -/
def changes (before after : FileSystem) : List (Location × Entry) :=
  (after.entries.filter fun entry => !before.entries.contains entry).reverse

/-- The first temporary name in a directory that is free. -/
def freeName (directory : Location) : Nat → Nat → IO String
  | 0, number => return Xacro.temporaryName number
  | fuel + 1, number => do
    match ← entryAt (directory ++ [Xacro.temporaryName number]) with
    | none => return Xacro.temporaryName number
    | some _ => freeName directory fuel (number + 1)

def write (place : Location) : Entry → IO Unit
  | .directory => IO.FS.createDirAll (FileSystem.pathOf place).text
  | .file content => do
    let directory := place.dropLast
    let temporary := (FileSystem.pathOf (directory ++ [← freeName directory 1000 0])).text
    IO.FS.writeBinFile temporary content
    IO.FS.rename temporary (FileSystem.pathOf place).text

/-- Carries out a run, and leaves on the disk what it has changed. -/
def run (options : Command.Options) : IO Command.Outcome := do
  let here : Path := ⟨(← IO.currentDir).toString⟩
  let start : FileSystem := { workingDirectory := here.steps }
  let paths := [here, options.config.getD defaultConfigPath] ++ options.outputDirectory.toList
  let observed ← paths.foldlM observe start
  let expected := changes observed (Command.run observed options).files
  let observeAt := fun fs (place, _) => observe fs (FileSystem.pathOf place)
  let complete ← expected.foldlM observeAt observed
  let outcome := Command.run complete options
  for (place, entry) in changes complete outcome.files do
    write place entry
  return outcome

end RobotDescription.Disk

open RobotDescription in
def main (arguments : List String) : IO UInt32 := do
  match Command.Options.ofArguments arguments with
  | .error .version =>
    IO.print Command.versionText
    return 0
  | .error .help =>
    IO.print Command.helpText
    return 0
  | .error (.usage e) =>
    IO.eprintln ("error: " ++ e.message)
    return 2
  | .ok options =>
    try
      let outcome ← Disk.run options
      let filter := Filter.forRun (← IO.getEnv "RUST_LOG") options.verbosity
      for line in outcome.log filter do
        IO.eprintln line
      match outcome.result with
      | .ok bytes => (← IO.getStdout).write bytes
      | .error e => IO.eprintln ("error: " ++ e.message)
      return outcome.exitCode
    catch e =>
      IO.eprintln ("error: " ++ toString e)
      return 1
