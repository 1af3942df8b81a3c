import RobotDescription.Storage.FileSystem
import RobotDescription.Xacro.Writer

/-!
# Description files

A description is written to a temporary file beside its target and moved onto the target when it
is closed. So the target is at every moment the previous complete description or the new one, and
a description that is dropped leaves nothing behind.
-/

namespace RobotDescription.Xacro

/-- The path of the description for a serial number in a directory. -/
def outputPath (directory : Path) (serial : String) : Path :=
  directory.join ⟨serial ++ "." ++ fileExtension⟩

def temporaryName (number : Nat) : String :=
  ".descgen-" ++ toString number ++ ".tmp"

/-- A name of the form that temporary files have. -/
def isTemporaryName (name : String) : Bool :=
  name.startsWith ".descgen-" && name.endsWith ".tmp"

/-- A temporary name that is not in use in a directory. -/
def freshName (fs : FileSystem) (directory : Location) : String :=
  let candidates := List.range (fs.entries.length + 1)
  let isFree := fun number => (fs.get? (directory ++ [temporaryName number])).isNone
  temporaryName ((candidates.find? isFree).getD 0)

/-- A description that is still written: the place of its temporary file and the writer on it. -/
structure Draft where
  temporary : Location
  writer : Writer

/-- A description file: where it will stand, and its draft until it is closed. -/
structure DescriptionFile where
  target : Path
  draft : Option Draft

namespace DescriptionFile

def isClosed (file : DescriptionFile) : Bool :=
  file.draft.isNone

/-- What comes of opening a description file. -/
structure Opening where
  files : FileSystem
  result : Except SinkError DescriptionFile
  notes : List Note := []

def absolute (fs : FileSystem) (path : Path) : Path :=
  (FileSystem.pathOf fs.workingDirectory).join path

/-- Opens a description file for a serial number. The directory is made if it is missing. -/
def create (fs : FileSystem) (directory : Path) (serial : String) : Opening :=
  match fs.createDirectories directory with
  | (made, .error _) => { files := made, result := .error .io }
  | (made, .ok place) =>
    let name := freshName made place
    let temporary := place ++ [name]
    let target := outputPath directory serial
    let notes := [Note.opened ((absolute made directory).join ⟨name⟩) target]
    match Writer.create {} serial with
    | .error _ => { files := made, result := .error .io, notes }
    | .ok writer =>
      { files := made.put temporary (.file .empty)
        result := .ok { target, draft := some { temporary, writer } }
        notes }

/-- Gives up a description file; its temporary file goes with it. -/
def drop (fs : FileSystem) (file : DescriptionFile) : FileSystem :=
  match file.draft with
  | none => fs
  | some draft => fs.remove draft.temporary

end DescriptionFile

/-- A description file together with the file system in which it stands. -/
structure FileSink where
  files : FileSystem
  file : DescriptionFile

namespace FileSink

/-- Makes a call on the writer of the draft; a closed file has none. -/
def onWriter (call : Writer → Reply Writer) (sink : FileSink) : Reply FileSink :=
  match sink.file.draft with
  | none => ⟨sink, .error .closed, []⟩
  | some draft =>
    let reply := call draft.writer
    ⟨{ sink with file := { sink.file with draft := some { draft with writer := reply.sink } } },
      reply.result, reply.notes⟩

def publish (fs : FileSystem) (temporary : Location) (content : ByteArray) (target : Path) :
    FileSystem × Except SinkError Unit × List Note :=
  let finished := fs.put temporary (.file content)
  let replacing := if finished.pathExists target then [Note.replacing target] else []
  match finished.rename temporary target with
  | .ok renamed => (renamed, .ok (), replacing ++ [.written target])
  | .error _ => (finished.remove temporary, .error (.persist target), replacing)

/-- Closes the file. The draft is given up first, so the file is closed afterwards whether or not
this succeeds. -/
def close (sink : FileSink) : Reply FileSink :=
  match sink.file.draft with
  | none => ⟨sink, .error .closed, []⟩
  | some draft =>
    let file := { sink.file with draft := none }
    let ended := draft.writer.close
    match ended.result with
    | .error e => ⟨⟨sink.files.remove draft.temporary, file⟩, .error e, ended.notes⟩
    | .ok () =>
      let (files, result, notes) :=
        publish sink.files draft.temporary ended.sink.destination.stored file.target
      ⟨⟨files, file⟩, result, ended.notes ++ notes⟩

instance : Sink FileSink where
  writeInclusion package file path := onWriter (Sink.writeInclusion package file path)
  writeCall macroName arguments blocks := onWriter (Sink.writeCall macroName arguments blocks)
  writeComment text := onWriter (Sink.writeComment text)
  writeBlank := onWriter Sink.writeBlank
  close := close

/-- A file hands directives of all kinds on to its writer. -/
theorem write_eq_onWriter (directive : Directive) :
    (Sink.write directive : FileSink → Reply FileSink) = onWriter (Sink.write directive) := by
  cases directive <;> rfl

end FileSink

end RobotDescription.Xacro
