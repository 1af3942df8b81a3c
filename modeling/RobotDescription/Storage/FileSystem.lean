import RobotDescription.Storage.Path

/-!
# File systems

A tree of directories and files as a finite map from places to entries, with the working directory
that relative paths start from. There are no links, and every directory may be read and written.
-/

namespace RobotDescription

/-- The names that lead from the root to a place. -/
abbrev Location := List String

/-- What stands at a place. -/
inductive Entry where
  | directory
  | file (content : ByteArray)

/-- Files are equal when their bytes are. -/
instance : DecidableEq Entry
  | .directory, .directory => isTrue rfl
  | .directory, .file _ => isFalse nofun
  | .file _, .directory => isFalse nofun
  | .file ⟨a⟩, .file ⟨b⟩ =>
    if h : a = b then isTrue (h ▸ rfl) else isFalse fun same => h (by cases same; rfl)

/-- Why a path cannot be used. -/
inductive AccessError where
  | missing
  | notDirectory
  | alreadyExists
  | isDirectory
  | badName
deriving DecidableEq, Repr

/-- The entries below the root, each place once, and the place of the working directory. -/
structure FileSystem where
  entries : List (Location × Entry) := []
  workingDirectory : Location := []

namespace FileSystem

/-- The greatest length of a name in bytes. -/
def maxNameLength : Nat := 255

/-- The length in bytes from which a path is too long. -/
def maxPathLength : Nat := 4096

/-- What stands at a place; the root is a directory. -/
def get? (fs : FileSystem) (place : Location) : Option Entry :=
  if place = [] then some .directory else fs.entries.lookup place

/-- Puts an entry at a place, over what stood there. -/
def put (fs : FileSystem) (place : Location) (entry : Entry) : FileSystem :=
  { fs with entries := (place, entry) :: fs.entries.filter (·.1 ≠ place) }

def remove (fs : FileSystem) (place : Location) : FileSystem :=
  { fs with entries := fs.entries.filter (·.1 ≠ place) }

/-- The place that a relative path starts from. -/
def start (fs : FileSystem) (path : Path) : Location :=
  if path.isAbsolute then [] else fs.workingDirectory

/-- A path that no call accepts: it holds a null character or is too long. -/
def isRefused (path : Path) : Bool :=
  path.text.toList.contains '\x00' || maxPathLength ≤ path.text.utf8ByteSize

/-- Follows steps through directories. Whether anything stands at the end is left open. -/
def follow (fs : FileSystem) : Location → List String → Except AccessError Location
  | here, [] => .ok here
  | here, step :: rest =>
    match fs.get? here with
    | none => .error .missing
    | some (.file _) => .error .notDirectory
    | some .directory =>
      if step = ".." then follow fs here.dropLast rest
      else if maxNameLength < step.utf8ByteSize then .error .badName
      else follow fs (here ++ [step]) rest

def locate (fs : FileSystem) (path : Path) : Except AccessError Location :=
  if isRefused path then .error .badName
  else if path.text.isEmpty then .error .missing
  else follow fs (fs.start path) path.steps

/-- The last piece of a path is empty or a dot, so that it can only name a directory. -/
def namesDirectory (path : Path) : Bool :=
  match (Path.pieces path.text.toList).getLast? with
  | some piece => piece = [] || piece = ['.']
  | none => false

/-- The last piece of a path that is not empty is a dot. -/
def endsInDot (path : Path) : Bool :=
  ((Path.pieces path.text.toList).filter (· ≠ [])).getLast? = some ['.']

def status (fs : FileSystem) (path : Path) : Except AccessError Entry :=
  match fs.locate path with
  | .error e => .error e
  | .ok place =>
    match fs.get? place with
    | none => .error .missing
    | some .directory => .ok .directory
    | some (.file content) =>
      if namesDirectory path then .error .notDirectory else .ok (.file content)

def pathExists (fs : FileSystem) (path : Path) : Bool :=
  (fs.status path).isOk

def isFile (fs : FileSystem) (path : Path) : Bool :=
  match fs.status path with
  | .ok (.file _) => true
  | _ => false

/-- The bytes of a file. -/
def read (fs : FileSystem) (path : Path) : Except AccessError ByteArray :=
  match fs.status path with
  | .ok (.file content) => .ok content
  | .ok .directory => .error .isDirectory
  | .error e => .error e

/-- Walks through steps and makes every directory on the way that is missing. -/
def createSteps (fs : FileSystem) :
    Location → List String → FileSystem × Except AccessError Location
  | here, [] => (fs, .ok here)
  | here, step :: rest =>
    if step = ".." then createSteps fs here.dropLast rest
    else if maxNameLength < step.utf8ByteSize then (fs, .error .badName)
    else
      match fs.get? (here ++ [step]) with
      | some .directory => createSteps fs (here ++ [step]) rest
      | some (.file _) => (fs, .error .notDirectory)
      | none => createSteps (fs.put (here ++ [step]) .directory) (here ++ [step]) rest

/-- Makes a directory and those above it that are missing, and tells its place. The empty path is
the working directory. A path that ends in a dot names a directory that must be there already. -/
def createDirectories (fs : FileSystem) (path : Path) : FileSystem × Except AccessError Location :=
  if path.text.isEmpty then (fs, .ok fs.workingDirectory)
  else if isRefused path then (fs, .error .badName)
  else if endsInDot path then
    match createSteps fs (fs.start path) path.steps.dropLast with
    | (made, .error e) => (made, .error e)
    | (made, .ok _) =>
      match made.locate path with
      | .error e => (made, .error e)
      | .ok place =>
        if made.get? place = some .directory then (made, .ok place) else (made, .error .missing)
  else createSteps fs (fs.start path) path.steps

/-- Moves the file at a place to where a path points, over a file that stands there. -/
def rename (fs : FileSystem) (source : Location) (target : Path) : Except AccessError FileSystem :=
  match fs.locate target, fs.get? source with
  | .error e, _ => .error e
  | .ok _, none => .error .missing
  | .ok place, some entry =>
    match fs.get? place with
    | some .directory => .error .isDirectory
    | _ => .ok ((fs.remove source).put place entry)

def pathOf (place : Location) : Path :=
  ⟨String.join (place.map ("/" ++ ·))⟩

/-- The entries below a place, by the names that lead to them from there. -/
def below (fs : FileSystem) (place : Location) : List (Location × Entry) :=
  fs.entries.filterMap fun (other, entry) =>
    if place.isPrefixOf other && other ≠ place then some (other.drop place.length, entry) else none

end FileSystem

end RobotDescription
