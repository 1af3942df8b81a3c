import RobotDescription.Config.Draft
import RobotDescription.Yaml.Content

/-!
# Configurations in YAML documents

A tree is read from its root in the order of the text, so the first thing that does not fit is the
one that is reported, and a cut is reported only when it is reached. Keys that the model does not
know are passed over with their values. Texts of the model take any scalar. A list or a map may
also be written as nothing.
-/

namespace RobotDescription.Yaml

/-- Reading a document: it knows the document, and counts the aliases that were followed. -/
abbrev Reading := ReaderT Document (StateT Nat (Except ReadError))

namespace Reading

/-- The number of aliases that may be followed for each node of the document. -/
def maxFollowed : Nat := 100

/-- The greatest number of collections around a node that is read. -/
def maxDepth : Nat := 128

/-- Follows an alias to the node that it stands for. -/
def resolve (node : Node) : Reading Node := do
  match node with
  | .alias anchor =>
    let document ← read
    let followed ← get
    -- Aliases of aliases could otherwise multiply without bound.
    if maxFollowed * document.size ≤ followed then throw .malformed
    set (followed + 1)
    return document.node anchor
  | other => return other

/-- The error for a node in the place of something else. -/
def mismatch : Node → ReadError
  | .cut => .malformed
  | .scalar s => if s.content?.isNone then .malformed else .invalidType
  | _ => .invalidType

/-- Passes over a node without following aliases. -/
def skip (node : Node) : Reading Unit :=
  if node.isComplete then return () else throw .malformed

/-- A text: that of any scalar. -/
def text (node : Node) : Reading String := do
  match ← resolve node with
  | .scalar s => return s.text
  | other => throw (mismatch other)

def items (node : Node) : Reading (List Node) := do
  match ← resolve node with
  | .sequence _ items => return items
  | .scalar s => if s.isAbsent then return [] else throw (mismatch (.scalar s))
  | other => throw (mismatch other)

def entries (node : Node) : Reading (List (Node × Node)) := do
  match ← resolve node with
  | .mapping _ entries => return entries
  | .scalar s => if s.isAbsent then return [] else throw (mismatch (.scalar s))
  | other => throw (mismatch other)

/-- Reads a scalar of one kind, which must be plain, or a literal block with the tag of that kind.
-/
def ofKind {α : Type} (tag : CoreTag) (read? : String → Option α) (node : Node) : Reading α := do
  match ← resolve node with
  | .scalar s =>
    if s.style = .plain || (s.style = .literal && s.coreTag? = some tag) then
      match read? s.text with
      | some value => return value
      | none => throw (mismatch (.scalar s))
    else throw (mismatch (.scalar s))
  | other => throw (mismatch other)

def bool : Node → Reading Bool := ofKind .bool Content.bool?

def coordinate : Node → Reading Binary64 := ofKind .float Content.float?

/-- Three coordinates. Items after the third are passed over and then refused. -/
def vector (node : Node) : Reading Vector3 := do
  let all ← items node
  let coordinates ← (all.take 3).mapM coordinate
  (all.drop 3).forM skip
  match coordinates, all.drop 3 with
  | [x, y, z], [] => return ⟨x, y, z⟩
  | _, _ => throw .invalidLength

/-- Half a pose, which is unset where nothing or null is written. -/
def poseHalf (node : Node) : Reading (Option Vector3) := do
  let target ← resolve node
  match target with
  | .scalar s =>
    -- The tag of null admits no other text.
    if s.style = .plain && s.coreTag? = some .null then
      if Content.isNull s.text then return none else throw .malformed
    else if s.style = .plain && s.tag.isNone && (s.text.isEmpty || Content.isNull s.text) then
      return none
    else return some (← vector target)
  | _ => return some (← vector target)

/-- What a scalar in the place of a parameter's value stands for. An integer must fit 64 bits,
with a sign or without. -/
def scalarContent (s : Scalar) : Except ReadError Content :=
  if isLocalTag s.tag then .error .malformed
  else
    match s.content? with
    | none => .error .malformed
    | some (.int n) =>
      if Int64.minValue.toInt ≤ n && n < UInt64.size then .ok (.int n) else .error .invalidType
    | some content => .ok content

/-- The parameter value that something stands for. An integer too large for the model becomes the
nearest float. -/
def ofContent : Content → Except ReadError ParameterValue
  | .null => .error .noVariant
  | .bool b => .ok (.bool b)
  | .int n => .ok (if n ≤ Int64.maxValue.toInt then .int (Int64.ofInt n) else .float (.ofInt n))
  | .float x => .ok (.float x)
  | .text s => .ok (.text s)

/-- Walks through a collection in the place of a parameter's value, to the given depth. -/
def walk : Nat → Node → Reading Unit
  | depth, node => do
    match ← resolve node with
    | .scalar s =>
      let _ ← scalarContent s
    | .sequence tag items =>
      if isLocalTag tag then throw .malformed
      match depth with
      | 0 => throw .malformed
      | depth + 1 => items.forM (walk depth)
    | .mapping tag entries =>
      if isLocalTag tag then throw .malformed
      match depth with
      | 0 => throw .malformed
      | depth + 1 =>
        entries.forM fun (key, value) => do
          walk depth key
          walk depth value
    | _ => throw .malformed

/-- The value of a parameter, below the given number of collections. -/
def parameterValue (around : Nat) (node : Node) : Reading ParameterValue := do
  let target ← resolve node
  match target with
  | .scalar s => ofContent (← scalarContent s)
  | other =>
    -- What is wrong inside the collection comes before the collection itself.
    walk (maxDepth - around) other
    throw .noVariant

/-- Parameters. A name that is repeated takes its last value. -/
def parameters (around : Nat) (node : Node) : Reading Parameters := do
  (← entries node).foldlM (fun parameters (key, value) => do
    let name ← text key
    return parameters.insert name (← parameterValue (around + 1) value)) .empty

/-- Reads the fields of a map one after the other. -/
def fields {α : Type} (field : α → String → Node → Reading α) (start : α) (node : Node) :
    Reading α := do
  (← entries node).foldlM (fun draft (key, value) => do field draft (← text key) value) start

/-- A field that may be met once only. -/
def once {α β : Type} (name : String) (earlier : Option α) (value : Reading β) :
    Reading (Option β) :=
  if earlier.isSome then throw (.duplicateField name) else return some (← value)

def decorationField (draft : DecorationDraft) (name : String) (node : Node) :
    Reading DecorationDraft := do
  match name with
  | "type" => return { draft with kind := ← once name draft.kind (text node) }
  | "enabled" => return { draft with enabled := ← once name draft.enabled (bool node) }
  | "parameters" =>
    return { draft with parameters := ← once name draft.parameters (parameters 4 node) }
  | _ =>
    skip node
    return draft

def decoration (node : Node) : Reading Decoration := do
  (← fields decorationField {} node).finish

def mountField (draft : MountDraft) (name : String) (node : Node) : Reading MountDraft := do
  match name with
  | "name" => return { draft with name := ← once name draft.name (text node) }
  | "model" => return { draft with model := ← once name draft.model (text node) }
  | "parent" => return { draft with parent := ← once name draft.parent (text node) }
  | "xyz" => return { draft with xyz := ← once name draft.xyz (poseHalf node) }
  | "rpy" => return { draft with rpy := ← once name draft.rpy (poseHalf node) }
  | "parameters" =>
    return { draft with parameters := ← once name draft.parameters (parameters 3 node) }
  | _ =>
    skip node
    return draft

def mount (node : Node) : Reading Mount := do
  (← fields mountField {} node).finish

def platformField (draft : PlatformDraft) (name : String) (node : Node) :
    Reading PlatformDraft := do
  match name with
  | "model" => return { draft with model := ← once name draft.model (text node) }
  | "decorations" =>
    return { draft with
      decorations := ← once name draft.decorations (do (← items node).mapM decoration) }
  | _ =>
    skip node
    return draft

def platform (node : Node) : Reading PlatformConfig := do
  (← fields platformField {} node).finish

def configField (draft : ConfigDraft) (name : String) (node : Node) : Reading ConfigDraft := do
  match name with
  | "serial_number" =>
    return { draft with serialNumber := ← once name draft.serialNumber (text node) }
  | "platform" => return { draft with platform := ← once name draft.platform (platform node) }
  | "mounts" =>
    return { draft with mounts := ← once name draft.mounts (do (← items node).mapM mount) }
  | _ =>
    skip node
    return draft

def config (node : Node) : Reading RobotConfig := do
  (← fields configField {} node).finish

end Reading

end RobotDescription.Yaml

namespace RobotDescription

/-- The configuration that a document holds. What follows the document is looked at last. -/
def RobotConfig.ofYaml (document : Yaml.Document) : Except ReadError RobotConfig := do
  let (config, _) ← (Yaml.Reading.config document.root).run document |>.run 0
  if document.isLast then return config else throw .malformed

end RobotDescription
