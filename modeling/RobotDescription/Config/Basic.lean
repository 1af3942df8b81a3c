import RobotDescription.Decimal.Positional

/-!
# Robot configurations

A configuration names one platform, the decorations fitted to it and the mounts attached to the
robot. Models are plain texts here; the registries decide which of them are supported.
-/

namespace RobotDescription

/-- Three coordinates: a position in metres, or roll, pitch and yaw in radians. -/
structure Vector3 where
  x : Binary64
  y : Binary64
  z : Binary64
deriving DecidableEq, Repr

def Vector3.zero : Vector3 := ⟨.zero, .zero, .zero⟩

def Vector3.sameValue (u v : Vector3) : Bool :=
  u.x.sameValue v.x && u.y.sameValue v.y && u.z.sameValue v.z

/-- The value of a model-specific parameter. -/
inductive ParameterValue where
  | bool (value : Bool)
  | int (value : Int64)
  | float (value : Binary64)
  | text (value : String)
deriving DecidableEq, Repr

/-- The text that stands for a value in a macro call. -/
def ParameterValue.toText : ParameterValue → String
  | .bool true => "true"
  | .bool false => "false"
  | .int n => toString n.toInt
  | .float x => x.toText
  | .text s => s

/-- Parameters by name, in ascending order of the names. -/
structure Parameters where
  entries : List (String × ParameterValue)
  ascending : entries.Pairwise fun a b => a.1 < b.1
deriving DecidableEq

namespace Parameters

/-- No parameters. -/
def empty : Parameters := ⟨[], .nil⟩

/-- Puts an entry at its place in an ascending list; an entry of the same name is replaced. -/
def place (name : String) (value : ParameterValue) :
    List (String × ParameterValue) → List (String × ParameterValue)
  | [] => [(name, value)]
  | entry :: rest =>
    if name < entry.1 then (name, value) :: entry :: rest
    else if name = entry.1 then (name, value) :: rest
    else entry :: place name value rest

/-- What is among the entries after one is placed is that one or was there before. -/
theorem mem_place {name : String} {value : ParameterValue}
    {entries : List (String × ParameterValue)} {e : String × ParameterValue}
    (h : e ∈ place name value entries) :
    e = (name, value) ∨ e ∈ entries := by
  induction entries with
  | nil => simpa [place] using h
  | cons entry rest ih =>
    unfold place at h
    split at h
    · simpa using h
    · split at h
      · rcases List.mem_cons.1 h with h | h
        · exact .inl h
        · exact .inr (List.mem_cons_of_mem _ h)
      · rcases List.mem_cons.1 h with h | h
        · exact .inr (h ▸ List.mem_cons_self)
        · exact (ih h).imp id (List.mem_cons_of_mem _)

theorem pairwise_place {name : String} {value : ParameterValue}
    {entries : List (String × ParameterValue)} (h : entries.Pairwise fun a b => a.1 < b.1) :
    (place name value entries).Pairwise fun a b => a.1 < b.1 := by
  induction entries with
  | nil => simp [place]
  | cons entry rest ih =>
    obtain ⟨below, ascending⟩ := List.pairwise_cons.1 h
    unfold place
    split
    case isTrue before =>
      refine List.pairwise_cons.2 ⟨fun e he => ?_, h⟩
      rcases List.mem_cons.1 he with rfl | he
      · exact before
      · exact String.lt_trans before (below e he)
    case isFalse notBefore =>
      split
      case isTrue same => exact List.pairwise_cons.2 ⟨fun e he => same ▸ below e he, ascending⟩
      case isFalse other =>
        refine List.pairwise_cons.2 ⟨fun e he => ?_, ih ascending⟩
        rcases mem_place he with rfl | he
        · exact Std.lt_of_le_of_ne (String.not_lt.1 notBefore) (Ne.symm other)
        · exact below e he

/-- Sets a parameter; an earlier value of the same name is lost. -/
def insert (parameters : Parameters) (name : String) (value : ParameterValue) : Parameters :=
  ⟨place name value parameters.entries, pairwise_place parameters.ascending⟩

/-- The parameters that arise when entries are set one after the other. -/
def ofList (entries : List (String × ParameterValue)) : Parameters :=
  entries.foldl (fun parameters entry => parameters.insert entry.1 entry.2) empty

def names (parameters : Parameters) : List String :=
  parameters.entries.map (·.1)

end Parameters

/-- A decoration of the platform, such as a bumper or a top plate. -/
structure Decoration where
  kind : String
  enabled : Bool := false
  parameters : Parameters := .empty
deriving DecidableEq

/-- The robot's base and what is fitted to it, in document order. -/
structure PlatformConfig where
  model : String
  decorations : List Decoration := []
deriving DecidableEq

/-- The link that a mount is attached to when the configuration names none. -/
def defaultParentLink : String := "base_link"

/-- An accessory or sensor mount. An unset half of the pose is zero. -/
structure Mount where
  name : String
  model : String
  parent : String := defaultParentLink
  xyz : Option Vector3 := none
  rpy : Option Vector3 := none
  parameters : Parameters := .empty
deriving DecidableEq

/-- The configuration of one robot. Its serial number names what is generated. -/
structure RobotConfig where
  serialNumber : String
  platform : PlatformConfig
  mounts : List Mount := []
deriving DecidableEq

/-- The decorations that are generated, in document order. -/
def RobotConfig.enabledDecorations (config : RobotConfig) : List Decoration :=
  config.platform.decorations.filter (·.enabled)

end RobotDescription
