import Mathlib.Data.List.Forall2
import RobotDescription.Config.Basic

/-!
# Configurations written as trees

A configuration is written as maps, one for each of its parts, with the fields in their order. A field
that holds its default may be left out, and half a pose that is unset is always left out. What is
particular to a format is how it spells texts, numbers, lists, maps and the entries of maps.
-/

namespace RobotDescription

section OneNaN

/-- The double itself; for every NaN the one that formats have a word for. -/
def Binary64.oneNaN (x : Binary64) : Binary64 :=
  if x.isNaN then .nan false else x

def Vector3.oneNaN (v : Vector3) : Vector3 :=
  ⟨v.x.oneNaN, v.y.oneNaN, v.z.oneNaN⟩

def ParameterValue.oneNaN : ParameterValue → ParameterValue
  | .float x => .float x.oneNaN
  | other => other

def Parameters.oneNaN (parameters : Parameters) : Parameters where
  entries := parameters.entries.map fun entry => (entry.1, entry.2.oneNaN)
  ascending := List.pairwise_map.mpr parameters.ascending

def Decoration.oneNaN (decoration : Decoration) : Decoration :=
  { decoration with parameters := decoration.parameters.oneNaN }

def PlatformConfig.oneNaN (platform : PlatformConfig) : PlatformConfig :=
  { platform with decorations := platform.decorations.map Decoration.oneNaN }

def Mount.oneNaN (mount : Mount) : Mount :=
  { mount with
    xyz := mount.xyz.map Vector3.oneNaN
    rpy := mount.rpy.map Vector3.oneNaN
    parameters := mount.parameters.oneNaN }

/-- The same configuration with one NaN in the place of all. -/
def RobotConfig.oneNaN (config : RobotConfig) : RobotConfig :=
  { config with
    platform := config.platform.oneNaN
    mounts := config.mounts.map Mount.oneNaN }

end OneNaN

/-- How a format spells what a configuration is made of. Several spellings may be admitted. -/
structure Spelling where
  Source : Type
  Entry : Type
  text : String → Source → Prop
  bool : Bool → Source → Prop
  int : Int64 → Source → Prop
  float : Binary64 → Source → Prop
  list : List Source → Source
  map : List Entry → Source
  /-- An entry of a map, with its name and its value. -/
  entry : String → Source → Entry → Prop

namespace Spelling

variable (spelling : Spelling)

def vector (v : Vector3) (source : spelling.Source) : Prop :=
  ∃ x y z, source = spelling.list [x, y, z] ∧ spelling.float v.x x ∧ spelling.float v.y y ∧
    spelling.float v.z z

def parameter : ParameterValue → spelling.Source → Prop
  | .bool b => spelling.bool b
  | .int n => spelling.int n
  | .float x => spelling.float x
  | .text s => spelling.text s

def parameters (parameters : Parameters) (source : spelling.Source) : Prop :=
  ∃ entries, source = spelling.map entries ∧
    List.Forall₂ (fun pair entry => ∃ value, spelling.entry pair.1 value entry ∧
      spelling.parameter pair.2 value) parameters.entries entries

/-- A list of which every item is written. -/
def items {α : Type} (writes : α → spelling.Source → Prop) (all : List α)
    (source : spelling.Source) : Prop :=
  ∃ sources, source = spelling.list sources ∧ List.Forall₂ writes all sources

/-- The entry for a field. -/
def Has (name : String) (writes : spelling.Source → Prop) (entries : List spelling.Entry) : Prop :=
  ∃ entry value, entries = [entry] ∧ spelling.entry name value entry ∧ writes value

/-- The entry for a field, which may be missing if the field holds its default. -/
def MayHave {α : Type} (name : String) (writes : α → spelling.Source → Prop) (default value : α)
    (entries : List spelling.Entry) : Prop :=
  spelling.Has name (writes value) entries ∨ value = default ∧ entries = []

/-- The entry for a field that is set; otherwise there is none. -/
def HasIfSet {α : Type} (name : String) (writes : α → spelling.Source → Prop) :
    Option α → List spelling.Entry → Prop
  | some value => spelling.Has name (writes value)
  | none => (· = [])

def decoration (decoration : Decoration) (source : spelling.Source) : Prop :=
  ∃ kind enabled parameters, source = spelling.map [kind, enabled, parameters].flatten ∧
    spelling.Has "type" (spelling.text decoration.kind) kind ∧
    spelling.MayHave "enabled" spelling.bool false decoration.enabled enabled ∧
    spelling.MayHave "parameters" spelling.parameters .empty decoration.parameters parameters

def mount (mount : Mount) (source : spelling.Source) : Prop :=
  ∃ name model parent xyz rpy parameters,
    source = spelling.map [name, model, parent, xyz, rpy, parameters].flatten ∧
    spelling.Has "name" (spelling.text mount.name) name ∧
    spelling.Has "model" (spelling.text mount.model) model ∧
    spelling.MayHave "parent" spelling.text defaultParentLink mount.parent parent ∧
    spelling.HasIfSet "xyz" spelling.vector mount.xyz xyz ∧
    spelling.HasIfSet "rpy" spelling.vector mount.rpy rpy ∧
    spelling.MayHave "parameters" spelling.parameters .empty mount.parameters parameters

def platform (platform : PlatformConfig) (source : spelling.Source) : Prop :=
  ∃ model decorations, source = spelling.map [model, decorations].flatten ∧
    spelling.Has "model" (spelling.text platform.model) model ∧
    spelling.MayHave "decorations" (spelling.items spelling.decoration) [] platform.decorations
      decorations

def config (config : RobotConfig) (source : spelling.Source) : Prop :=
  ∃ serial platform mounts, source = spelling.map [serial, platform, mounts].flatten ∧
    spelling.Has "serial_number" (spelling.text config.serialNumber) serial ∧
    spelling.Has "platform" (spelling.platform config.platform) platform ∧
    spelling.MayHave "mounts" (spelling.items spelling.mount) [] config.mounts mounts

/-- There is a spelling for everything. -/
structure IsTotal : Prop where
  text : ∀ s, ∃ source, spelling.text s source
  bool : ∀ b, ∃ source, spelling.bool b source
  int : ∀ n, ∃ source, spelling.int n source
  float : ∀ x, ∃ source, spelling.float x source
  entry : ∀ name value, ∃ entry, spelling.entry name value entry

end Spelling

namespace Spelling.IsTotal

variable {spelling : Spelling} (htotal : spelling.IsTotal)
include htotal

theorem exists_vector (v : Vector3) : ∃ source, spelling.vector v source := by
  obtain ⟨x, hx⟩ := htotal.float v.x
  obtain ⟨y, hy⟩ := htotal.float v.y
  obtain ⟨z, hz⟩ := htotal.float v.z
  exact ⟨_, x, y, z, rfl, hx, hy, hz⟩

theorem exists_parameter (value : ParameterValue) : ∃ source, spelling.parameter value source := by
  cases value with
  | bool b => exact htotal.bool b
  | int n => exact htotal.int n
  | float x => exact htotal.float x
  | text s => exact htotal.text s

theorem exists_parameters (parameters : Parameters) :
    ∃ source, spelling.parameters parameters source := by
  have hentries : ∀ pairs : List (String × ParameterValue), ∃ entries,
      List.Forall₂ (fun pair entry => ∃ value, spelling.entry pair.1 value entry ∧
        spelling.parameter pair.2 value) pairs entries := by
    intro pairs
    induction pairs with
    | nil => exact ⟨[], .nil⟩
    | cons pair rest ih =>
        obtain ⟨value, hvalue⟩ := htotal.exists_parameter pair.2
        obtain ⟨entry, hentry⟩ := htotal.entry pair.1 value
        obtain ⟨entries, hrest⟩ := ih
        exact ⟨entry :: entries, .cons ⟨value, hentry, hvalue⟩ hrest⟩
  obtain ⟨entries, hentries⟩ := hentries parameters.entries
  exact ⟨_, entries, rfl, hentries⟩

omit htotal in
theorem exists_items {α : Type} {writes : α → spelling.Source → Prop}
    (hwrites : ∀ item, ∃ source, writes item source) (all : List α) :
    ∃ source, spelling.items writes all source := by
  have hsources : ∃ sources, List.Forall₂ writes all sources := by
    induction all with
    | nil => exact ⟨[], .nil⟩
    | cons item rest ih =>
        obtain ⟨source, hsource⟩ := hwrites item
        obtain ⟨sources, hrest⟩ := ih
        exact ⟨source :: sources, .cons hsource hrest⟩
  obtain ⟨sources, hall⟩ := hsources
  exact ⟨_, sources, rfl, hall⟩

theorem exists_has (name : String) {writes : spelling.Source → Prop}
    (hwrites : ∃ source, writes source) : ∃ entries, spelling.Has name writes entries := by
  obtain ⟨value, hvalue⟩ := hwrites
  obtain ⟨entry, hentry⟩ := htotal.entry name value
  exact ⟨_, entry, value, rfl, hentry, hvalue⟩

theorem exists_mayHave {α : Type} (name : String) {writes : α → spelling.Source → Prop}
    (default : α) {value : α} (hwrites : ∃ source, writes value source) :
    ∃ entries, spelling.MayHave name writes default value entries := by
  obtain ⟨entries, hentries⟩ := htotal.exists_has name hwrites
  exact ⟨entries, .inl hentries⟩

theorem exists_hasIfSet {α : Type} (name : String) {writes : α → spelling.Source → Prop}
    (hwrites : ∀ value, ∃ source, writes value source) (value? : Option α) :
    ∃ entries, spelling.HasIfSet name writes value? entries := by
  cases value? with
  | none => exact ⟨[], rfl⟩
  | some value => exact htotal.exists_has name (hwrites value)

theorem exists_decoration (decoration : Decoration) :
    ∃ source, spelling.decoration decoration source := by
  obtain ⟨kind, hkind⟩ := htotal.exists_has "type" (htotal.text decoration.kind)
  obtain ⟨enabled, henabled⟩ := htotal.exists_mayHave "enabled" false (htotal.bool decoration.enabled)
  obtain ⟨parameters, hparameters⟩ := htotal.exists_mayHave "parameters" .empty
    (htotal.exists_parameters decoration.parameters)
  exact ⟨_, kind, enabled, parameters, rfl, hkind, henabled, hparameters⟩

theorem exists_mount (mount : Mount) : ∃ source, spelling.mount mount source := by
  obtain ⟨name, hname⟩ := htotal.exists_has "name" (htotal.text mount.name)
  obtain ⟨model, hmodel⟩ := htotal.exists_has "model" (htotal.text mount.model)
  obtain ⟨parent, hparent⟩ := htotal.exists_mayHave "parent" defaultParentLink
    (htotal.text mount.parent)
  obtain ⟨xyz, hxyz⟩ := htotal.exists_hasIfSet "xyz" htotal.exists_vector mount.xyz
  obtain ⟨rpy, hrpy⟩ := htotal.exists_hasIfSet "rpy" htotal.exists_vector mount.rpy
  obtain ⟨parameters, hparameters⟩ := htotal.exists_mayHave "parameters" .empty
    (htotal.exists_parameters mount.parameters)
  exact ⟨_, name, model, parent, xyz, rpy, parameters, rfl, hname, hmodel, hparent, hxyz, hrpy,
    hparameters⟩

theorem exists_platform (platform : PlatformConfig) :
    ∃ source, spelling.platform platform source := by
  obtain ⟨model, hmodel⟩ := htotal.exists_has "model" (htotal.text platform.model)
  obtain ⟨decorations, hdecorations⟩ := htotal.exists_mayHave "decorations" []
    (exists_items htotal.exists_decoration platform.decorations)
  exact ⟨_, model, decorations, rfl, hmodel, hdecorations⟩

/-- Every configuration can be written. -/
theorem exists_config (config : RobotConfig) : ∃ source, spelling.config config source := by
  obtain ⟨serial, hserial⟩ := htotal.exists_has "serial_number" (htotal.text config.serialNumber)
  obtain ⟨platform, hplatform⟩ := htotal.exists_has "platform"
    (htotal.exists_platform config.platform)
  obtain ⟨mounts, hmounts⟩ := htotal.exists_mayHave "mounts" []
    (exists_items htotal.exists_mount config.mounts)
  exact ⟨_, serial, platform, mounts, rfl, hserial, hplatform, hmounts⟩

end Spelling.IsTotal

end RobotDescription
