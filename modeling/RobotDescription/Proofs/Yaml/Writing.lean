import RobotDescription.Proofs.Config.Filling
import RobotDescription.Proofs.Config.Parameters
import RobotDescription.Proofs.Yaml.Parts
import RobotDescription.Proofs.Yaml.Scalars

/-!
# Configurations written in YAML

Texts are quoted; truth values and numbers are plain scalars. What is written so is read back, since
no plain scalar that is written for one kind stands for another.
-/

namespace RobotDescription.Yaml

/-- A finite double in positional notation, and the other doubles in the words of the format. -/
def floatText (x : Binary64) : String :=
  if x.isNaN then ".nan"
  else if x.isInfinite then if x.isNegative then "-.inf" else ".inf"
  else x.toText

def plain (text : String) : Node :=
  .scalar ⟨text, .plain, none⟩

/-- The spelling of YAML documents. The names of entries may be written in any style. -/
abbrev spelling : Spelling where
  Source := Node
  Entry := Node × Node
  text s node := ∃ style, (style = .singleQuoted ∨ style = .doubleQuoted) ∧
    node = .scalar ⟨s, style, none⟩
  bool b node := node = plain (if b then "true" else "false")
  int n node := node = plain (toString n.toInt)
  float x node := node = plain (floatText x)
  list := .sequence none
  map := .mapping none
  entry name value entry := ∃ style, entry = (.scalar ⟨name, style, none⟩, value)

theorem isTotal_spelling : spelling.IsTotal where
  text _ := ⟨_, _, .inr rfl, rfl⟩
  bool _ := ⟨_, rfl⟩
  int _ := ⟨_, rfl⟩
  float _ := ⟨_, rfl⟩
  entry _ _ := ⟨_, .doubleQuoted, rfl⟩

namespace Content

theorem float?_toText {x : Binary64} (hfinite : x.isFinite = true) : float? x.toText = some x := by
  rw [float?_isNumeric (Binary64.isNumeric_toText hfinite), Binary64.ofLiteral?_toText hfinite,
    Option.filter_some, if_pos hfinite]

/-- A double is finite, or its text is one of three words. -/
theorem floatText_cases (x : Binary64) :
    (x.isFinite = true ∧ floatText x = x.toText ∧ x.oneNaN = x) ∨
      (floatText x = ".nan" ∧ x.oneNaN = .nan false) ∨
      (floatText x = "-.inf" ∧ x.oneNaN = .infinity true) ∨
      floatText x = ".inf" ∧ x.oneNaN = .infinity false := by
  cases hnan : x.isNaN with
  | true => exact .inr (.inl ⟨by rw [floatText, hnan, if_pos rfl],
      by rw [Binary64.oneNaN, hnan, if_pos rfl]⟩)
  | false =>
      have hone : x.oneNaN = x := by rw [Binary64.oneNaN, hnan, if_neg Bool.false_ne_true]
      rw [hone, floatText, hnan, if_neg Bool.false_ne_true]
      rcases Binary64.isFinite_or_isInfinite hnan with hfinite | hinfinite
      · have hnot : x.isInfinite = false :=
          beq_eq_false_iff_ne.mpr (of_decide_eq_true hfinite).ne
        exact .inl ⟨hfinite, by rw [hnot, if_neg Bool.false_ne_true], rfl⟩
      · have hinfinity := Binary64.eq_infinity hinfinite
        rw [hinfinite, if_pos rfl]
        cases hneg : x.isNegative with
        | true => exact .inr (.inr (.inl ⟨rfl, hneg ▸ hinfinity⟩))
        | false => exact .inr (.inr (.inr ⟨rfl, hneg ▸ hinfinity⟩))

theorem float?_floatText (x : Binary64) : float? (floatText x) = some x.oneNaN := by
  rcases floatText_cases x with ⟨hfinite, htext, hone⟩ | ⟨htext, hone⟩ | ⟨htext, hone⟩ |
    ⟨htext, hone⟩
  · rw [htext, hone, float?_toText hfinite]
  · rw [htext, hone]
    rfl
  · rw [htext, hone]
    rfl
  · rw [htext, hone]
    rfl

theorem ofPlain_floatText (x : Binary64) : ofPlain (floatText x) = .float x.oneNaN := by
  rcases floatText_cases x with ⟨hfinite, htext, hone⟩ | ⟨htext, hone⟩ | ⟨htext, hone⟩ |
    ⟨htext, hone⟩
  · rw [htext, hone, ofPlain_toText hfinite]
  · rw [htext, hone]
    rfl
  · rw [htext, hone]
    rfl
  · rw [htext, hone]
    rfl

theorem ofPlain_toString {n : Int} (hlow : -(2 ^ 127) ≤ n) (hhigh : n < 2 ^ 128) :
    ofPlain (toString n) = .int n := by
  have hinteger := isInteger_toString n
  rw [ofPlain_isNumeric hinteger.isNumeric, int?_isInteger hinteger, signedValue_toDigits,
    if_pos ⟨hlow, hhigh⟩]

end Content

/-- The parameter that a plain scalar gives, by what it stands for. -/
theorem Scalar.parameter?_plain (text : String) :
    Scalar.parameter? ⟨text, .plain, none⟩ =
      match Content.ofPlain text with
      | .null => none
      | .bool b => some (.bool b)
      | .int n =>
        if -(2 ^ 63) ≤ n ∧ n < 2 ^ 64 then
          some (if n < 2 ^ 63 then .int (Int64.ofInt n) else .float (.ofInt n))
        else none
      | .float x => some (.float x)
      | .text s => some (.text s) := by
  have hcontent : Scalar.content? ⟨text, .plain, none⟩ = some (.ofPlain text) := rfl
  have hlocal : isLocalTag none = false := rfl
  rw [Scalar.parameter?, Reading.scalarContent, hlocal, if_neg Bool.false_ne_true, hcontent]
  cases Content.ofPlain text with
  | int n =>
      have hmin : Int64.minValue.toInt = -(2 ^ 63) := rfl
      have hmax : n ≤ Int64.maxValue.toInt ↔ n < 2 ^ 63 := by
        rw [Int64.toInt_maxValue]
        omega
      have hsize : (UInt64.size : Int) = 2 ^ 64 := rfl
      simp only [hmin, hsize, Bool.and_eq_true, decide_eq_true_eq]
      split
      next => simp only [Except.bind, Reading.ofContent, hmax, Except.toOption]
      next => rfl
  | _ => rfl

theorem Scalar.parameter?_int (n : Int64) :
    Scalar.parameter? ⟨toString n.toInt, .plain, none⟩ = some (.int n) := by
  have hlow := n.le_toInt
  have hhigh := n.toInt_lt
  have hcontent : Content.ofPlain (toString n.toInt) = .int n.toInt :=
    Content.ofPlain_toString (by omega) (by omega)
  rw [Scalar.parameter?_plain, hcontent]
  dsimp only
  rw [if_pos (by omega), if_pos hhigh, Int64.ofInt_toInt]

namespace Reading

variable {document : Document} {α : Type}

/-- What is written so is read without following an alias. -/
def Reads (document : Document) (writes : Node → Prop) (reader : Node → Reading α) (value : α) :
    Prop :=
  ∀ node, writes node → Takes document (reader node) value 0

theorem reads_text (s : String) : Reads document (spelling.text s) text s := by
  rintro node ⟨style, _, rfl⟩
  exact picks_text.takes_iff.mpr ⟨Nat.zero_le _, rfl, rfl⟩

theorem reads_bool (b : Bool) : Reads document (spelling.bool b) bool b := by
  rintro node rfl
  refine (picks_ofKind .bool Content.bool?).takes_iff.mpr ⟨Nat.zero_le _, ?_, rfl⟩
  cases b <;> rfl

theorem reads_coordinate (x : Binary64) :
    Reads document (spelling.float x) coordinate x.oneNaN := by
  rintro node rfl
  refine (picks_ofKind .float Content.float?).takes_iff.mpr ⟨Nat.zero_le _, ?_, rfl⟩
  exact Content.float?_floatText x

theorem reads_vector (v : Vector3) :
    Reads document (spelling.vector v) poseHalf (some v.oneNaN) := by
  rintro node ⟨x, y, z, rfl, hx, hy, hz⟩
  refine takes_poseHalf_iff.mpr ⟨Nat.zero_le _, 0, ?_, rfl⟩
  refine takes_poseHalfAt_sequence_iff.mpr ⟨v.oneNaN, rfl, takes_vectorOf_iff.mpr ⟨Nat.zero_le _, ?_⟩⟩
  exact ⟨x, y, z, 0, 0, 0, rfl, reads_coordinate v.x x hx, reads_coordinate v.y y hy,
    reads_coordinate v.z z hz, rfl⟩

theorem reads_parameter (around : Nat) (value : ParameterValue) :
    Reads document (spelling.parameter value) (parameterValue around) value.oneNaN := by
  intro node hnode
  refine (picks_parameterValue around).takes_iff.mpr ⟨Nat.zero_le _, ?_, ?_⟩
  · cases value with
    | bool b =>
        obtain rfl := hnode
        cases b <;> rfl
    | int n =>
        obtain rfl := hnode
        exact Scalar.parameter?_int n
    | float x =>
        obtain rfl := hnode
        change Scalar.parameter? _ = _
        rw [Scalar.parameter?_plain, Content.ofPlain_floatText]
        rfl
    | text s =>
        obtain ⟨style, rfl | rfl, rfl⟩ := hnode
        · rfl
        · rfl
  · cases value with
    | bool | int | float =>
        obtain rfl := hnode
        rfl
    | text s =>
        obtain ⟨style, _, rfl⟩ := hnode
        rfl

theorem reads_parameters (around : Nat) (values : Parameters) :
    Reads document (spelling.parameters values) (parameters around) values.oneNaN := by
  rintro node ⟨entries, rfl, hentries⟩
  have htaken : TakesAll document (parameterEntry (around + 1)) entries
      (values.oneNaN.entries.map fun pair => (pair, 0)) := by
    rw [Parameters.oneNaN, List.map_map]
    refine List.forall₂_map_right_iff.mpr (hentries.flip.imp fun entry pair hentry => ?_)
    obtain ⟨value, ⟨style, rfl⟩, hvalue⟩ := hentry
    obtain ⟨_, hpick, hhops⟩ := (picks_parameterValue (around + 1)).takes_iff.mp
      (reads_parameter (around + 1) pair.2 value hvalue)
    exact takes_parameterEntry_iff.mpr ⟨Nat.zero_le _, rfl, hpick,
      hhops.trans (Nat.zero_add _).symm⟩
  refine takes_parameters_iff.mpr ⟨Nat.zero_le _, entries, _, rfl, htaken, ?_, ?_⟩
  · rw [List.map_map]
    exact (Parameters.ofList_entries values.oneNaN).symm.trans (congrArg _ (List.map_id' _).symm)
  · rw [total_map_zero]
    rfl

theorem reads_items {β : Type} {writes : β → Node → Prop} {reader : Node → Reading α}
    (huniform : ∀ node, IsUniform document (reader node)) {convert : β → α}
    (hreads : ∀ item, Reads document (writes item) reader (convert item)) (all : List β) :
    Reads document (spelling.items writes all) (listOf reader) (all.map convert) := by
  rintro node ⟨sources, rfl, hsources⟩
  refine (takes_listOf_iff huniform).mpr ⟨Nat.zero_le _, sources,
    (all.map convert).map fun value => (value, 0), rfl, ?_, ?_, ?_⟩
  · rw [List.map_map]
    exact List.forall₂_map_right_iff.mpr (hsources.flip.imp fun source item hsource =>
      hreads item source hsource)
  · rw [List.map_map]
    exact (List.map_id' _).symm
  · rw [total_map_zero]
    rfl

section Fields

variable {Draft : Type} {slots : Slots Draft} {fields : Fields Reading Node slots}

/-- What an entry does to a draft, if no alias is followed for it. -/
abbrev Gives (document : Document) (fields : Fields Reading Node slots) (entry : Node × Node)
    (effect : Effect Draft) : Prop :=
  fields.EntryTakes document entry (effect, 0)

theorem givesSlot_of_reads (field : Field Reading Node Draft)
    (hfound : fields.find? field.name = some field) {β : Type} {writes : β → Node → Prop}
    {convert : β → field.Value}
    (hreads : ∀ value, Reads document (writes value) field.read (convert value)) :
    spelling.GivesSlot (Gives document fields) field.toSlot writes convert := by
  rintro _ node value ⟨style, rfl⟩ hnode
  refine ⟨0, 0, ?_, ?_, rfl⟩
  · exact picks_text.takes_iff.mpr ⟨Nat.zero_le _, rfl, rfl⟩
  · exact .fills field hfound (convert value) 0 (hreads value node hnode)

/-- A map that fills a draft is read as the result. -/
theorem exists_takes_of_fills (huniform : fields.IsUniform document) {start : Draft}
    (hstart : ∀ slot ∈ slots.all, slot.get start = none) {finish : Draft → Except ReadError α}
    {node : Node} {result : α}
    (hfills : spelling.Fills (Gives document fields) slots start finish node result) :
    ∃ draft, Takes document (Reading.fields fields.enter start node) draft 0 ∧
      finish draft = .ok result := by
  obtain ⟨fillings, pieces, rfl, hslots, hholds, hfinish⟩ := hfills
  have htaken : List.Forall₂ (fields.EntryTakes document) pieces.flatten
      ((fillings.flatMap Filling.effects).map fun effect => (effect, 0)) :=
    List.forall₂_map_right_iff.mpr (Filling.forall₂_of_holds hholds)
  have heffects : ((fillings.flatMap Filling.effects).map fun effect => (effect, 0)).map (·.1) =
      fillings.flatMap Filling.effects := by
    rw [List.map_map]
    exact List.map_id' _
  refine ⟨_, (Fields.takes_fields_iff huniform hstart).mpr
    ⟨Nat.zero_le _, pieces.flatten, _, rfl, htaken, ?_, rfl, ?_⟩, ?_⟩
  · rw [heffects]
    exact Filling.unrepeated_effects hslots
  · rw [total_map_zero]
    rfl
  · rw [heffects]
    exact hfinish

end Fields

theorem reads_decoration (item : Decoration) :
    Reads document (spelling.decoration item) decoration item.oneNaN := fun _ hnode =>
  takes_decoration_iff.mpr (exists_takes_of_fills uniform_decorationFields
    DecorationDraft.get_new (Spelling.fills_decoration
      (givesSlot_of_reads { DecorationDraft.kindSlot with read := text } rfl reads_text)
      (givesSlot_of_reads { DecorationDraft.enabledSlot with read := bool } rfl reads_bool)
      (givesSlot_of_reads { DecorationDraft.parametersSlot with read := parameters 4 } rfl
        (reads_parameters 4)) hnode))

theorem reads_mount (item : Mount) :
    Reads document (spelling.mount item) mount item.oneNaN := fun _ hnode =>
  takes_mount_iff.mpr (exists_takes_of_fills uniform_mountFields MountDraft.get_new
    (Spelling.fills_mount
      (givesSlot_of_reads { MountDraft.nameSlot with read := text } rfl reads_text)
      (givesSlot_of_reads { MountDraft.modelSlot with read := text } rfl reads_text)
      (givesSlot_of_reads { MountDraft.parentSlot with read := text } rfl reads_text)
      (givesSlot_of_reads { MountDraft.xyzSlot with read := poseHalf } rfl reads_vector)
      (givesSlot_of_reads { MountDraft.rpySlot with read := poseHalf } rfl reads_vector)
      (givesSlot_of_reads { MountDraft.parametersSlot with read := parameters 3 } rfl
        (reads_parameters 3)) hnode))

theorem reads_platform (held : PlatformConfig) :
    Reads document (spelling.platform held) platform held.oneNaN := fun _ hnode =>
  takes_platform_iff.mpr (exists_takes_of_fills uniform_platformFields PlatformDraft.get_new
    (Spelling.fills_platform
      (givesSlot_of_reads { PlatformDraft.modelSlot with read := text } rfl reads_text)
      (givesSlot_of_reads { PlatformDraft.decorationsSlot with read := listOf decoration } rfl
        (reads_items uniform_decoration reads_decoration)) hnode))

theorem reads_config (held : RobotConfig) :
    Reads document (spelling.config held) config held.oneNaN := fun _ hnode =>
  takes_config_iff.mpr (exists_takes_of_fills uniform_configFields ConfigDraft.get_new
    (Spelling.fills_config
      (givesSlot_of_reads { ConfigDraft.serialSlot with read := text } rfl reads_text)
      (givesSlot_of_reads { ConfigDraft.platformSlot with read := platform } rfl reads_platform)
      (givesSlot_of_reads { ConfigDraft.mountsSlot with read := listOf mount } rfl
        (reads_items uniform_mount reads_mount)) hnode))

end Reading

/-- A document in which a configuration is written holds it. -/
theorem ofYaml_of_written {document : Document} {config : RobotConfig}
    (hlast : document.isLast = true) (hroot : spelling.config config document.root) :
    RobotConfig.ofYaml document = .ok config.oneNaN :=
  Reading.ofYaml_eq_ok_iff.mpr ⟨hlast, 0, Reading.reads_config config document.root hroot⟩

end RobotDescription.Yaml
