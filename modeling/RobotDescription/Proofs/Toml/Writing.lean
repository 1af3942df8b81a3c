import RobotDescription.Proofs.Config.Filling
import RobotDescription.Proofs.Config.Parameters
import RobotDescription.Proofs.Toml.Numbers
import RobotDescription.Proofs.Toml.Parts

/-!
# Configurations written in TOML

Texts and truth values are values of the format; a number is the value that its text is read as. What
is written so is read back.
-/

namespace RobotDescription.Toml

/-- The text of a double, and for no number the word of the format. -/
def floatText (x : Binary64) : String :=
  if x.isNaN then "nan" else x.toText

/-- A number is written as this text. -/
def IsNumber (text : String) (value : Value) : Prop :=
  Number.number? text.toList = some (value, [])

/-- The spelling of TOML documents. -/
abbrev spelling : Spelling where
  Source := Value
  Entry := String × Value
  text s value := value = .text s
  bool b value := value = .bool b
  int n := IsNumber (toString n.toInt)
  float x := IsNumber (floatText x)
  list := .array
  map := .table
  entry name value entry := entry = (name, value)

theorem isNumber_int (n : Int64) : IsNumber (toString n.toInt) (.int n) := by
  have hread := Number.number?_integer (isInteger_toString n.toInt) Number.endsValue_nil
  rw [List.append_nil, signedValue_toDigits, if_pos ⟨n.le_toInt, n.toInt_lt⟩,
    Int64.ofInt_toInt] at hread
  exact hread

theorem isNumber_float (x : Binary64) : IsNumber (floatText x) (.float x.oneNaN) := by
  unfold IsNumber floatText Binary64.oneNaN
  cases hnan : x.isNaN with
  | true =>
      rw [if_pos rfl, if_pos rfl]
      rfl
  | false =>
      rw [if_neg Bool.false_ne_true, if_neg Bool.false_ne_true]
      rcases Binary64.isFinite_or_isInfinite hnan with hfinite | hinfinite
      · exact Number.number?_toText hfinite
      · rw [Binary64.eq_infinity hinfinite, Binary64.toText_infinity]
        cases x.isNegative <;> rfl

theorem IsNumber.unique {text : String} {value other : Value} (hvalue : IsNumber text value)
    (hother : IsNumber text other) : value = other :=
  congrArg Prod.fst (Option.some.inj (hvalue.symm.trans hother))

theorem isTotal_spelling : spelling.IsTotal where
  text _ := ⟨_, rfl⟩
  bool _ := ⟨_, rfl⟩
  int n := ⟨_, isNumber_int n⟩
  float x := ⟨_, isNumber_float x⟩
  entry _ _ := ⟨_, rfl⟩

namespace Reading

variable {α : Type}

/-- What is written so is read. -/
def Reads (writes : Value → Prop) (reader : Value → Reading α) (result : α) : Prop :=
  ∀ value, writes value → reader value = .ok result

theorem reads_text (s : String) : Reads (spelling.text s) text s := by
  rintro value rfl
  rfl

theorem reads_bool (b : Bool) : Reads (spelling.bool b) bool b := by
  rintro value rfl
  rfl

theorem reads_coordinate (x : Binary64) : Reads (spelling.float x) coordinate x.oneNaN := by
  intro value hvalue
  rw [hvalue.unique (isNumber_float x)]
  rfl

theorem reads_vector (v : Vector3) : Reads (spelling.vector v) poseHalf (some v.oneNaN) := by
  rintro value ⟨x, y, z, rfl, hx, hy, hz⟩
  have hcoordinates : [x, y, z].mapM coordinate = .ok [v.x.oneNaN, v.y.oneNaN, v.z.oneNaN] :=
    mapM_eq_ok_iff.mpr (.cons (reads_coordinate v.x x hx) (.cons (reads_coordinate v.y y hy)
      (.cons (reads_coordinate v.z z hz) .nil)))
  change (do return some (← vector (.array [x, y, z]))) = _
  change ([x, y, z].mapM coordinate >>= fun coordinates => _) >>= _ = _
  rw [hcoordinates]
  rfl

theorem reads_parameter (held : ParameterValue) :
    Reads (spelling.parameter held) parameterValue held.oneNaN := by
  intro value hvalue
  cases held with
  | bool b =>
      obtain rfl := hvalue
      rfl
  | int n =>
      rw [IsNumber.unique hvalue (isNumber_int n)]
      rfl
  | float x =>
      rw [IsNumber.unique hvalue (isNumber_float x)]
      rfl
  | text s =>
      obtain rfl := hvalue
      rfl

theorem reads_parameters (held : Parameters) :
    Reads (spelling.parameters held) parameters held.oneNaN := by
  rintro value ⟨entries, rfl, hentries⟩
  refine parameters_eq_ok_iff.mpr ⟨entries, held.oneNaN.entries, rfl, ?_,
    (Parameters.ofList_entries held.oneNaN).symm⟩
  refine List.forall₂_map_right_iff.mpr (hentries.flip.imp fun entry pair hentry => ?_)
  obtain ⟨value, rfl, hvalue⟩ := hentry
  exact ⟨rfl, reads_parameter pair.2 value hvalue⟩

theorem reads_items {β : Type} {writes : β → Value → Prop} {reader : Value → Reading α}
    {convert : β → α} (hreads : ∀ item, Reads (writes item) reader (convert item)) (all : List β) :
    Reads (spelling.items writes all) (listOf reader) (all.map convert) := by
  rintro value ⟨sources, rfl, hsources⟩
  refine listOf_eq_ok_iff.mpr ⟨sources, rfl, ?_⟩
  exact List.forall₂_map_right_iff.mpr (hsources.flip.imp fun source item hsource =>
    hreads item source hsource)

section Fields

variable {Draft : Type} {slots : Slots Draft} {fields : Fields Reading Value slots}

theorem givesSlot_of_reads (field : Field Reading Value Draft)
    (hfound : fields.find? field.name = some field) {β : Type} {writes : β → Value → Prop}
    {convert : β → field.Value}
    (hreads : ∀ held, Reads (writes held) field.read (convert held)) :
    spelling.GivesSlot fields.EntryFills field.toSlot writes convert := by
  rintro _ value held rfl hvalue
  exact ⟨rfl, .fills field hfound (convert held) (hreads held value hvalue)⟩

/-- A table that fills a draft is read as the result. -/
theorem part_of_fills {names : List String} {start : Draft} {finish : Draft → Reading α}
    {value : Value} {result : α}
    (hfills : spelling.Fills fields.EntryFills slots start finish value result) :
    part names fields.fill start finish value = .ok result := by
  obtain ⟨fillings, pieces, rfl, _, hholds, hfinish⟩ := hfills
  exact Fields.part_eq_ok_iff.mpr ⟨_, _, rfl, Filling.forall₂_of_holds hholds, hfinish⟩

end Fields

theorem reads_decoration (item : Decoration) :
    Reads (spelling.decoration item) decoration item.oneNaN := by
  intro value hvalue
  rw [decoration, decorationField_eq]
  exact part_of_fills (Spelling.fills_decoration
    (givesSlot_of_reads { DecorationDraft.kindSlot with read := text } rfl reads_text)
    (givesSlot_of_reads { DecorationDraft.enabledSlot with read := bool } rfl reads_bool)
    (givesSlot_of_reads { DecorationDraft.parametersSlot with read := parameters } rfl
      reads_parameters) hvalue)

theorem reads_mount (item : Mount) : Reads (spelling.mount item) mount item.oneNaN := by
  intro value hvalue
  rw [mount, mountField_eq]
  exact part_of_fills (Spelling.fills_mount
    (givesSlot_of_reads { MountDraft.nameSlot with read := text } rfl reads_text)
    (givesSlot_of_reads { MountDraft.modelSlot with read := text } rfl reads_text)
    (givesSlot_of_reads { MountDraft.parentSlot with read := text } rfl reads_text)
    (givesSlot_of_reads { MountDraft.xyzSlot with read := poseHalf } rfl reads_vector)
    (givesSlot_of_reads { MountDraft.rpySlot with read := poseHalf } rfl reads_vector)
    (givesSlot_of_reads { MountDraft.parametersSlot with read := parameters } rfl
      reads_parameters) hvalue)

theorem reads_platform (held : PlatformConfig) :
    Reads (spelling.platform held) platform held.oneNaN := by
  intro value hvalue
  rw [platform, platformField_eq]
  exact part_of_fills (Spelling.fills_platform
    (givesSlot_of_reads { PlatformDraft.modelSlot with read := text } rfl reads_text)
    (givesSlot_of_reads { PlatformDraft.decorationsSlot with read := listOf decoration } rfl
      (reads_items reads_decoration)) hvalue)

theorem reads_config (held : RobotConfig) : Reads (spelling.config held) config held.oneNaN := by
  intro value hvalue
  rw [config, configField_eq]
  exact part_of_fills (Spelling.fills_config
    (givesSlot_of_reads { ConfigDraft.serialSlot with read := text } rfl reads_text)
    (givesSlot_of_reads { ConfigDraft.platformSlot with read := platform } rfl reads_platform)
    (givesSlot_of_reads { ConfigDraft.mountsSlot with read := listOf mount } rfl
      (reads_items reads_mount)) hvalue)

end Reading

/-- A document in which a configuration is written holds it. -/
theorem ofToml_of_written {value : Value} {config : RobotConfig}
    (hvalue : spelling.config config value) : RobotConfig.ofToml value = .ok config.oneNaN :=
  Reading.reads_config config value hvalue

end RobotDescription.Toml
