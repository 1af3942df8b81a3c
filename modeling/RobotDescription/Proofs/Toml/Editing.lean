import RobotDescription.Proofs.Config.Rearranging
import RobotDescription.Proofs.Toml.Parts

/-!
# Edits of TOML documents

The entries of any table of a configuration may change their order, and entries that a part of a
configuration has no field for may be added anywhere. Both documents then hold the same
configuration.
-/

namespace RobotDescription.Toml

open Reading

section Edits

/-- Two lists, item by item. -/
def SameItems (Same : Value → Value → Prop) (value value' : Value) : Prop :=
  ∃ items items', value = .array items ∧ value' = .array items' ∧ List.Forall₂ Same items items'

/-- The same parameters in any order, no two of them under one name. -/
def SameParameters (value value' : Value) : Prop :=
  ∃ entries entries', value.map? = some entries ∧ value'.map? = some entries' ∧
    (entries.map (·.1)).Nodup ∧ entries.Perm entries'

/-- The entries of a part in any order, no two of them under one name, their values related as the
names demand, and between them any entries under names that the part has no field for. -/
def SamePart {Draft : Type} (names : List String) (slots : Slots Draft)
    (Same : String → Value → Value → Prop) (value value' : Value) : Prop :=
  ∃ entries entries', value.entries? names = some entries ∧ value'.entries? names = some entries' ∧
    (entries.map (·.1)).Nodup ∧
    Rearranged (fun entry entry' => entry'.1 = entry.1 ∧ Same entry.1 entry.2 entry'.2)
      (fun entry => slots.knows entry.1 = false) entries entries'

/-- What may become of the value under a name in a decoration. -/
def SameInDecoration (name : String) (value value' : Value) : Prop :=
  match name with
  | "type" | "enabled" => value' = value
  | "parameters" => SameParameters value value'
  | _ => True

def SameDecoration : Value → Value → Prop :=
  SamePart ["type", "enabled", "parameters"] DecorationDraft.slots SameInDecoration

/-- What may become of the value under a name in a mount. -/
def SameInMount (name : String) (value value' : Value) : Prop :=
  match name with
  | "name" | "model" | "parent" | "xyz" | "rpy" => value' = value
  | "parameters" => SameParameters value value'
  | _ => True

def SameMount : Value → Value → Prop :=
  SamePart ["name", "model", "parent", "xyz", "rpy", "parameters"] MountDraft.slots SameInMount

/-- What may become of the value under a name in a platform. -/
def SameInPlatform (name : String) (value value' : Value) : Prop :=
  match name with
  | "model" => value' = value
  | "decorations" => SameItems SameDecoration value value'
  | _ => True

def SamePlatform : Value → Value → Prop :=
  SamePart ["model", "decorations"] PlatformDraft.slots SameInPlatform

/-- What may become of the value under a name at the root. -/
def SameInConfig (name : String) (value value' : Value) : Prop :=
  match name with
  | "serial_number" => value' = value
  | "platform" => SamePlatform value value'
  | "mounts" => SameItems SameMount value value'
  | _ => True

/-- Maps have changed the order of their entries, and parts have got entries that they have no
field for. -/
def Value.Edited : Value → Value → Prop :=
  SamePart ["serial_number", "platform", "mounts"] ConfigDraft.slots SameInConfig

end Edits

namespace Reading

/-- What is read of a value is read of the related one too. -/
def Carries {α : Type} (Same : Value → Value → Prop) (reader : Value → Reading α) : Prop :=
  ∀ value value' result, Same value value' → reader value = .ok result →
    reader value' = .ok result

theorem carries_eq {α : Type} (reader : Value → Reading α) :
    Carries (fun value value' => value' = value) reader := by
  rintro value _ result rfl hread
  exact hread

theorem carries_parameters : Carries SameParameters parameters := by
  rintro value value' result ⟨entries, entries', hvalue, hvalue', hdistinct, hperm⟩ hread
  obtain ⟨_, pairs, hentries, hpairs, rfl⟩ := parameters_eq_ok_iff.mp hread
  cases hvalue.symm.trans hentries
  obtain ⟨pairs', hpairs', hperm'⟩ := List.perm_comp_forall₂ hperm.symm hpairs
  have hnames : entries.map (·.1) = pairs.map (·.1) :=
    map_eq_map_of_forall₂ (fun _ _ hentry => hentry.1.symm) hpairs
  rw [hnames] at hdistinct
  exact parameters_eq_ok_iff.mpr ⟨entries', pairs', hvalue', hpairs',
    Parameters.ofList_eq_of_perm hdistinct hperm'.symm⟩

theorem carries_listOf {α : Type} {reader : Value → Reading α} {Same : Value → Value → Prop}
    (hreader : Carries Same reader) : Carries (SameItems Same) (listOf reader) := by
  rintro value value' results ⟨items, items', hvalue, hvalue', hitems⟩ hread
  obtain ⟨_, hall, hresults⟩ := listOf_eq_ok_iff.mp hread
  cases hvalue.symm.trans hall
  exact listOf_eq_ok_iff.mpr ⟨items', hvalue', forall₂_of_keeps hreader hitems hresults⟩

section Fields

variable {Draft : Type} {slots : Slots Draft} {fields : Fields Reading Value slots}
  {Same : String → Value → Value → Prop}
  (hfields : ∀ field ∈ fields.all, Carries (Same field.name) field.read)
include hfields

theorem fills_of_same {name : String} {value value' : Value} {effect : Draft → Draft}
    (hsame : Same name value value') (hfills : fields.Fills name value effect) :
    fields.Fills name value' effect := by
  cases hfills with
  | fills field hfound result hread =>
      refine .fills field hfound result ?_
      rw [← (Fields.of_find? hfound).2] at hsame
      exact hfields field (List.mem_of_find?_eq_some hfound) _ _ _ hsame hread
  | ignored hnone => exact .ignored hnone

/-- A part of a configuration is carried over if its fields are. -/
theorem carries_part {α : Type} {names : List String} {start : Draft}
    {finish : Draft → Reading α} :
    Carries (SamePart names slots Same) (part names fields.fill start finish) := by
  rintro value value' result ⟨entries, entries', hvalue, hvalue', hdistinct, hedit⟩ hread
  obtain ⟨_, effects, hentries, heffects, hfinish⟩ := Fields.part_eq_ok_iff.mp hread
  cases hvalue.symm.trans hentries
  have hkeeps : ∀ (entry entry' : String × Value) (effect : Effect Draft),
      (entry'.1 = entry.1 ∧ Same entry.1 entry.2 entry'.2) →
      fields.EntryFills entry effect → fields.EntryFills entry' effect := by
    rintro entry ⟨_, _⟩ effect ⟨rfl, hsame⟩ ⟨hname, hfills⟩
    exact ⟨hname, fills_of_same hfields hsame hfills⟩
  have hfresh : ∀ entry : String × Value, slots.knows entry.1 = false →
      ∃ effect : Effect Draft, fields.EntryFills entry effect ∧ slots.knows effect.1 = false :=
    fun entry hunknown =>
      ⟨(entry.1, id), ⟨rfl, .ignored (Fields.knows_eq_false_iff.mp hunknown)⟩, hunknown⟩
  obtain ⟨effects', more, heffects', hperm, hmore⟩ := hedit.exists_forall₂ hkeeps hfresh heffects
  have hnames : entries.map (·.1) = effects.map (·.1) :=
    map_eq_map_of_forall₂ (fun _ _ hentry => hentry.1.symm) heffects
  have hunrepeated : slots.Unrepeated effects := by
    rw [hnames] at hdistinct
    exact (List.pairwise_map.mp hdistinct).imp fun hother hsame => absurd hsame hother
  refine Fields.part_eq_ok_iff.mpr ⟨entries', effects', hvalue', heffects', ?_⟩
  rw [Slots.applyAll_eq_of_rearranged (Fields.isEffect_of_entryFills heffects') hperm hmore
    hunrepeated]
  exact hfinish

end Fields

theorem carries_decoration : Carries SameDecoration decoration := by
  have hfields : ∀ field ∈ decorationFields.all,
      Carries (SameInDecoration field.name) field.read := by
    simp only [decorationFields, List.forall_mem_cons]
    exact ⟨carries_eq text, carries_eq bool, carries_parameters, List.forall_mem_nil _⟩
  rw [decoration, decorationField_eq]
  exact carries_part hfields

theorem carries_mount : Carries SameMount mount := by
  have hfields : ∀ field ∈ mountFields.all, Carries (SameInMount field.name) field.read := by
    simp only [mountFields, List.forall_mem_cons]
    exact ⟨carries_eq text, carries_eq text, carries_eq text, carries_eq poseHalf,
      carries_eq poseHalf, carries_parameters, List.forall_mem_nil _⟩
  rw [mount, mountField_eq]
  exact carries_part hfields

theorem carries_platform : Carries SamePlatform platform := by
  have hfields : ∀ field ∈ platformFields.all, Carries (SameInPlatform field.name) field.read := by
    simp only [platformFields, List.forall_mem_cons]
    exact ⟨carries_eq text, carries_listOf carries_decoration, List.forall_mem_nil _⟩
  rw [platform, platformField_eq]
  exact carries_part hfields

theorem carries_config : Carries Value.Edited config := by
  have hfields : ∀ field ∈ configFields.all, Carries (SameInConfig field.name) field.read := by
    simp only [configFields, List.forall_mem_cons]
    exact ⟨carries_eq text, carries_platform, carries_listOf carries_mount, List.forall_mem_nil _⟩
  rw [config, configField_eq]
  exact carries_part hfields

end Reading

/-- Edits of the tables of a document leave its configuration as it is. -/
theorem Value.Edited.ofToml_eq {value value' : Value} (hedited : value.Edited value')
    {config : RobotConfig} (hread : RobotConfig.ofToml value = .ok config) :
    RobotConfig.ofToml value' = .ok config :=
  carries_config value value' config hedited hread

end RobotDescription.Toml
