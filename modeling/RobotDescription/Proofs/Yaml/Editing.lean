import RobotDescription.Proofs.Config.Rearranging
import RobotDescription.Proofs.Yaml.Parts

/-!
# Edits of YAML documents

The entries of any map of a configuration may change their order, and entries that a part of a
configuration has no field for may be added anywhere. Both documents then hold the same
configuration: whatever is read of the first is read of the second after as many aliases.
-/

namespace RobotDescription.Yaml

open Reading

section Edits

variable (document document' : Document)

/-- Both nodes are reached over as many aliases, and what they stand for is related. -/
def Leads (Same : Node → Node → Prop) (node node' : Node) : Prop :=
  node.hops = node'.hops ∧ Same (document.target node) (document'.target node')

def SameScalar (node node' : Node) : Prop :=
  ∃ s, node = .scalar s ∧ node' = .scalar s

/-- Two lists, item by item. -/
def SameItems (Same : Node → Node → Prop) (node node' : Node) : Prop :=
  ∃ items items', node.items? = some items ∧ node'.items? = some items' ∧
    List.Forall₂ (Leads document document' Same) items items'

def SamePose (node node' : Node) : Prop :=
  SameScalar node node' ∨ ∃ tag tag' items items', node = .sequence tag items ∧
    node' = .sequence tag' items' ∧ List.Forall₂ (Leads document document' SameScalar) items items'

/-- The same parameters in any order, no two of them under one name. -/
def SameParameters (node node' : Node) : Prop :=
  ∃ entries entries', node.entries? = some entries ∧ node'.entries? = some entries' ∧
    (entries.map fun entry => (document.target entry.1).text?).Nodup ∧
    Rearranged (fun entry entry' => Leads document document' SameScalar entry.1 entry'.1 ∧
      Leads document document' SameScalar entry.2 entry'.2) (fun _ => False) entries entries'

/-- The entries of a part in any order, their values related as the names demand, and between them
any entries under names that the part has no field for. -/
def SamePart {Draft : Type} (slots : Slots Draft) (Same : String → Node → Node → Prop)
    (node node' : Node) : Prop :=
  ∃ entries entries', node.entries? = some entries ∧ node'.entries? = some entries' ∧
    Rearranged (fun entry entry' => Leads document document' SameScalar entry.1 entry'.1 ∧
        ∀ name, (document.target entry.1).text? = some name → Same name entry.2 entry'.2)
      (fun entry => ∃ s, entry.1 = .scalar s ∧ slots.knows s.text = false ∧
        entry.2.isComplete = true)
      entries entries'

/-- What may become of the value under a name in a decoration. -/
def SameInDecoration (name : String) (node node' : Node) : Prop :=
  match name with
  | "type" | "enabled" => Leads document document' SameScalar node node'
  | "parameters" => Leads document document' (SameParameters document document') node node'
  | _ => node'.isComplete = true

def SameDecoration : Node → Node → Prop :=
  SamePart document document' DecorationDraft.slots (SameInDecoration document document')

/-- What may become of the value under a name in a mount. -/
def SameInMount (name : String) (node node' : Node) : Prop :=
  match name with
  | "name" | "model" | "parent" => Leads document document' SameScalar node node'
  | "xyz" | "rpy" => Leads document document' (SamePose document document') node node'
  | "parameters" => Leads document document' (SameParameters document document') node node'
  | _ => node'.isComplete = true

def SameMount : Node → Node → Prop :=
  SamePart document document' MountDraft.slots (SameInMount document document')

/-- What may become of the value under a name in a platform. -/
def SameInPlatform (name : String) (node node' : Node) : Prop :=
  match name with
  | "model" => Leads document document' SameScalar node node'
  | "decorations" =>
    Leads document document'
      (SameItems document document' (SameDecoration document document')) node node'
  | _ => node'.isComplete = true

def SamePlatform : Node → Node → Prop :=
  SamePart document document' PlatformDraft.slots (SameInPlatform document document')

/-- What may become of the value under a name at the root. -/
def SameInConfig (name : String) (node node' : Node) : Prop :=
  match name with
  | "serial_number" => Leads document document' SameScalar node node'
  | "platform" => Leads document document' (SamePlatform document document') node node'
  | "mounts" =>
    Leads document document' (SameItems document document' (SameMount document document')) node node'
  | _ => node'.isComplete = true

def SameConfig : Node → Node → Prop :=
  SamePart document document' ConfigDraft.slots (SameInConfig document document')

/-- Maps have changed the order of their entries, and parts have got entries that they have no
field for. -/
structure Document.Edited : Prop where
  size_le : document.size ≤ document'.size
  isLast_eq : document.isLast = document'.isLast
  root : Leads document document' (SameConfig document document') document.root document'.root

end Edits

namespace Reading

variable {document document' : Document}

/-- What is read of a node is read of the related one too. -/
def Carries {α : Type} (document document' : Document) (Same : Node → Node → Prop)
    (reader : Node → Reading α) : Prop :=
  ∀ node node' value count, Leads document document' Same node node' →
    Takes document (reader node) value count → Takes document' (reader node') value count

variable (hroom : document.room ≤ document'.room)
include hroom

theorem carries_of_picks {α : Type} {reader : Node → Reading α} {pick : Node → Option α}
    (hpicks : ∀ document, Picks document reader pick) :
    Carries document document' SameScalar reader := by
  rintro node node' value count ⟨hhops, s, hnode, hnode'⟩ htakes
  obtain ⟨hcount, hpick, rfl⟩ := (hpicks document).takes_iff.mp htakes
  rw [hnode] at hpick
  refine (hpicks document').takes_iff.mpr ⟨Nat.le_trans hcount hroom, ?_, hhops⟩
  rw [hnode']
  exact hpick

theorem carries_text : Carries document document' SameScalar text :=
  carries_of_picks hroom fun _ => picks_text

theorem carries_bool : Carries document document' SameScalar bool :=
  carries_of_picks hroom fun _ => picks_ofKind .bool Content.bool?

theorem carries_coordinate : Carries document document' SameScalar coordinate :=
  carries_of_picks hroom fun _ => picks_ofKind .float Content.float?

theorem takes_vectorOf_of_same {items items' : List Node}
    (hitems : List.Forall₂ (Leads document document' SameScalar) items items') {v : Vector3}
    {count : Nat} (htakes : Takes document (vectorOf items) v count) :
    Takes document' (vectorOf items') v count := by
  obtain ⟨hcount, x, y, z, first, second, third, rfl, hx, hy, hz, rfl⟩ :=
    takes_vectorOf_iff.mp htakes
  obtain _ | ⟨hx', _ | ⟨hy', _ | ⟨hz', _ | _⟩⟩⟩ := hitems
  exact takes_vectorOf_iff.mpr ⟨Nat.le_trans hcount hroom, _, _, _, first, second, third, rfl,
    carries_coordinate hroom _ _ _ _ hx' hx, carries_coordinate hroom _ _ _ _ hy' hy,
    carries_coordinate hroom _ _ _ _ hz' hz, rfl⟩

theorem carries_poseHalf : Carries document document' (SamePose document document') poseHalf := by
  rintro node node' half count ⟨hhops, hsame⟩ htakes
  obtain ⟨hcount, more, hmore, rfl⟩ := takes_poseHalf_iff.mp htakes
  refine takes_poseHalf_iff.mpr ⟨Nat.le_trans hcount hroom, more, ?_, by rw [hhops]⟩
  rcases hsame with ⟨s, hnode, hnode'⟩ | ⟨tag, tag', items, items', hnode, hnode', hitems⟩
  · rw [hnode, takes_poseHalfAt_scalar_iff] at hmore
    rw [hnode', takes_poseHalfAt_scalar_iff]
    exact hmore
  · rw [hnode, takes_poseHalfAt_sequence_iff] at hmore
    obtain ⟨v, rfl, hv⟩ := hmore
    rw [hnode', takes_poseHalfAt_sequence_iff]
    exact ⟨v, rfl, takes_vectorOf_of_same hroom hitems hv⟩

theorem takes_parameterEntry_of_leads {around : Nat} {entry entry' : Node × Node}
    (hkey : Leads document document' SameScalar entry.1 entry'.1)
    (hvalue : Leads document document' SameScalar entry.2 entry'.2)
    {pair : String × ParameterValue} {count : Nat}
    (htakes : Takes document (parameterEntry around entry) pair count) :
    Takes document' (parameterEntry around entry') pair count := by
  obtain ⟨hhops, s, hkey, hkey'⟩ := hkey
  obtain ⟨hhops', s', hvalue, hvalue'⟩ := hvalue
  obtain ⟨hcount, hname, hpick, hpair⟩ := takes_parameterEntry_iff.mp htakes
  rw [hkey] at hname
  rw [hvalue] at hpick
  refine takes_parameterEntry_iff.mpr ⟨Nat.le_trans hcount hroom, ?_, ?_, ?_⟩
  · rw [hkey', hname]
  · rw [hvalue', hpick]
  · rw [hpair, hhops, hhops']

theorem carries_parameters (around : Nat) :
    Carries document document' (SameParameters document document') (parameters around) := by
  rintro node node' result count ⟨hhops, entries, entries', hnode, hnode', hdistinct, hedit⟩ htakes
  obtain ⟨hcount, _, taken, hentries, htaken, rfl, rfl⟩ := takes_parameters_iff.mp htakes
  cases hnode.symm.trans hentries
  have hkeeps : ∀ (entry entry' : Node × Node) (pair : (String × ParameterValue) × Nat),
      Leads document document' SameScalar entry.1 entry'.1 ∧
        Leads document document' SameScalar entry.2 entry'.2 →
      Takes document (parameterEntry (around + 1) entry) pair.1 pair.2 →
      Takes document' (parameterEntry (around + 1) entry') pair.1 pair.2 :=
    fun _ _ _ hleads => takes_parameterEntry_of_leads hroom hleads.1 hleads.2
  -- an edit adds no parameters, so that there are no new entries to read
  have hfresh : ∀ entry : Node × Node, False →
      ∃ pair : (String × ParameterValue) × Nat,
        Takes document' (parameterEntry (around + 1) entry) pair.1 pair.2 ∧ False :=
    fun _ hfalse => hfalse.elim
  obtain ⟨taken', more, htaken', hperm, hmore⟩ := hedit.exists_forall₂ hkeeps hfresh htaken
  obtain rfl := List.eq_nil_iff_forall_not_mem.mpr hmore
  rw [List.append_nil] at hperm
  have hnames : entries.map (fun entry => (document.target entry.1).text?) =
      (taken.map fun pair => pair.1.1).map some := by
    rw [List.map_map]
    refine map_eq_map_of_forall₂ (fun entry pair hentry => ?_) htaken
    exact (takes_parameterEntry_iff.mp hentry).2.1
  rw [hnames] at hdistinct
  have hdistinct' : ((taken.map (·.1)).map (·.1)).Nodup := by
    rw [List.map_map]
    exact hdistinct.of_map
  have hpairs : (taken'.map (·.1)).Perm (taken.map (·.1)) := hperm.map _
  refine takes_parameters_iff.mpr ⟨Nat.le_trans hcount hroom, entries', taken', hnode', htaken',
    Parameters.ofList_eq_of_perm hdistinct' hpairs.symm, ?_⟩
  rw [hhops, total_eq_of_perm hperm]

theorem carries_listOf {α : Type} {reader : Node → Reading α} {Same : Node → Node → Prop}
    (huniform : ∀ document node, IsUniform document (reader node))
    (hreader : Carries document document' Same reader) :
    Carries document document' (SameItems document document' Same) (listOf reader) := by
  rintro node node' values count ⟨hhops, items, items', hnode, hnode', hitems⟩ htakes
  obtain ⟨hcount, _, taken, hall, htaken, rfl, rfl⟩ :=
    (takes_listOf_iff (huniform document)).mp htakes
  cases hnode.symm.trans hall
  refine (takes_listOf_iff (huniform document')).mpr
    ⟨Nat.le_trans hcount hroom, items', taken, hnode', ?_, rfl, by rw [hhops]⟩
  exact forall₂_of_keeps (fun item item' pair => hreader item item' pair.1 pair.2) hitems htaken

section Fields

variable {Draft : Type} {slots : Slots Draft} {fields : Fields Reading Node slots}
  {Same : String → Node → Node → Prop}
  (hfields : ∀ field ∈ fields.all, ∀ node node' value count, Same field.name node node' →
    Takes document (field.read node) value count → Takes document' (field.read node') value count)
  (hothers : ∀ name node node', slots.knows name = false → Same name node node' →
    node'.isComplete = true)
include hfields hothers

omit hroom in
theorem gives_of_same {name : String} {node node' : Node} {effect : Draft → Draft} {count : Nat}
    (hsame : Same name node node') (hgives : fields.Gives document name node effect count) :
    fields.Gives document' name node' effect count := by
  cases hgives with
  | fills field hfound value _ htakes =>
      refine .fills field hfound value count ?_
      rw [← (Fields.of_find? hfound).2] at hsame
      exact hfields field (List.mem_of_find?_eq_some hfound) _ _ _ _ hsame htakes
  | ignored hnone _ =>
      exact .ignored hnone (hothers _ _ _ (Fields.knows_eq_false_iff.mpr hnone) hsame)

theorem entryTakes_of_same {entry entry' : Node × Node} {pair : Effect Draft × Nat}
    (hkey : Leads document document' SameScalar entry.1 entry'.1)
    (hvalue : ∀ name, (document.target entry.1).text? = some name → Same name entry.2 entry'.2)
    (htakes : fields.EntryTakes document entry pair) : fields.EntryTakes document' entry' pair := by
  obtain ⟨first, second, hname, hgives, hpair⟩ := htakes
  obtain ⟨_, hpick, _⟩ := picks_text.takes_iff.mp hname
  exact ⟨first, second, carries_text hroom _ _ _ _ hkey hname,
    gives_of_same hfields hothers (hvalue _ hpick) hgives, hpair⟩

omit hroom hfields hothers in
/-- An entry under a name without a field is read and does nothing, if its value is complete. -/
theorem entryTakes_of_unknown {s : Scalar} {value : Node} (hunknown : slots.knows s.text = false)
    (hcomplete : value.isComplete = true) :
    fields.EntryTakes document' (.scalar s, value) ((s.text, id), 0) := by
  refine ⟨0, 0, picks_text.takes_iff.mpr ⟨Nat.zero_le _, rfl, rfl⟩, ?_, rfl⟩
  exact .ignored (Fields.knows_eq_false_iff.mp hunknown) hcomplete

theorem carries_fields (huniform : ∀ document, fields.IsUniform document)
    {start : Draft} (hstart : ∀ slot ∈ slots.all, slot.get start = none) :
    Carries document document' (SamePart document document' slots Same)
      (Reading.fields fields.enter start) := by
  rintro node node' draft count ⟨hhops, entries, entries', hnode, hnode', hedit⟩ htakes
  obtain ⟨hcount, _, taken, hall, htaken, hunrepeated, rfl, rfl⟩ :=
    (Fields.takes_fields_iff (huniform document) hstart).mp htakes
  cases hnode.symm.trans hall
  have hkeeps : ∀ (entry entry' : Node × Node) (pair : Effect Draft × Nat),
      (Leads document document' SameScalar entry.1 entry'.1 ∧
        ∀ name, (document.target entry.1).text? = some name → Same name entry.2 entry'.2) →
      fields.EntryTakes document entry pair → fields.EntryTakes document' entry' pair :=
    fun _ _ _ hsame => entryTakes_of_same hroom hfields hothers hsame.1 hsame.2
  have hfresh : ∀ entry : Node × Node, (∃ s, entry.1 = .scalar s ∧ slots.knows s.text = false ∧
        entry.2.isComplete = true) →
      ∃ pair : Effect Draft × Nat, fields.EntryTakes document' entry pair ∧
        slots.knows pair.1.1 = false ∧ pair.2 = 0 := by
    rintro ⟨_, value⟩ ⟨s, rfl, hunknown, hcomplete⟩
    exact ⟨_, entryTakes_of_unknown hunknown hcomplete, hunknown, rfl⟩
  obtain ⟨taken', more, htaken', hperm, hmore⟩ := hedit.exists_forall₂ hkeeps hfresh htaken
  have hunknown : ∀ effect ∈ more.map (·.1), slots.knows effect.1 = false := by
    refine List.forall_mem_map.mpr fun pair hmem => (hmore pair hmem).1
  have hidle : total more = 0 := total_eq_zero fun pair hmem => (hmore pair hmem).2
  have heffects : (taken'.map (·.1)).Perm (taken.map (·.1) ++ more.map (·.1)) := by
    rw [← List.map_append]
    exact hperm.map _
  have htotal : total taken' = total taken := by
    rw [total_eq_of_perm hperm, total_append, hidle, Nat.add_zero]
  refine (Fields.takes_fields_iff (huniform document') hstart).mpr ⟨Nat.le_trans hcount hroom, entries',
    taken', hnode', htaken', Slots.unrepeated_of_rearranged heffects hunknown hunrepeated, ?_, ?_⟩
  · exact (Slots.applyAll_eq_of_rearranged (Fields.isEffect_of_forall₂ htaken') heffects hunknown
      hunrepeated start).symm
  · rw [hhops, htotal]

/-- A part of a configuration is carried over if its fields are. -/
theorem carries_part (huniform : ∀ document, fields.IsUniform document) {start : Draft}
    (hstart : ∀ slot ∈ slots.all, slot.get start = none) {α : Type} {reader : Node → Reading α}
    {finish : Draft → Except ReadError α}
    (hreader : ∀ document node result count, Takes document (reader node) result count ↔
      ∃ draft, Takes document (Reading.fields fields.enter start node) draft count ∧
        finish draft = .ok result) :
    Carries document document' (SamePart document document' slots Same) reader := by
  intro node node' result count hsame htakes
  obtain ⟨draft, hdraft, hfinish⟩ := (hreader document node result count).mp htakes
  have hcarries := carries_fields hroom hfields hothers huniform hstart
  exact (hreader document' node' result count).mpr
    ⟨draft, hcarries _ _ _ _ hsame hdraft, hfinish⟩

end Fields

theorem carries_decoration :
    Carries document document' (SameDecoration document document') decoration := by
  have hfields : ∀ field ∈ decorationFields.all, ∀ node node' value count,
      SameInDecoration document document' field.name node node' →
      Takes document (field.read node) value count →
      Takes document' (field.read node') value count := by
    simp only [decorationFields, List.forall_mem_cons]
    exact ⟨carries_text hroom, carries_bool hroom, carries_parameters hroom 4, List.forall_mem_nil _⟩
  have hothers : ∀ name node node', DecorationDraft.slots.knows name = false →
      SameInDecoration document document' name node node' → node'.isComplete = true := by
    intro name node node' hunknown hsame
    obtain ⟨htype, henabled, hparameters⟩ := DecorationDraft.knows_eq_false_iff.mp hunknown
    simpa only [SameInDecoration] using hsame
  exact carries_part hroom hfields hothers (fun _ => uniform_decorationFields) DecorationDraft.get_new
    fun _ _ _ _ => takes_decoration_iff

theorem carries_mount :
    Carries document document' (SameMount document document') mount := by
  have hfields : ∀ field ∈ mountFields.all, ∀ node node' value count,
      SameInMount document document' field.name node node' →
      Takes document (field.read node) value count →
      Takes document' (field.read node') value count := by
    simp only [mountFields, List.forall_mem_cons]
    exact ⟨carries_text hroom, carries_text hroom, carries_text hroom, carries_poseHalf hroom,
      carries_poseHalf hroom, carries_parameters hroom 3, List.forall_mem_nil _⟩
  have hothers : ∀ name node node', MountDraft.slots.knows name = false →
      SameInMount document document' name node node' → node'.isComplete = true := by
    intro name node node' hunknown hsame
    obtain ⟨hname, hmodel, hparent, hxyz, hrpy, hparameters⟩ :=
      MountDraft.knows_eq_false_iff.mp hunknown
    simpa only [SameInMount] using hsame
  exact carries_part hroom hfields hothers (fun _ => uniform_mountFields) MountDraft.get_new
    fun _ _ _ _ => takes_mount_iff

theorem carries_platform :
    Carries document document' (SamePlatform document document') platform := by
  have hfields : ∀ field ∈ platformFields.all, ∀ node node' value count,
      SameInPlatform document document' field.name node node' →
      Takes document (field.read node) value count →
      Takes document' (field.read node') value count := by
    simp only [platformFields, List.forall_mem_cons]
    exact ⟨carries_text hroom,
      carries_listOf hroom (fun _ => uniform_decoration) (carries_decoration hroom), List.forall_mem_nil _⟩
  have hothers : ∀ name node node', PlatformDraft.slots.knows name = false →
      SameInPlatform document document' name node node' → node'.isComplete = true := by
    intro name node node' hunknown hsame
    obtain ⟨hmodel, hdecorations⟩ := PlatformDraft.knows_eq_false_iff.mp hunknown
    simpa only [SameInPlatform] using hsame
  exact carries_part hroom hfields hothers (fun _ => uniform_platformFields) PlatformDraft.get_new
    fun _ _ _ _ => takes_platform_iff

theorem carries_config :
    Carries document document' (SameConfig document document') config := by
  have hfields : ∀ field ∈ configFields.all, ∀ node node' value count,
      SameInConfig document document' field.name node node' →
      Takes document (field.read node) value count →
      Takes document' (field.read node') value count := by
    simp only [configFields, List.forall_mem_cons]
    exact ⟨carries_text hroom, carries_platform hroom,
      carries_listOf hroom (fun _ => uniform_mount) (carries_mount hroom), List.forall_mem_nil _⟩
  have hothers : ∀ name node node', ConfigDraft.slots.knows name = false →
      SameInConfig document document' name node node' → node'.isComplete = true := by
    intro name node node' hunknown hsame
    obtain ⟨hserial, hplatform, hmounts⟩ := ConfigDraft.knows_eq_false_iff.mp hunknown
    simpa only [SameInConfig] using hsame
  exact carries_part hroom hfields hothers (fun _ => uniform_configFields) ConfigDraft.get_new
    fun _ _ _ _ => takes_config_iff

end Reading

/-- Edits of the maps of a document leave its configuration as it is. -/
theorem Document.Edited.ofYaml_eq {document document' : Document}
    (hedited : document.Edited document') {config : RobotConfig}
    (hread : RobotConfig.ofYaml document = .ok config) :
    RobotConfig.ofYaml document' = .ok config := by
  have hroom : document.room ≤ document'.room := Nat.mul_le_mul_left _ hedited.size_le
  obtain ⟨hlast, count, htakes⟩ := ofYaml_eq_ok_iff.mp hread
  exact ofYaml_eq_ok_iff.mpr ⟨hedited.isLast_eq ▸ hlast, count,
    carries_config hroom _ _ _ _ hedited.root htakes⟩

end RobotDescription.Yaml
