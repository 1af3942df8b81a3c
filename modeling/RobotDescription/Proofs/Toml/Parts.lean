import Mathlib.Data.List.Forall2
import RobotDescription.Config.Toml
import RobotDescription.Proofs.Config.Slots

/-!
# Parts of a configuration in TOML

A part of a configuration is made of the effects of its entries, which a table gives under their
names and an array by their places. What comes later under a name wins.
-/

namespace RobotDescription.Toml

/-- The entries of a part of a configuration whose fields have these names. -/
def Value.entries? (names : List String) : Value → Option (List (String × Value))
  | .array items => some (names.zip items)
  | .table entries => some entries
  | .moment written => some [(Reading.momentKey, .text written)]
  | _ => none

theorem Reading.bind_eq_ok_iff {α β : Type} {reading : Reading α} {next : α → Reading β}
    {result : β} : reading >>= next = .ok result ↔
      ∃ value, reading = .ok value ∧ next value = .ok result := by
  cases reading with
  | error reason => exact ⟨nofun, nofun⟩
  | ok value =>
      constructor
      · exact fun hnext => ⟨value, rfl, hnext⟩
      · rintro ⟨_, ⟨⟩, hnext⟩
        exact hnext

/-- The entries of a map. -/
def Value.map? : Value → Option (List (String × Value))
  | .table entries => some entries
  | .moment written => some [(Reading.momentKey, .text written)]
  | _ => none

end RobotDescription.Toml

namespace RobotDescription.Fields

open Toml

variable {Draft : Type} {slots : Slots Draft} (fields : Fields Toml.Reading Value slots)

/-- Reads the value under a name into a draft. -/
def fill (draft : Draft) (name : String) (value : Value) : Toml.Reading Draft := do
  match fields.find? name with
  | some field => return field.set (some (← field.read value)) draft
  | none => return draft

/-- What the value under a name does to a draft. -/
inductive Fills (name : String) (value : Value) : (Draft → Draft) → Prop
  | fills (field : Field Toml.Reading Value Draft) (hfound : fields.find? name = some field)
      (result : field.Value) (hread : field.read value = .ok result) :
      Fills name value (field.set (some result))
  | ignored (hnone : fields.find? name = none) : Fills name value id

/-- What an entry does to a draft. -/
def EntryFills (entry : String × Value) (effect : Effect Draft) : Prop :=
  effect.1 = entry.1 ∧ fields.Fills entry.1 entry.2 effect.2

variable {fields}

theorem fill_eq_ok_iff {draft result : Draft} {name : String} {value : Value} :
    fields.fill draft name value = .ok result ↔
      ∃ effect, fields.Fills name value effect ∧ result = effect draft := by
  unfold fill
  cases hfound : fields.find? name with
  | none =>
      constructor
      · rintro ⟨⟩
        exact ⟨id, .ignored hfound, rfl⟩
      · rintro ⟨effect, hfills, rfl⟩
        cases hfills with
        | fills field hfound' _ _ => cases hfound.symm.trans hfound'
        | ignored => rfl
  | some field =>
      dsimp only
      rw [Reading.bind_eq_ok_iff]
      constructor
      · rintro ⟨taken, hread, ⟨⟩⟩
        exact ⟨_, .fills field hfound taken hread, rfl⟩
      · rintro ⟨effect, hfills, rfl⟩
        cases hfills with
        | fills field' hfound' taken hread =>
            cases hfound.symm.trans hfound'
            exact ⟨taken, hread, rfl⟩
        | ignored hnone => cases hfound.symm.trans hnone

theorem Fills.isEffect {name : String} {value : Value} {effect : Draft → Draft}
    (hfills : fields.Fills name value effect) : slots.IsEffect (name, effect) := by
  cases hfills with
  | fills field hfound value _ =>
      obtain ⟨hslot, rfl⟩ := of_find? hfound
      exact .fills field.toSlot hslot value
  | ignored hnone => exact .ignored name (knows_eq_false_iff.mpr hnone)

theorem isEffect_of_entryFills {entries : List (String × Value)} {effects : List (Effect Draft)}
    (heffects : List.Forall₂ fields.EntryFills entries effects) :
    ∀ effect ∈ effects, slots.IsEffect effect := by
  induction heffects with
  | nil => nofun
  | cons hentry _ ih =>
      rename_i entry effect _ _
      refine List.forall_mem_cons.mpr ⟨?_, ih⟩
      obtain ⟨hname, hfills⟩ := hentry
      rw [← hname] at hfills
      exact hfills.isEffect

/-- Entries in a row are read exactly if each of them has an effect. -/
theorem foldlM_fill_eq_ok_iff {entries : List (String × Value)} {start result : Draft} :
    (entries.foldlM (fun draft (entry : String × Value) => fields.fill draft entry.1 entry.2)
        start : Toml.Reading Draft) = .ok result ↔
      ∃ effects, List.Forall₂ fields.EntryFills entries effects ∧
        result = Effect.applyAll start effects := by
  induction entries generalizing start with
  | nil =>
      constructor
      · rintro ⟨⟩
        exact ⟨[], .nil, rfl⟩
      · rintro ⟨effects, ⟨⟩, rfl⟩
        rfl
  | cons entry rest ih =>
      rw [List.foldlM_cons, Reading.bind_eq_ok_iff]
      constructor
      · rintro ⟨draft, hfill, hrest⟩
        obtain ⟨effect, hfills, rfl⟩ := fill_eq_ok_iff.mp hfill
        obtain ⟨effects, heffects, rfl⟩ := ih.mp hrest
        exact ⟨(entry.1, effect) :: effects, .cons ⟨rfl, hfills⟩ heffects, rfl⟩
      · rintro ⟨_, heffects, rfl⟩
        cases heffects with
        | @cons _ effect _ effects hentry heffects =>
            exact ⟨effect.2 start, fill_eq_ok_iff.mpr ⟨effect.2, hentry.2, rfl⟩,
              ih.mpr ⟨effects, heffects, rfl⟩⟩

section Part

variable {α : Type} {names : List String} {start : Draft} {finish : Draft → Toml.Reading α}
  {value : Value} {result : α}

/-- However a part is written, its entries are read in a row and the draft is finished after them. -/
theorem part_eq_ok_of_entries? {entries : List (String × Value)}
    (hentries : value.entries? names = some entries) :
    Reading.part names fields.fill start finish value = .ok result ↔
      ∃ draft, (entries.foldlM
        (fun draft (entry : String × Value) => fields.fill draft entry.1 entry.2) start :
          Toml.Reading Draft) = .ok draft ∧ finish draft = .ok result := by
  cases value with
  | array items =>
      cases hentries
      refine Reading.bind_eq_ok_iff.trans (exists_congr fun draft => and_congr_right fun _ => ?_)
      cases finish draft with
      | ok value => exact Iff.rfl
      | error reason => exact iff_of_false nofun nofun
  | table =>
      cases hentries
      change (entries.foldlM _ start >>= finish : Toml.Reading α) = _ ↔ _
      exact Reading.bind_eq_ok_iff
  | moment =>
      cases hentries
      change (List.foldlM _ start [_] >>= finish : Toml.Reading α) = _ ↔ _
      exact Reading.bind_eq_ok_iff
  | _ => cases hentries

/-- A part is what its draft is finished as after the effects of its entries. -/
theorem part_eq_ok_iff :
    Reading.part names fields.fill start finish value = .ok result ↔
      ∃ entries effects, value.entries? names = some entries ∧
        List.Forall₂ fields.EntryFills entries effects ∧
        finish (Effect.applyAll start effects) = .ok result := by
  cases hfound : value.entries? names with
  | none =>
      refine iff_of_false (fun hread => ?_) nofun
      cases value with
      | array | table | moment => cases hfound
      | _ => cases hread
  | some entries =>
      rw [part_eq_ok_of_entries? hfound]
      constructor
      · rintro ⟨draft, hfold, hfinish⟩
        obtain ⟨effects, heffects, rfl⟩ := foldlM_fill_eq_ok_iff.mp hfold
        exact ⟨entries, effects, rfl, heffects, hfinish⟩
      · rintro ⟨_, effects, ⟨⟩, heffects, hfinish⟩
        exact ⟨_, foldlM_fill_eq_ok_iff.mpr ⟨effects, heffects, rfl⟩, hfinish⟩

end Part

end RobotDescription.Fields

namespace RobotDescription.Toml

open Reading

/-- A list of which all items are read in the same way. -/
def Reading.listOf {α : Type} (reader : Value → Reading α) (value : Value) : Reading (List α) := do
  (← items value).mapM reader

/-- Half a pose, which is set where it is written. -/
def Reading.poseHalf (value : Value) : Reading (Option Vector3) := do
  return some (← vector value)

def decorationFields : Fields Reading Value DecorationDraft.slots where
  all := [
    { DecorationDraft.kindSlot with read := text },
    { DecorationDraft.enabledSlot with read := bool },
    { DecorationDraft.parametersSlot with read := parameters }]
  map_toSlot := rfl

def mountFields : Fields Reading Value MountDraft.slots where
  all := [
    { MountDraft.nameSlot with read := text },
    { MountDraft.modelSlot with read := text },
    { MountDraft.parentSlot with read := text },
    { MountDraft.xyzSlot with read := poseHalf },
    { MountDraft.rpySlot with read := poseHalf },
    { MountDraft.parametersSlot with read := parameters }]
  map_toSlot := rfl

def platformFields : Fields Reading Value PlatformDraft.slots where
  all := [
    { PlatformDraft.modelSlot with read := text },
    { PlatformDraft.decorationsSlot with read := listOf decoration }]
  map_toSlot := rfl

def configFields : Fields Reading Value ConfigDraft.slots where
  all := [
    { ConfigDraft.serialSlot with read := text },
    { ConfigDraft.platformSlot with read := platform },
    { ConfigDraft.mountsSlot with read := listOf mount }]
  map_toSlot := rfl

theorem decorationField_eq : decorationField = decorationFields.fill := by
  funext draft name value
  unfold decorationField
  split
  next => rfl
  next => rfl
  next => rfl
  next htype henabled hparameters =>
    have hunknown := DecorationDraft.knows_eq_false_iff.mpr ⟨htype, henabled, hparameters⟩
    rw [Fields.fill, Fields.knows_eq_false_iff.mp hunknown]

theorem mountField_eq : mountField = mountFields.fill := by
  funext draft name value
  unfold mountField
  split
  next => rfl
  next => rfl
  next => rfl
  next =>
    change _ = (poseHalf value >>= fun half => _)
    rw [poseHalf, bind_assoc]
    rfl
  next =>
    change _ = (poseHalf value >>= fun half => _)
    rw [poseHalf, bind_assoc]
    rfl
  next => rfl
  next hname hmodel hparent hxyz hrpy hparameters =>
    have hunknown := MountDraft.knows_eq_false_iff.mpr
      ⟨hname, hmodel, hparent, hxyz, hrpy, hparameters⟩
    rw [Fields.fill, Fields.knows_eq_false_iff.mp hunknown]

theorem platformField_eq : platformField = platformFields.fill := by
  funext draft name value
  unfold platformField
  split
  next => rfl
  next =>
    change _ = (listOf decoration value >>= fun decorations => _)
    rw [listOf, bind_assoc]
    rfl
  next hmodel hdecorations =>
    have hunknown := PlatformDraft.knows_eq_false_iff.mpr ⟨hmodel, hdecorations⟩
    rw [Fields.fill, Fields.knows_eq_false_iff.mp hunknown]

theorem configField_eq : configField = configFields.fill := by
  funext draft name value
  unfold configField
  split
  next => rfl
  next => rfl
  next =>
    change _ = (listOf mount value >>= fun mounts => _)
    rw [listOf, bind_assoc]
    rfl
  next hserial hplatform hmounts =>
    have hunknown := ConfigDraft.knows_eq_false_iff.mpr ⟨hserial, hplatform, hmounts⟩
    rw [Fields.fill, Fields.knows_eq_false_iff.mp hunknown]

namespace Reading

theorem mapM_eq_ok_iff {α : Type} {reader : Value → Reading α} {items : List Value}
    {results : List α} : items.mapM reader = .ok results ↔
      List.Forall₂ (fun item result => reader item = .ok result) items results := by
  induction items generalizing results with
  | nil =>
      rw [List.mapM_nil]
      constructor
      · rintro ⟨⟩
        exact .nil
      · rintro ⟨⟩
        rfl
  | cons item rest ih =>
      simp only [List.mapM_cons, bind_eq_ok_iff, ih]
      constructor
      · rintro ⟨result, hitem, others, hrest, ⟨⟩⟩
        exact .cons hitem hrest
      · rintro hall
        cases hall with
        | cons hitem hrest => exact ⟨_, hitem, _, hrest, rfl⟩

theorem items_eq_ok_iff {value : Value} {all : List Value} :
    items value = .ok all ↔ value = .array all := by
  cases value with
  | array => simp [items]
  | _ => constructor <;> intro hall <;> cases hall

theorem listOf_eq_ok_iff {α : Type} {reader : Value → Reading α} {value : Value}
    {results : List α} : listOf reader value = .ok results ↔ ∃ all, value = .array all ∧
      List.Forall₂ (fun item result => reader item = .ok result) all results := by
  unfold listOf
  simp only [bind_eq_ok_iff, items_eq_ok_iff, mapM_eq_ok_iff]

/-- An entry gives a parameter of its name. -/
def EntryGives (entry : String × Value) (pair : String × ParameterValue) : Prop :=
  pair.1 = entry.1 ∧ parameterValue entry.2 = .ok pair.2

theorem foldlM_parameters_eq_ok_iff {entries : List (String × Value)} {start result : Parameters} :
    (entries.foldlM (fun parameters (entry : String × Value) => do
        return parameters.insert entry.1 (← parameterValue entry.2)) start : Reading Parameters) =
        .ok result ↔
      ∃ pairs, List.Forall₂ EntryGives entries pairs ∧
        result = pairs.foldl (fun parameters pair => parameters.insert pair.1 pair.2) start := by
  induction entries generalizing start with
  | nil =>
      constructor
      · rintro ⟨⟩
        exact ⟨[], .nil, rfl⟩
      · rintro ⟨pairs, ⟨⟩, rfl⟩
        rfl
  | cons entry rest ih =>
      rw [List.foldlM_cons]
      simp only [bind_eq_ok_iff, ih]
      constructor
      · rintro ⟨_, ⟨taken, htaken, ⟨⟩⟩, pairs, hpairs, rfl⟩
        exact ⟨(entry.1, taken) :: pairs, .cons ⟨rfl, htaken⟩ hpairs, rfl⟩
      · rintro ⟨_, hpairs, rfl⟩
        cases hpairs with
        | @cons _ pair _ pairs hentry hpairs =>
            refine ⟨_, ⟨pair.2, hentry.2, rfl⟩, pairs, hpairs, ?_⟩
            rw [List.foldl_cons, hentry.1]

theorem entries_eq_ok_iff {value : Value} {all : List (String × Value)} :
    entries value = .ok all ↔ value.map? = some all := by
  cases value with
  | table | moment => simp [entries, Value.map?]
  | _ => constructor <;> intro hall <;> cases hall

/-- Parameters are those of the entries of a map, set one after the other. -/
theorem parameters_eq_ok_iff {value : Value} {result : Parameters} :
    parameters value = .ok result ↔ ∃ entries pairs, value.map? = some entries ∧
      List.Forall₂ EntryGives entries pairs ∧ result = .ofList pairs := by
  change (entries value >>= fun all => (all.foldlM (fun parameters (entry : String × Value) => do
    return parameters.insert entry.1 (← parameterValue entry.2)) .empty : Reading Parameters)) =
    _ ↔ _
  simp only [bind_eq_ok_iff, entries_eq_ok_iff, foldlM_parameters_eq_ok_iff]
  constructor
  · rintro ⟨all, hall, pairs, hpairs, rfl⟩
    exact ⟨all, pairs, hall, hpairs, rfl⟩
  · rintro ⟨all, pairs, hall, hpairs, rfl⟩
    exact ⟨all, hall, pairs, hpairs, rfl⟩

theorem decoration_eq_ok_iff {value : Value} {result : Decoration} :
    decoration value = .ok result ↔ ∃ entries effects,
      value.entries? ["type", "enabled", "parameters"] = some entries ∧
      List.Forall₂ decorationFields.EntryFills entries effects ∧
      (Effect.applyAll {} effects).finish = .ok result := by
  unfold decoration
  rw [decorationField_eq]
  exact Fields.part_eq_ok_iff

theorem mount_eq_ok_iff {value : Value} {result : Mount} :
    mount value = .ok result ↔ ∃ entries effects,
      value.entries? ["name", "model", "parent", "xyz", "rpy", "parameters"] = some entries ∧
      List.Forall₂ mountFields.EntryFills entries effects ∧
      (Effect.applyAll {} effects).finish = .ok result := by
  unfold mount
  rw [mountField_eq]
  exact Fields.part_eq_ok_iff

theorem platform_eq_ok_iff {value : Value} {result : PlatformConfig} :
    platform value = .ok result ↔ ∃ entries effects,
      value.entries? ["model", "decorations"] = some entries ∧
      List.Forall₂ platformFields.EntryFills entries effects ∧
      (Effect.applyAll {} effects).finish = .ok result := by
  unfold platform
  rw [platformField_eq]
  exact Fields.part_eq_ok_iff

theorem ofToml_eq_ok_iff {value : Value} {result : RobotConfig} :
    RobotConfig.ofToml value = .ok result ↔ ∃ entries effects,
      value.entries? ["serial_number", "platform", "mounts"] = some entries ∧
      List.Forall₂ configFields.EntryFills entries effects ∧
      (Effect.applyAll {} effects).finish = .ok result := by
  unfold RobotConfig.ofToml config
  rw [configField_eq]
  exact Fields.part_eq_ok_iff

end Reading

end RobotDescription.Toml
