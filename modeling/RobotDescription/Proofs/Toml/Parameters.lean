import RobotDescription.Proofs.Config.Entries
import RobotDescription.Proofs.Toml.Parts

/-!
# Where TOML documents hold parameters

The way from the value of a document to the value of a parameter goes through tables, in each of which
one name is looked up, and through one array. A document that is read as a configuration gives the
parameter what is read of the value at the end of this way.
-/

namespace RobotDescription.Toml

open Reading

namespace Value

/-- The value of the last entry under a name in a part with fields of these names. -/
def under? (names : List String) (name : String) (value : Value) : Option Value :=
  (value.entries? names).bind (valueUnder? some name)

/-- The item at a place of an array. -/
def item? (index : Nat) : Value → Option Value
  | .array items => items[index]?
  | _ => none

/-- The table of the parameters of a decoration or a mount. -/
def parametersOf? (value : Value) : Bearer → Option Value
  | .decoration index => do
    let platform ← value.under? ["serial_number", "platform", "mounts"] "platform"
    let decorations ← platform.under? ["model", "decorations"] "decorations"
    (← decorations.item? index).under? ["type", "enabled", "parameters"] "parameters"
  | .mount index => do
    let mounts ← value.under? ["serial_number", "platform", "mounts"] "mounts"
    (← mounts.item? index).under? ["name", "model", "parent", "xyz", "rpy", "parameters"]
      "parameters"

/-- The value that a parameter is given. -/
def parameter? (value : Value) (bearer : Bearer) (name : String) : Option Value :=
  (value.parametersOf? bearer).bind fun parameters =>
    parameters.map?.bind (valueUnder? some name)

end Value

section Fields

variable {Draft : Type} {slots : Slots Draft} {fields : Fields Reading Value slots}

theorem exists_read_of_valueUnder? {entries : List (String × Value)} {effects : List (Effect Draft)}
    (heffects : List.Forall₂ fields.EntryFills entries effects)
    {field : Field Reading Value Draft} {name : String} (hfound : fields.find? name = some field)
    {inner : Value} (hinner : valueUnder? some name entries = some inner) (start : Draft) :
    ∃ value, field.read inner = .ok value ∧
      field.get (Effect.applyAll start effects) = some value := by
  have hname : ∀ (entry : String × Value) (effect : Effect Draft), fields.EntryFills entry effect →
      some entry.1 = some effect.1 :=
    fun _ _ hentry => congrArg some hentry.1.symm
  obtain ⟨key, ⟨lastName, effect⟩, before, after, rfl, ⟨hkey, hfills⟩, hlast, hafter⟩ :=
    exists_last_of_forall₂ hname heffects hinner
  dsimp only at hkey hfills hlast hafter
  subst hkey hlast
  have hall := Fields.isEffect_of_entryFills heffects
  cases hfills with
  | ignored hnone => cases hfound.symm.trans hnone
  | fills field' hfound' value hvalue =>
      cases hfound.symm.trans hfound'
      obtain ⟨hslot, rfl⟩ := Fields.of_find? hfound
      refine ⟨value, hvalue, Slots.get_applyAll_of_last ?_ hslot hafter value start⟩
      exact (List.forall_mem_cons.mp (List.forall_mem_append.mp hall).2).2

end Fields

theorem exists_read_of_item? {α : Type} {reader : Value → Reading α} {value : Value}
    {results : List α} (hread : listOf reader value = .ok results) {index : Nat} {item : Value}
    (hitem : value.item? index = some item) :
    ∃ result, reader item = .ok result ∧ results[index]? = some result := by
  obtain ⟨items, rfl, hall⟩ := listOf_eq_ok_iff.mp hread
  obtain ⟨result, hresult, hreads⟩ := exists_getElem?_of_forall₂ hall hitem
  exact ⟨result, hreads, hresult⟩

theorem exists_read_of_decoration {value : Value} {item : Decoration}
    (hread : decoration value = .ok item) {inner : Value}
    (hinner : value.under? ["type", "enabled", "parameters"] "parameters" = some inner) :
    parameters inner = .ok item.parameters := by
  obtain ⟨entries, effects, hentries, heffects, hdone⟩ := decoration_eq_ok_iff.mp hread
  rw [Value.under?, hentries, Option.bind_some] at hinner
  have hfound : decorationFields.find? "parameters" =
      some { DecorationDraft.parametersSlot with read := parameters } := rfl
  obtain ⟨held, hheld, hslot⟩ := exists_read_of_valueUnder? heffects hfound hinner {}
  have hparameters : (Effect.applyAll {} effects : DecorationDraft).parameters = some held := hslot
  rw [DecorationDraft.parameters_of_finish hdone, hparameters]
  exact hheld

theorem exists_read_of_mount {value : Value} {item : Mount} (hread : mount value = .ok item)
    {inner : Value}
    (hinner : value.under? ["name", "model", "parent", "xyz", "rpy", "parameters"] "parameters" =
      some inner) :
    parameters inner = .ok item.parameters := by
  obtain ⟨entries, effects, hentries, heffects, hdone⟩ := mount_eq_ok_iff.mp hread
  rw [Value.under?, hentries, Option.bind_some] at hinner
  have hfound : mountFields.find? "parameters" =
      some { MountDraft.parametersSlot with read := parameters } := rfl
  obtain ⟨held, hheld, hslot⟩ := exists_read_of_valueUnder? heffects hfound hinner {}
  have hparameters : (Effect.applyAll {} effects : MountDraft).parameters = some held := hslot
  rw [MountDraft.parameters_of_finish hdone, hparameters]
  exact hheld

theorem exists_read_of_platform {value : Value} {result : PlatformConfig}
    (hread : platform value = .ok result) {inner : Value}
    (hinner : value.under? ["model", "decorations"] "decorations" = some inner) :
    listOf decoration inner = .ok result.decorations := by
  obtain ⟨entries, effects, hentries, heffects, hdone⟩ := platform_eq_ok_iff.mp hread
  rw [Value.under?, hentries, Option.bind_some] at hinner
  have hfound : platformFields.find? "decorations" =
      some { PlatformDraft.decorationsSlot with read := listOf decoration } := rfl
  obtain ⟨held, hheld, hslot⟩ := exists_read_of_valueUnder? heffects hfound hinner {}
  have hdecorations : (Effect.applyAll {} effects : PlatformDraft).decorations = some held := hslot
  rw [PlatformDraft.decorations_of_finish hdone, hdecorations]
  exact hheld

section Config

variable {value inner : Value} {config : RobotConfig} (hread : RobotConfig.ofToml value = .ok config)
include hread

theorem exists_read_of_config_platform
    (hinner : value.under? ["serial_number", "platform", "mounts"] "platform" = some inner) :
    platform inner = .ok config.platform := by
  obtain ⟨entries, effects, hentries, heffects, hdone⟩ := ofToml_eq_ok_iff.mp hread
  rw [Value.under?, hentries, Option.bind_some] at hinner
  have hfound : configFields.find? "platform" =
      some { ConfigDraft.platformSlot with read := platform } := rfl
  obtain ⟨held, hheld, hslot⟩ := exists_read_of_valueUnder? heffects hfound hinner {}
  have hplatform : (Effect.applyAll {} effects : ConfigDraft).platform = some held := hslot
  cases (ConfigDraft.parts_of_finish hdone).1.symm.trans hplatform
  exact hheld

theorem exists_read_of_config_mounts
    (hinner : value.under? ["serial_number", "platform", "mounts"] "mounts" = some inner) :
    listOf mount inner = .ok config.mounts := by
  obtain ⟨entries, effects, hentries, heffects, hdone⟩ := ofToml_eq_ok_iff.mp hread
  rw [Value.under?, hentries, Option.bind_some] at hinner
  have hfound : configFields.find? "mounts" =
      some { ConfigDraft.mountsSlot with read := listOf mount } := rfl
  obtain ⟨held, hheld, hslot⟩ := exists_read_of_valueUnder? heffects hfound hinner {}
  have hmounts : (Effect.applyAll {} effects : ConfigDraft).mounts = some held := hslot
  rw [(ConfigDraft.parts_of_finish hdone).2, hmounts]
  exact hheld

/-- The parameters of a decoration or a mount are read of their table. -/
theorem exists_read_of_parametersOf? {bearer : Bearer} (hinner : value.parametersOf? bearer = some inner) :
    ∃ held, config.parametersOf? bearer = some held ∧ parameters inner = .ok held := by
  cases bearer with
  | decoration index =>
      simp only [Value.parametersOf?, Option.bind_eq_bind, Option.bind_eq_some_iff] at hinner
      obtain ⟨platformValue, hplatform, listValue, hlist, itemValue, hitem, hinner⟩ := hinner
      have hplatform := exists_read_of_config_platform hread hplatform
      have hlist := exists_read_of_platform hplatform hlist
      obtain ⟨item, hitem, hplace⟩ := exists_read_of_item? hlist hitem
      exact ⟨item.parameters, by rw [RobotConfig.parametersOf?, hplace]; rfl,
        exists_read_of_decoration hitem hinner⟩
  | mount index =>
      simp only [Value.parametersOf?, Option.bind_eq_bind, Option.bind_eq_some_iff] at hinner
      obtain ⟨listValue, hlist, itemValue, hitem, hinner⟩ := hinner
      have hlist := exists_read_of_config_mounts hread hlist
      obtain ⟨item, hitem, hplace⟩ := exists_read_of_item? hlist hitem
      exact ⟨item.parameters, by rw [RobotConfig.parametersOf?, hplace]; rfl,
        exists_read_of_mount hitem hinner⟩

/-- A parameter has the value that is read of its own. -/
theorem exists_get?_of_parameter? {bearer : Bearer} {name : String}
    (hinner : value.parameter? bearer name = some inner) :
    ∃ held result, config.parametersOf? bearer = some held ∧ held.get? name = some result ∧
      parameterValue inner = .ok result := by
  obtain ⟨table, htable, hinner⟩ := Option.bind_eq_some_iff.mp hinner
  obtain ⟨held, hheld, hparameters⟩ := exists_read_of_parametersOf? hread htable
  obtain ⟨entries, pairs, hentries, hpairs, rfl⟩ := parameters_eq_ok_iff.mp hparameters
  rw [hentries, Option.bind_some] at hinner
  have hname : ∀ (entry : String × Value) (pair : String × ParameterValue), EntryGives entry pair →
      some entry.1 = some pair.1 :=
    fun _ _ hentry => congrArg some hentry.1.symm
  obtain ⟨key, pair, before, after, rfl, hpair, rfl, hafter⟩ :=
    exists_last_of_forall₂ hname hpairs hinner
  exact ⟨_, pair.2, hheld, Parameters.get?_ofList_of_last before hafter, hpair.2⟩

end Config

end RobotDescription.Toml
