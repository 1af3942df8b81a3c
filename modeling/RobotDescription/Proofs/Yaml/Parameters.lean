import RobotDescription.Proofs.Config.Entries
import RobotDescription.Proofs.Yaml.Parts

/-!
# Where YAML documents hold parameters

The way from the root of a document to the value of a parameter goes through maps, in each of which
one name is looked up, and through one list. A document that is read as a configuration gives the
parameter the value of the scalar at the end of this way.
-/

namespace RobotDescription.Yaml

open Reading

namespace Document

variable (document : Document)

/-- The value of the last entry under a name in a map. -/
def under? (name : String) (node : Node) : Option Node :=
  (document.target node).entries?.bind (valueUnder? (fun key => (document.target key).text?) name)

/-- The item at a place of a list. -/
def item? (index : Nat) (node : Node) : Option Node :=
  (document.target node).items?.bind (·[index]?)

/-- The map of the parameters of a decoration or a mount. -/
def parametersOf? : Bearer → Option Node
  | .decoration index => do
    let platform ← document.under? "platform" document.root
    let decorations ← document.under? "decorations" platform
    document.under? "parameters" (← document.item? index decorations)
  | .mount index => do
    let mounts ← document.under? "mounts" document.root
    document.under? "parameters" (← document.item? index mounts)

/-- The scalar that a parameter has its value from. -/
def parameter? (bearer : Bearer) (name : String) : Option Scalar := do
  let node ← document.under? name (← document.parametersOf? bearer)
  (document.target node).scalar?

end Document

variable {document : Document}

section Fields

variable {Draft : Type} {slots : Slots Draft} {fields : Fields Reading Node slots}

theorem exists_takes_of_under? (huniform : fields.IsUniform document) {start : Draft}
    (hstart : ∀ slot ∈ slots.all, slot.get start = none) {node : Node} {draft : Draft} {count : Nat}
    (htakes : Takes document (Reading.fields fields.enter start node) draft count)
    {field : Field Reading Node Draft} {name : String} (hfound : fields.find? name = some field)
    {inner : Node} (hinner : document.under? name node = some inner) :
    ∃ value count, Takes document (field.read inner) value count ∧
      field.get draft = some value := by
  obtain ⟨_, entries, taken, hentries, htaken, _, rfl, _⟩ :=
    (Fields.takes_fields_iff huniform hstart).mp htakes
  rw [Document.under?, hentries, Option.bind_some] at hinner
  have hname : ∀ entry (pair : Effect Draft × Nat), fields.EntryTakes document entry pair →
      (document.target entry.1).text? = some pair.1.1 := by
    rintro entry pair ⟨_, _, hkey, _, _⟩
    exact (picks_text.takes_iff.mp hkey).2.1
  obtain ⟨key, ⟨⟨lastName, effect⟩, more⟩, before, after, rfl, ⟨_, count, _, hgives, _⟩, hlast,
    hafter⟩ := exists_last_of_forall₂ hname htaken hinner
  dsimp only at hgives hlast hafter
  subst hlast
  have heffects := Fields.isEffect_of_forall₂ htaken
  rw [List.map_append, List.map_cons] at heffects ⊢
  cases hgives with
  | ignored hnone _ => cases hfound.symm.trans hnone
  | fills field' hfound' value _ hvalue =>
      cases hfound.symm.trans hfound'
      obtain ⟨hslot, rfl⟩ := Fields.of_find? hfound
      refine ⟨value, count, hvalue, Slots.get_applyAll_of_last ?_ hslot ?_ value start⟩
      · exact (List.forall_mem_cons.mp (List.forall_mem_append.mp heffects).2).2
      · exact List.forall_mem_map.mpr hafter

end Fields

theorem exists_takes_of_item? {α : Type} {reader : Node → Reading α}
    (hreader : ∀ node, IsUniform document (reader node)) {node : Node} {values : List α}
    {count : Nat} (htakes : Takes document (listOf reader node) values count) {index : Nat}
    {item : Node} (hitem : document.item? index node = some item) :
    ∃ value count, Takes document (reader item) value count ∧ values[index]? = some value := by
  obtain ⟨_, all, taken, hall, htaken, rfl, _⟩ := (takes_listOf_iff hreader).mp htakes
  rw [Document.item?, hall, Option.bind_some] at hitem
  obtain ⟨⟨value, count⟩, hvalue, htakes⟩ := exists_getElem?_of_forall₂ htaken hitem
  exact ⟨value, count, htakes, by rw [List.getElem?_map, hvalue]; rfl⟩

theorem exists_value_of_under? {around : Nat} {node : Node} {parameters : Parameters} {count : Nat}
    (htakes : Takes document (Reading.parameters around node) parameters count) {name : String}
    {inner : Node} (hinner : document.under? name node = some inner) :
    ∃ value, parameters.get? name = some value ∧
      (document.target inner).scalar?.bind (·.parameter?) = some value := by
  obtain ⟨_, entries, taken, hentries, htaken, rfl, _⟩ := takes_parameters_iff.mp htakes
  rw [Document.under?, hentries, Option.bind_some] at hinner
  have hname : ∀ (entry : Node × Node) (pair : (String × ParameterValue) × Nat),
      Takes document (parameterEntry (around + 1) entry) pair.1 pair.2 →
      (document.target entry.1).text? = some pair.1.1 :=
    fun _ _ hentry => (takes_parameterEntry_iff.mp hentry).2.1
  obtain ⟨key, ⟨pair, _⟩, before, after, rfl, hentry, rfl, hafter⟩ :=
    exists_last_of_forall₂ hname htaken hinner
  refine ⟨pair.2, ?_, (takes_parameterEntry_iff.mp hentry).2.2.1⟩
  rw [List.map_append, List.map_cons]
  exact Parameters.get?_ofList_of_last _ (List.forall_mem_map.mpr hafter)

theorem exists_takes_of_decoration {node : Node} {item : Decoration} {count : Nat}
    (htakes : Takes document (decoration node) item count) {inner : Node}
    (hinner : document.under? "parameters" node = some inner) :
    ∃ count, Takes document (parameters 4 inner) item.parameters count := by
  obtain ⟨draft, hfields, hdone⟩ := takes_decoration_iff.mp htakes
  have hfound : decorationFields.find? "parameters" =
      some { DecorationDraft.parametersSlot with read := parameters 4 } := rfl
  obtain ⟨held, count, hheld, hslot⟩ := exists_takes_of_under? uniform_decorationFields
    DecorationDraft.get_new hfields hfound hinner
  have hparameters : draft.parameters = some held := hslot
  rw [DecorationDraft.parameters_of_finish hdone, hparameters]
  exact ⟨count, hheld⟩

theorem exists_takes_of_mount {node : Node} {item : Mount} {count : Nat}
    (htakes : Takes document (mount node) item count) {inner : Node}
    (hinner : document.under? "parameters" node = some inner) :
    ∃ count, Takes document (parameters 3 inner) item.parameters count := by
  obtain ⟨draft, hfields, hdone⟩ := takes_mount_iff.mp htakes
  have hfound : mountFields.find? "parameters" =
      some { MountDraft.parametersSlot with read := parameters 3 } := rfl
  obtain ⟨held, count, hheld, hslot⟩ := exists_takes_of_under? uniform_mountFields
    MountDraft.get_new hfields hfound hinner
  have hparameters : draft.parameters = some held := hslot
  rw [MountDraft.parameters_of_finish hdone, hparameters]
  exact ⟨count, hheld⟩

theorem exists_takes_of_platform {node : Node} {result : PlatformConfig} {count : Nat}
    (htakes : Takes document (platform node) result count) {inner : Node}
    (hinner : document.under? "decorations" node = some inner) :
    ∃ count, Takes document (listOf decoration inner) result.decorations count := by
  obtain ⟨draft, hfields, hdone⟩ := takes_platform_iff.mp htakes
  have hfound : platformFields.find? "decorations" =
      some { PlatformDraft.decorationsSlot with read := listOf decoration } := rfl
  obtain ⟨held, count, hheld, hslot⟩ := exists_takes_of_under? uniform_platformFields
    PlatformDraft.get_new hfields hfound hinner
  have hdecorations : draft.decorations = some held := hslot
  rw [PlatformDraft.decorations_of_finish hdone, hdecorations]
  exact ⟨count, hheld⟩

section Config

variable {config : RobotConfig} {count : Nat}
  (htakes : Takes document (Reading.config document.root) config count)
include htakes

theorem exists_takes_of_config_platform {inner : Node}
    (hinner : document.under? "platform" document.root = some inner) :
    ∃ count, Takes document (platform inner) config.platform count := by
  obtain ⟨draft, hfields, hdone⟩ := takes_config_iff.mp htakes
  have hfound : configFields.find? "platform" =
      some { ConfigDraft.platformSlot with read := platform } := rfl
  obtain ⟨held, count, hheld, hslot⟩ := exists_takes_of_under? uniform_configFields
    ConfigDraft.get_new hfields hfound hinner
  have hplatform : draft.platform = some held := hslot
  cases (ConfigDraft.parts_of_finish hdone).1.symm.trans hplatform
  exact ⟨count, hheld⟩

theorem exists_takes_of_config_mounts {inner : Node}
    (hinner : document.under? "mounts" document.root = some inner) :
    ∃ count, Takes document (listOf mount inner) config.mounts count := by
  obtain ⟨draft, hfields, hdone⟩ := takes_config_iff.mp htakes
  have hfound : configFields.find? "mounts" =
      some { ConfigDraft.mountsSlot with read := listOf mount } := rfl
  obtain ⟨held, count, hheld, hslot⟩ := exists_takes_of_under? uniform_configFields
    ConfigDraft.get_new hfields hfound hinner
  have hmounts : draft.mounts = some held := hslot
  rw [(ConfigDraft.parts_of_finish hdone).2, hmounts]
  exact ⟨count, hheld⟩

end Config

/-- The parameters of a decoration or a mount are read of their map. -/
theorem exists_takes_of_parametersOf? {config : RobotConfig}
    (hread : RobotConfig.ofYaml document = .ok config) {bearer : Bearer} {node : Node}
    (hnode : document.parametersOf? bearer = some node) :
    ∃ held around count, config.parametersOf? bearer = some held ∧
      Takes document (parameters around node) held count := by
  obtain ⟨_, _, hconfig⟩ := ofYaml_eq_ok_iff.mp hread
  cases bearer with
  | decoration index =>
      simp only [Document.parametersOf?, Option.bind_eq_bind, Option.bind_eq_some_iff] at hnode
      obtain ⟨platformNode, hplatform, listNode, hlist, itemNode, hitem, hnode⟩ := hnode
      obtain ⟨_, hplatform⟩ := exists_takes_of_config_platform hconfig hplatform
      obtain ⟨_, hlist⟩ := exists_takes_of_platform hplatform hlist
      obtain ⟨item, _, htakes, hitem⟩ := exists_takes_of_item? uniform_decoration hlist hitem
      obtain ⟨count, hparameters⟩ := exists_takes_of_decoration htakes hnode
      exact ⟨item.parameters, 4, count, by rw [RobotConfig.parametersOf?, hitem]; rfl, hparameters⟩
  | mount index =>
      simp only [Document.parametersOf?, Option.bind_eq_bind, Option.bind_eq_some_iff] at hnode
      obtain ⟨listNode, hlist, itemNode, hitem, hnode⟩ := hnode
      obtain ⟨_, hlist⟩ := exists_takes_of_config_mounts hconfig hlist
      obtain ⟨item, _, htakes, hitem⟩ := exists_takes_of_item? uniform_mount hlist hitem
      obtain ⟨count, hparameters⟩ := exists_takes_of_mount htakes hnode
      exact ⟨item.parameters, 3, count, by rw [RobotConfig.parametersOf?, hitem]; rfl, hparameters⟩

/-- A parameter has the value that its scalar gives. -/
theorem exists_get?_of_parameter? {config : RobotConfig}
    (hread : RobotConfig.ofYaml document = .ok config) {bearer : Bearer} {name : String} {s : Scalar}
    (hscalar : document.parameter? bearer name = some s) :
    ∃ held value, config.parametersOf? bearer = some held ∧ held.get? name = some value ∧
      s.parameter? = some value := by
  simp only [Document.parameter?, Option.bind_eq_bind, Option.bind_eq_some_iff] at hscalar
  obtain ⟨inner, hinner, node, hnode, hscalar⟩ := hscalar
  obtain ⟨held, _, _, hheld, htakes⟩ := exists_takes_of_parametersOf? hread hinner
  obtain ⟨value, hvalue, hgives⟩ := exists_value_of_under? htakes hnode
  rw [hscalar, Option.bind_some] at hgives
  exact ⟨held, value, hheld, hvalue, hgives⟩

end RobotDescription.Yaml
