import RobotDescription.Config.Load
import RobotDescription.Proofs.Toml.Editing
import RobotDescription.Proofs.Toml.Writing
import RobotDescription.Proofs.Yaml.Editing
import RobotDescription.Proofs.Yaml.Writing
import RobotDescription.Xacro.Stream

/-!
# Trees of documents

The text of a document is taken apart into a tree, and the tree holds the configuration. Every
configuration can be written as a tree of either format, and is the one that the tree holds. The order
of the entries in maps, and entries that no part of a configuration asks for, make no difference to
the configuration and so to nothing that is done with it.
-/

namespace RobotDescription

/-- The tree of a document in one of the formats. -/
inductive Tree where
  | yaml (document : Yaml.Document)
  | toml (value : Toml.Value)

namespace Tree

/-- The tree of a text, if the text has one. -/
def ofText? : Format → String → Option Tree
  | .yaml, content => some (.yaml (.ofText content))
  | .toml, content => (Toml.Value.ofText? content).map .toml

/-- The configuration that a tree holds. -/
def config : Tree → Except ReadError RobotConfig
  | yaml document => RobotConfig.ofYaml document
  | toml value => RobotConfig.ofToml value

/-- A text is read by way of its tree. -/
theorem read_eq_config {format : Format} {content : String} {tree : Tree}
    (htree : ofText? format content = some tree) :
    RobotConfig.read format content = tree.config := by
  cases format with
  | yaml =>
      cases htree
      rfl
  | toml =>
      obtain ⟨value, hvalue, rfl⟩ := Option.map_eq_some_iff.mp htree
      rw [RobotConfig.read, hvalue]
      rfl

/-- What is done with the configuration of a tree. -/
structure Handled where
  verdict : Except ConfigError RobotConfig
  generated : Generated Document
  streamed : Xacro.Streamed

/-- The configuration is validated, and its description is laid out in memory and streamed. -/
def handled (tree : Tree) (destination : Xacro.Destination) : Except ReadError Handled :=
  tree.config.map fun config =>
    ⟨config.validated, generate config Document.empty, Xacro.stream config destination⟩

/-- The configuration is written in the tree. -/
def Writes (config : RobotConfig) : Tree → Prop
  | yaml document => document.isLast = true ∧ Yaml.spelling.config config document.root
  | toml value => Toml.spelling.config config value

/-- Every configuration can be written in both formats, and however it is written, with or without
the fields that hold their defaults, the tree holds it again. So all these trees are treated alike. -/
theorem config_of_writes (config : RobotConfig) :
    (∃ document, Writes config (yaml document)) ∧ (∃ value, Writes config (toml value)) ∧
      ∀ tree, Writes config tree → tree.config = .ok config.oneNaN ∧
        ∀ tree', Writes config tree' →
          ∀ destination, tree'.handled destination = tree.handled destination := by
  have hholds : ∀ tree, Writes config tree → tree.config = .ok config.oneNaN := by
    intro tree hwrites
    cases tree with
    | yaml document => exact Yaml.ofYaml_of_written hwrites.1 hwrites.2
    | toml value => exact Toml.ofToml_of_written hwrites
  obtain ⟨root, hroot⟩ := Yaml.isTotal_spelling.exists_config config
  obtain ⟨value, hvalue⟩ := Toml.isTotal_spelling.exists_config config
  refine ⟨⟨{ root := root }, rfl, hroot⟩, ⟨value, hvalue⟩, fun tree hwrites => ⟨hholds tree hwrites, ?_⟩⟩
  intro tree' hwrites' destination
  rw [handled, handled, hholds tree hwrites, hholds tree' hwrites']

/-- The entries of maps have changed their order, and parts of the configuration have got entries
that they have no field for. -/
inductive Edited : Tree → Tree → Prop
  | yaml {document document' : Yaml.Document} (hedited : document.Edited document') :
      Edited (.yaml document) (.yaml document')
  | toml {value value' : Toml.Value} (hedited : value.Edited value') :
      Edited (.toml value) (.toml value')

/-- Neither the order of the entries in any map nor unknown entries make a difference. -/
theorem config_of_edited {tree tree' : Tree} (hedited : tree.Edited tree') {config : RobotConfig}
    (hread : tree.config = .ok config) :
    tree'.config = .ok config ∧
      ∀ destination, tree'.handled destination = tree.handled destination := by
  have hconfig : tree'.config = .ok config := by
    cases hedited with
    | yaml hedited => exact hedited.ofYaml_eq hread
    | toml hedited => exact hedited.ofToml_eq hread
  refine ⟨hconfig, fun destination => ?_⟩
  rw [handled, handled, hconfig, hread]

section Shuffled

open Yaml

def word (text : String) : Node :=
  .scalar ⟨text, .plain, none⟩

/-- A robot with one mount. -/
def written : Yaml.Document where
  root := .mapping none [
    (word "serial_number", word "a200-0001"),
    (word "platform", .mapping none [(word "model", word "a200")]),
    (word "mounts", .sequence none [.mapping none [
      (word "name", word "front"),
      (word "model", word "bracket"),
      (word "parameters", .mapping none [
        (word "width", word "2"),
        (word "angle", word "up")])]])]
  size := 25

/-- The same robot, every map turned round, and with a note and a colour. -/
def shuffled : Yaml.Document where
  root := .mapping none [
    (word "note", .sequence none [word "spare"]),
    (word "mounts", .sequence none [.mapping none [
      (word "colour", word "red"),
      (word "parameters", .mapping none [
        (word "angle", word "up"),
        (word "width", word "2")]),
      (word "model", word "bracket"),
      (word "name", word "front")]]),
    (word "platform", .mapping none [(word "model", word "a200")]),
    (word "serial_number", word "a200-0001")]
  size := 31

theorem same_word (text : String) : Leads written shuffled SameScalar (word text) (word text) :=
  ⟨rfl, _, rfl, rfl⟩

theorem same_parameters : Leads written shuffled (SameParameters written shuffled)
    (.mapping none [(word "width", word "2"), (word "angle", word "up")])
    (.mapping none [(word "angle", word "up"), (word "width", word "2")]) := by
  refine ⟨rfl, _, _, rfl, rfl, by decide, [_, _], [], ?_, nofun, .swap _ _ _⟩
  exact .cons ⟨same_word _, same_word _⟩ (.cons ⟨same_word _, same_word _⟩ .nil)

/-- Every map is turned round. -/
theorem edited_shuffled : written.Edited shuffled where
  size_le := by decide
  isLast_eq := rfl
  root := by
    refine ⟨rfl, _, _, rfl, rfl, [_, _, _], [_], ?_, ?_, List.reverse_perm [_, _, _, _]⟩
    · refine .cons ⟨same_word _, ?_⟩ (.cons ⟨same_word _, ?_⟩ (.cons ⟨same_word _, ?_⟩ .nil))
      · rintro _ ⟨⟩
        exact same_word _
      · rintro _ ⟨⟩
        refine ⟨rfl, _, _, rfl, rfl, [_], [], .cons ⟨same_word _, ?_⟩ .nil, nofun, .refl _⟩
        rintro _ ⟨⟩
        exact same_word _
      · rintro _ ⟨⟩
        refine ⟨rfl, _, _, rfl, rfl, .cons ⟨rfl, _, _, rfl, rfl, [_, _, _], [_], ?_, ?_,
          List.reverse_perm [_, _, _, _]⟩ .nil⟩
        · refine .cons ⟨same_word _, ?_⟩ (.cons ⟨same_word _, ?_⟩ (.cons ⟨same_word _, ?_⟩ .nil))
          · rintro _ ⟨⟩
            exact same_word _
          · rintro _ ⟨⟩
            exact same_word _
          · rintro _ ⟨⟩
            exact same_parameters
        · exact List.forall_mem_singleton.mpr ⟨_, rfl, rfl, rfl⟩
    · exact List.forall_mem_singleton.mpr ⟨_, rfl, rfl, rfl⟩

theorem config_of_shuffled :
    ∃ config, (yaml written).config = .ok config ∧ (yaml shuffled).config = .ok config ∧
      ∀ destination, (yaml shuffled).handled destination = (yaml written).handled destination :=
  ⟨_, rfl, config_of_edited (.yaml edited_shuffled) rfl⟩

end Shuffled

end Tree

end RobotDescription
