import RobotDescription.Proofs.Yaml.Fields

/-!
# Parts of a configuration in YAML

Decorations, mounts, the platform and the whole configuration are maps with fields of their own.
-/

namespace RobotDescription.Yaml

open Reading

/-- A list of which all items are read in the same way. -/
def Reading.listOf {α : Type} (reader : Node → Reading α) (node : Node) : Reading (List α) := do
  (← items node).mapM reader

def decorationFields : Fields Reading Node DecorationDraft.slots where
  all := [
    { DecorationDraft.kindSlot with read := text },
    { DecorationDraft.enabledSlot with read := bool },
    { DecorationDraft.parametersSlot with read := parameters 4 }]
  map_toSlot := rfl

def mountFields : Fields Reading Node MountDraft.slots where
  all := [
    { MountDraft.nameSlot with read := text },
    { MountDraft.modelSlot with read := text },
    { MountDraft.parentSlot with read := text },
    { MountDraft.xyzSlot with read := poseHalf },
    { MountDraft.rpySlot with read := poseHalf },
    { MountDraft.parametersSlot with read := parameters 3 }]
  map_toSlot := rfl

def platformFields : Fields Reading Node PlatformDraft.slots where
  all := [
    { PlatformDraft.modelSlot with read := text },
    { PlatformDraft.decorationsSlot with read := listOf decoration }]
  map_toSlot := rfl

def configFields : Fields Reading Node ConfigDraft.slots where
  all := [
    { ConfigDraft.serialSlot with read := text },
    { ConfigDraft.platformSlot with read := platform },
    { ConfigDraft.mountsSlot with read := listOf mount }]
  map_toSlot := rfl

theorem decorationField_eq : decorationField = decorationFields.enter := by
  funext draft name node
  unfold decorationField
  split
  next => rfl
  next => rfl
  next => rfl
  next htype henabled hparameters =>
    have hunknown := DecorationDraft.knows_eq_false_iff.mpr ⟨htype, henabled, hparameters⟩
    rw [Fields.enter, Fields.knows_eq_false_iff.mp hunknown]

theorem mountField_eq : mountField = mountFields.enter := by
  funext draft name node
  unfold mountField
  split
  next => rfl
  next => rfl
  next => rfl
  next => rfl
  next => rfl
  next => rfl
  next hname hmodel hparent hxyz hrpy hparameters =>
    have hunknown := MountDraft.knows_eq_false_iff.mpr
      ⟨hname, hmodel, hparent, hxyz, hrpy, hparameters⟩
    rw [Fields.enter, Fields.knows_eq_false_iff.mp hunknown]

theorem platformField_eq : platformField = platformFields.enter := by
  funext draft name node
  unfold platformField
  split
  next => rfl
  next => rfl
  next hmodel hdecorations =>
    have hunknown := PlatformDraft.knows_eq_false_iff.mpr ⟨hmodel, hdecorations⟩
    rw [Fields.enter, Fields.knows_eq_false_iff.mp hunknown]

theorem configField_eq : configField = configFields.enter := by
  funext draft name node
  unfold configField
  split
  next => rfl
  next => rfl
  next => rfl
  next hserial hplatform hmounts =>
    have hunknown := ConfigDraft.knows_eq_false_iff.mpr ⟨hserial, hplatform, hmounts⟩
    rw [Fields.enter, Fields.knows_eq_false_iff.mp hunknown]

namespace Reading

variable {document : Document}

section Lists

variable {α : Type} {reader : Node → Reading α} (hreader : ∀ node, IsUniform document (reader node))
include hreader

theorem uniform_listOf (node : Node) : IsUniform document (listOf reader node) :=
  (picks_items.uniform node).bind (uniform_mapM hreader)

theorem takes_listOf_iff {node : Node} {values : List α} {count : Nat} :
    Takes document (listOf reader node) values count ↔ count ≤ document.room ∧
      ∃ all taken, (document.target node).items? = some all ∧
        TakesAll document reader all taken ∧ values = taken.map (·.1) ∧
        count = node.hops + total taken := by
  unfold listOf
  rw [picks_items.takes_bind_iff (uniform_mapM hreader)]
  refine and_congr_right fun hroom => ?_
  constructor
  · rintro ⟨all, more, hall, hrest, rfl⟩
    obtain ⟨_, taken, htaken, rfl, rfl⟩ := (takes_mapM_iff hreader).mp hrest
    exact ⟨all, taken, hall, htaken, rfl, rfl⟩
  · rintro ⟨all, taken, hall, htaken, rfl, rfl⟩
    exact ⟨all, total taken, hall,
      (takes_mapM_iff hreader).mpr ⟨by omega, taken, htaken, rfl, rfl⟩, rfl⟩

end Lists

/-- A part is what its draft is finished as. -/
theorem takes_finish_iff {Draft α : Type} {reading : Reading Draft}
    (hreading : IsUniform document reading) {finish : Draft → Except ReadError α} {value : α}
    {count : Nat} :
    Takes document (reading >>= fun draft => liftM (finish draft)) value count ↔
      ∃ draft, Takes document reading draft count ∧ finish draft = .ok value := by
  rw [takes_bind_iff hreading fun draft => uniform_lift (finish draft)]
  constructor
  · rintro ⟨_, draft, first, second, hdraft, hfinish, rfl⟩
    obtain ⟨hdone, rfl⟩ := takes_lift_iff.mp hfinish
    exact ⟨draft, hdraft, hdone⟩
  · rintro ⟨draft, hdraft, hfinish⟩
    exact ⟨hdraft.count_le, draft, count, 0, hdraft, takes_lift_iff.mpr ⟨hfinish, rfl⟩, rfl⟩

theorem decoration_eq (node : Node) :
    decoration node = fields decorationFields.enter {} node >>= fun draft => liftM draft.finish := by
  rw [← decorationField_eq]
  rfl

theorem mount_eq (node : Node) :
    mount node = fields mountFields.enter {} node >>= fun draft => liftM draft.finish := by
  rw [← mountField_eq]
  rfl

theorem platform_eq (node : Node) :
    platform node = fields platformFields.enter {} node >>= fun draft => liftM draft.finish := by
  rw [← platformField_eq]
  rfl

theorem config_eq (node : Node) :
    config node = fields configFields.enter {} node >>= fun draft => liftM draft.finish := by
  rw [← configField_eq]
  rfl

theorem uniform_decorationFields : decorationFields.IsUniform document := by
  simp only [Fields.IsUniform, decorationFields, List.forall_mem_cons]
  exact ⟨picks_text.uniform, (picks_ofKind .bool Content.bool?).uniform, uniform_parameters 4,
    List.forall_mem_nil _⟩

theorem uniform_mountFields : mountFields.IsUniform document := by
  simp only [Fields.IsUniform, mountFields, List.forall_mem_cons]
  exact ⟨picks_text.uniform, picks_text.uniform, picks_text.uniform, uniform_poseHalf,
    uniform_poseHalf, uniform_parameters 3, List.forall_mem_nil _⟩

theorem uniform_decoration (node : Node) : IsUniform document (decoration node) := by
  rw [decoration_eq]
  exact (Fields.uniform_fields uniform_decorationFields {} node).bind fun draft =>
    uniform_lift draft.finish

theorem uniform_mount (node : Node) : IsUniform document (mount node) := by
  rw [mount_eq]
  exact (Fields.uniform_fields uniform_mountFields {} node).bind fun draft =>
    uniform_lift draft.finish

theorem uniform_platformFields : platformFields.IsUniform document := by
  simp only [Fields.IsUniform, platformFields, List.forall_mem_cons]
  exact ⟨picks_text.uniform, uniform_listOf uniform_decoration, List.forall_mem_nil _⟩

theorem uniform_platform (node : Node) : IsUniform document (platform node) := by
  rw [platform_eq]
  exact (Fields.uniform_fields uniform_platformFields {} node).bind fun draft =>
    uniform_lift draft.finish

theorem uniform_configFields : configFields.IsUniform document := by
  simp only [Fields.IsUniform, configFields, List.forall_mem_cons]
  exact ⟨picks_text.uniform, uniform_platform, uniform_listOf uniform_mount, List.forall_mem_nil _⟩

theorem uniform_config (node : Node) : IsUniform document (config node) := by
  rw [config_eq]
  exact (Fields.uniform_fields uniform_configFields {} node).bind fun draft =>
    uniform_lift draft.finish

theorem takes_decoration_iff {node : Node} {item : Decoration} {count : Nat} :
    Takes document (decoration node) item count ↔ ∃ draft,
      Takes document (fields decorationFields.enter {} node) draft count ∧
        draft.finish = .ok item := by
  rw [decoration_eq]
  exact takes_finish_iff (Fields.uniform_fields uniform_decorationFields {} node)

theorem takes_mount_iff {node : Node} {item : Mount} {count : Nat} :
    Takes document (mount node) item count ↔ ∃ draft,
      Takes document (fields mountFields.enter {} node) draft count ∧ draft.finish = .ok item := by
  rw [mount_eq]
  exact takes_finish_iff (Fields.uniform_fields uniform_mountFields {} node)

theorem takes_platform_iff {node : Node} {result : PlatformConfig} {count : Nat} :
    Takes document (platform node) result count ↔ ∃ draft,
      Takes document (fields platformFields.enter {} node) draft count ∧
        draft.finish = .ok result := by
  rw [platform_eq]
  exact takes_finish_iff (Fields.uniform_fields uniform_platformFields {} node)

theorem takes_config_iff {node : Node} {result : RobotConfig} {count : Nat} :
    Takes document (config node) result count ↔ ∃ draft,
      Takes document (fields configFields.enter {} node) draft count ∧
        draft.finish = .ok result := by
  rw [config_eq]
  exact takes_finish_iff (Fields.uniform_fields uniform_configFields {} node)

/-- The configuration that a document holds is what is taken of its root. -/
theorem ofYaml_eq_ok_iff {result : RobotConfig} :
    RobotConfig.ofYaml document = .ok result ↔ document.isLast = true ∧
      ∃ count, Takes document (config document.root) result count := by
  change (config document.root document 0 >>= fun taken =>
    if document.isLast = true then .ok taken.1 else .error .malformed) = _ ↔ _
  constructor
  · intro hread
    cases hrun : config document.root document 0 with
    | error reason =>
        rw [hrun] at hread
        cases hread
    | ok taken =>
        rw [hrun] at hread
        change (if document.isLast = true then _ else _) = _ at hread
        split at hread
        next hlast =>
          cases hread
          exact ⟨hlast, taken.2, (uniform_config document.root).takes hrun⟩
        next => cases hread
  · rintro ⟨hlast, count, htakes⟩
    rw [htakes.run_eq 0 (by simpa using htakes.count_le)]
    exact if_pos hlast

end Reading

end RobotDescription.Yaml
