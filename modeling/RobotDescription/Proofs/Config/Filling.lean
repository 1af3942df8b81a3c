import RobotDescription.Proofs.Config.Slots
import RobotDescription.Proofs.Config.Spelling

/-!
# Drafts filled from what is written

A map in which a part of a configuration is written fills the slots of a draft, each at most once. A
slot that stays empty belongs to a field that was left out, and the draft is finished with its
default. This holds in every format in which single entries fill their slots.
-/

namespace RobotDescription

/-- A slot and what is put into it, if anything is. -/
abbrev Filling (Draft : Type) := (slot : Slot Draft) × Option slot.Value

namespace Filling

variable {Draft Entry : Type}

def effects : Filling Draft → List (Effect Draft)
  | ⟨slot, some value⟩ => [(slot.name, slot.set (some value))]
  | ⟨_, none⟩ => []

/-- The draft after everything has been put into it. -/
def applyAll (start : Draft) (fillings : List (Filling Draft)) : Draft :=
  Effect.applyAll start (fillings.flatMap effects)

/-- The entries for a slot: one with the effect of what is put into it, or none. -/
def Holds (gives : Entry → Effect Draft → Prop) : Filling Draft → List Entry → Prop
  | ⟨slot, some value⟩, entries =>
    ∃ entry, entries = [entry] ∧ gives entry (slot.name, slot.set (some value))
  | ⟨_, none⟩, entries => entries = []

variable {gives : Entry → Effect Draft → Prop}

theorem forall₂_of_holds {fillings : List (Filling Draft)} {pieces : List (List Entry)}
    (hholds : List.Forall₂ (Holds gives) fillings pieces) :
    List.Forall₂ gives pieces.flatten (fillings.flatMap effects) := by
  induction hholds with
  | nil => exact .nil
  | @cons filling entries _ _ hfilling _ ih =>
      rw [List.flatten_cons, List.flatMap_cons]
      refine List.rel_append ?_ ih
      obtain ⟨slot, _ | value⟩ := filling
      · cases hfilling
        exact .nil
      · obtain ⟨entry, rfl, hentry⟩ := hfilling
        exact .cons hentry .nil

theorem name_of_mem_effects {filling : Filling Draft} {effect : Effect Draft}
    (hmem : effect ∈ filling.effects) : effect.1 = filling.1.name := by
  obtain ⟨slot, _ | value⟩ := filling
  · cases hmem
  · rw [List.mem_singleton.mp hmem]

/-- Where every slot is listed once, none is filled twice. -/
theorem unrepeated_effects {slots : Slots Draft} {fillings : List (Filling Draft)}
    (hslots : fillings.map (·.1) = slots.all) : slots.Unrepeated (fillings.flatMap effects) := by
  have hapart := slots.apart
  rw [← hslots, List.pairwise_map] at hapart
  refine List.pairwise_flatMap.mpr ⟨fun filling _ => ?_, hapart.imp ?_⟩
  · obtain ⟨slot, _ | value⟩ := filling
    · exact .nil
    · exact List.pairwise_singleton _ _
  · intro filling other hapart effect hmem effect' hmem' hname
    rw [name_of_mem_effects hmem, name_of_mem_effects hmem'] at hname
    exact absurd hname hapart.name_ne

end Filling

theorem DecorationDraft.finish_applyAll (kind : String) (enabled? : Option Bool)
    (parameters? : Option Parameters) :
    (Filling.applyAll {} [⟨kindSlot, some kind⟩, ⟨enabledSlot, enabled?⟩,
      ⟨parametersSlot, parameters?⟩]).finish =
      .ok ⟨kind, enabled?.getD false, parameters?.getD .empty⟩ := by
  cases enabled? <;> cases parameters? <;> rfl

theorem MountDraft.finish_applyAll (name model : String) (parent? : Option String)
    (xyz? rpy? : Option (Option Vector3)) (parameters? : Option Parameters) :
    (Filling.applyAll {} [⟨nameSlot, some name⟩, ⟨modelSlot, some model⟩, ⟨parentSlot, parent?⟩,
      ⟨xyzSlot, xyz?⟩, ⟨rpySlot, rpy?⟩, ⟨parametersSlot, parameters?⟩]).finish =
      .ok ⟨name, model, parent?.getD defaultParentLink, xyz?.getD none, rpy?.getD none,
        parameters?.getD .empty⟩ := by
  cases parent? <;> cases xyz? <;> cases rpy? <;> cases parameters? <;> rfl

theorem PlatformDraft.finish_applyAll (model : String)
    (decorations? : Option (List Decoration)) :
    (Filling.applyAll {} [⟨modelSlot, some model⟩, ⟨decorationsSlot, decorations?⟩]).finish =
      .ok ⟨model, decorations?.getD []⟩ := by
  cases decorations? <;> rfl

theorem ConfigDraft.finish_applyAll (serial : String) (platform : PlatformConfig)
    (mounts? : Option (List Mount)) :
    (Filling.applyAll {} [⟨serialSlot, some serial⟩, ⟨platformSlot, some platform⟩,
      ⟨mountsSlot, mounts?⟩]).finish = .ok ⟨serial, platform, mounts?.getD []⟩ := by
  cases mounts? <;> rfl

namespace Spelling

variable {spelling : Spelling} {Draft α β : Type} {gives : spelling.Entry → Effect Draft → Prop}

/-- An entry with the name of a slot puts what is written there into the slot. -/
def GivesSlot (gives : spelling.Entry → Effect Draft → Prop) (slot : Slot Draft)
    (writes : β → spelling.Source → Prop) (convert : β → slot.Value) : Prop :=
  ∀ entry source value, spelling.entry slot.name source entry → writes value source →
    gives entry (slot.name, slot.set (some (convert value)))

section Slot

variable {slot : Slot Draft} {writes : β → spelling.Source → Prop} {convert : β → slot.Value}
  (hgives : GivesSlot gives slot writes convert) {entries : List spelling.Entry}
include hgives

theorem GivesSlot.holds_of_has {value : β} (hhas : spelling.Has slot.name (writes value) entries) :
    Filling.Holds gives ⟨slot, some (convert value)⟩ entries := by
  obtain ⟨entry, source, rfl, hentry, hsource⟩ := hhas
  exact ⟨entry, rfl, hgives entry source value hentry hsource⟩

theorem GivesSlot.holds_of_mayHave {default value : β}
    (hhas : spelling.MayHave slot.name writes default value entries) :
    ∃ value?, Filling.Holds gives ⟨slot, value?⟩ entries ∧
      value?.getD (convert default) = convert value := by
  rcases hhas with hhas | ⟨rfl, rfl⟩
  · exact ⟨some (convert value), hgives.holds_of_has hhas, rfl⟩
  · exact ⟨none, rfl, rfl⟩

theorem GivesSlot.holds_of_hasIfSet {value? : Option β}
    (hhas : spelling.HasIfSet slot.name writes value? entries) :
    Filling.Holds gives ⟨slot, value?.map convert⟩ entries := by
  cases value? with
  | none => exact hhas
  | some value => exact hgives.holds_of_has hhas

end Slot

/-- The source is a map whose entries fill the slots of a draft, and the draft is finished as the
result. -/
def Fills (gives : spelling.Entry → Effect Draft → Prop) (slots : Slots Draft) (start : Draft)
    (finish : Draft → Except ReadError α) (source : spelling.Source) (result : α) : Prop :=
  ∃ fillings pieces, source = spelling.map pieces.flatten ∧ fillings.map (·.1) = slots.all ∧
    List.Forall₂ (Filling.Holds gives) fillings pieces ∧
    finish (Filling.applyAll start fillings) = .ok result

theorem fills_decoration {gives : spelling.Entry → Effect DecorationDraft → Prop}
    (hkind : GivesSlot gives DecorationDraft.kindSlot spelling.text id)
    (henabled : GivesSlot gives DecorationDraft.enabledSlot spelling.bool id)
    (hparameters : GivesSlot gives DecorationDraft.parametersSlot spelling.parameters
      Parameters.oneNaN)
    {item : Decoration} {source : spelling.Source} (hsource : spelling.decoration item source) :
    Fills gives DecorationDraft.slots {} DecorationDraft.finish source item.oneNaN := by
  obtain ⟨kind, enabled, parameters, rfl, hkind', henabled', hparameters'⟩ := hsource
  obtain ⟨enabled?, henabled', henabled⟩ := henabled.holds_of_mayHave henabled'
  obtain ⟨parameters?, hparameters', hparameters⟩ := hparameters.holds_of_mayHave hparameters'
  refine ⟨_, _, rfl, rfl, .cons (hkind.holds_of_has hkind') (.cons henabled' (.cons hparameters' .nil)),
    (DecorationDraft.finish_applyAll item.kind enabled? parameters?).trans ?_⟩
  exact congrArg₂ (fun enabled parameters => Except.ok (Decoration.mk item.kind enabled parameters))
    henabled hparameters

theorem fills_mount {gives : spelling.Entry → Effect MountDraft → Prop}
    (hname : GivesSlot gives MountDraft.nameSlot spelling.text id)
    (hmodel : GivesSlot gives MountDraft.modelSlot spelling.text id)
    (hparent : GivesSlot gives MountDraft.parentSlot spelling.text id)
    (hxyz : GivesSlot gives MountDraft.xyzSlot spelling.vector fun v => some v.oneNaN)
    (hrpy : GivesSlot gives MountDraft.rpySlot spelling.vector fun v => some v.oneNaN)
    (hparameters : GivesSlot gives MountDraft.parametersSlot spelling.parameters Parameters.oneNaN)
    {item : Mount} {source : spelling.Source} (hsource : spelling.mount item source) :
    Fills gives MountDraft.slots {} MountDraft.finish source item.oneNaN := by
  obtain ⟨name, model, parent, xyz, rpy, parameters, rfl, hname', hmodel', hparent', hxyz', hrpy',
    hparameters'⟩ := hsource
  obtain ⟨parent?, hparent', hparent⟩ := hparent.holds_of_mayHave hparent'
  obtain ⟨parameters?, hparameters', hparameters⟩ := hparameters.holds_of_mayHave hparameters'
  have hhalf : ∀ half : Option Vector3,
      (half.map fun v => some v.oneNaN).getD none = half.map Vector3.oneNaN := by
    intro half
    cases half <;> rfl
  have hfinish := MountDraft.finish_applyAll item.name item.model parent?
    (item.xyz.map fun v => some v.oneNaN) (item.rpy.map fun v => some v.oneNaN) parameters?
  rw [hhalf, hhalf] at hfinish
  refine ⟨_, _, rfl, rfl, .cons (hname.holds_of_has hname') (.cons (hmodel.holds_of_has hmodel')
    (.cons hparent' (.cons (hxyz.holds_of_hasIfSet hxyz') (.cons (hrpy.holds_of_hasIfSet hrpy')
      (.cons hparameters' .nil))))), hfinish.trans ?_⟩
  exact congrArg₂ (fun parent parameters => Except.ok (Mount.mk item.name item.model parent
    (item.xyz.map Vector3.oneNaN) (item.rpy.map Vector3.oneNaN) parameters)) hparent hparameters

theorem fills_platform {gives : spelling.Entry → Effect PlatformDraft → Prop}
    (hmodel : GivesSlot gives PlatformDraft.modelSlot spelling.text id)
    (hdecorations : GivesSlot gives PlatformDraft.decorationsSlot
      (spelling.items spelling.decoration) (List.map Decoration.oneNaN))
    {platform : PlatformConfig} {source : spelling.Source}
    (hsource : spelling.platform platform source) :
    Fills gives PlatformDraft.slots {} PlatformDraft.finish source platform.oneNaN := by
  obtain ⟨model, decorations, rfl, hmodel', hdecorations'⟩ := hsource
  obtain ⟨decorations?, hdecorations', hdecorations⟩ := hdecorations.holds_of_mayHave hdecorations'
  refine ⟨_, _, rfl, rfl, .cons (hmodel.holds_of_has hmodel') (.cons hdecorations' .nil),
    (PlatformDraft.finish_applyAll platform.model decorations?).trans ?_⟩
  exact congrArg (fun decorations => Except.ok (PlatformConfig.mk platform.model decorations))
    hdecorations

theorem fills_config {gives : spelling.Entry → Effect ConfigDraft → Prop}
    (hserial : GivesSlot gives ConfigDraft.serialSlot spelling.text id)
    (hplatform : GivesSlot gives ConfigDraft.platformSlot spelling.platform PlatformConfig.oneNaN)
    (hmounts : GivesSlot gives ConfigDraft.mountsSlot (spelling.items spelling.mount)
      (List.map Mount.oneNaN))
    {config : RobotConfig} {source : spelling.Source} (hsource : spelling.config config source) :
    Fills gives ConfigDraft.slots {} ConfigDraft.finish source config.oneNaN := by
  obtain ⟨serial, platform, mounts, rfl, hserial', hplatform', hmounts'⟩ := hsource
  obtain ⟨mounts?, hmounts', hmounts⟩ := hmounts.holds_of_mayHave hmounts'
  refine ⟨_, _, rfl, rfl, .cons (hserial.holds_of_has hserial')
    (.cons (hplatform.holds_of_has hplatform') (.cons hmounts' .nil)),
    (ConfigDraft.finish_applyAll config.serialNumber config.platform.oneNaN mounts?).trans ?_⟩
  exact congrArg (fun mounts => Except.ok (RobotConfig.mk config.serialNumber
    config.platform.oneNaN mounts)) hmounts

end Spelling

end RobotDescription
