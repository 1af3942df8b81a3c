import Mathlib.Data.List.Pairwise
import Mathlib.Data.List.Perm.Basic
import RobotDescription.Config.Draft

/-!
# Slots of drafts

The fields of a part of a configuration fill slots of its draft that do not touch each other. So
what a draft becomes depends on the fields that are met, and not on their order or on anything else
that is met between them.
-/

namespace RobotDescription

/-- A place in a draft, with the name of the field that fills it. -/
structure Slot (Draft : Type) where
  Value : Type
  name : String
  get : Draft → Option Value
  set : Option Value → Draft → Draft
  get_set : ∀ value draft, get (set value draft) = value

/-- Neither slot is touched where the other is filled. -/
structure Slot.Apart {Draft : Type} (slot other : Slot Draft) : Prop where
  name_ne : slot.name ≠ other.name
  get_set : ∀ value draft, slot.get (other.set value draft) = slot.get draft
  get_set' : ∀ value draft, other.get (slot.set value draft) = other.get draft
  set_comm : ∀ value value' draft,
    slot.set value (other.set value' draft) = other.set value' (slot.set value draft)

instance Slot.apartSymm {Draft : Type} : Std.Symm (@Slot.Apart Draft) where
  symm _ _ hapart := ⟨hapart.name_ne.symm, hapart.get_set', hapart.get_set,
    fun value value' draft => (hapart.set_comm value' value draft).symm⟩

/-- The slots of a draft. -/
structure Slots (Draft : Type) where
  all : List (Slot Draft)
  apart : all.Pairwise Slot.Apart

/-- What an entry does to a draft, with the name under which it stands. -/
abbrev Effect (Draft : Type) := String × (Draft → Draft)

/-- The draft after one effect and another. -/
def Effect.applyAll {Draft : Type} (start : Draft) (effects : List (Effect Draft)) : Draft :=
  effects.foldl (fun draft effect => effect.2 draft) start

namespace Slots

variable {Draft : Type} (slots : Slots Draft)

/-- Some slot has this name. -/
def knows (name : String) : Bool :=
  slots.all.any (·.name == name)

/-- An entry fills the slot of its name; under any other name it does nothing. -/
inductive IsEffect : Effect Draft → Prop
  | fills (slot : Slot Draft) (hslot : slot ∈ slots.all) (value : slot.Value) :
      IsEffect (slot.name, slot.set (some value))
  | ignored (name : String) (hname : slots.knows name = false) : IsEffect (name, id)

/-- Every effect fills a slot that is still empty, or none. -/
def Admits : Draft → List (Effect Draft) → Prop
  | _, [] => True
  | draft, effect :: rest =>
    (∀ slot ∈ slots.all, slot.name = effect.1 → slot.get draft = none) ∧
      Admits (effect.2 draft) rest

/-- The two do not fill the same slot. -/
def FillApart (effect other : Effect Draft) : Prop :=
  effect.1 = other.1 → slots.knows effect.1 = false

instance fillApartSymm : Std.Symm slots.FillApart where
  symm _ _ hapart hname := hname ▸ hapart hname.symm

/-- No slot is filled twice. -/
def Unrepeated (effects : List (Effect Draft)) : Prop :=
  effects.Pairwise slots.FillApart

variable {slots}

theorem knows_eq_true_iff {name : String} :
    slots.knows name = true ↔ ∃ slot ∈ slots.all, slot.name = name := by
  simp [knows, List.any_eq_true]

theorem eq_or_apart {slot other : Slot Draft} (hslot : slot ∈ slots.all)
    (hother : other ∈ slots.all) : slot = other ∨ slot.Apart other := by
  by_cases hsame : slot = other
  · exact .inl hsame
  · exact .inr (slots.apart.forall hslot hother hsame)

theorem eq_of_name_eq {slot other : Slot Draft} (hslot : slot ∈ slots.all)
    (hother : other ∈ slots.all) (hname : slot.name = other.name) : slot = other :=
  (eq_or_apart hslot hother).resolve_right fun hapart => hapart.name_ne hname

theorem IsEffect.eq_id {effect : Effect Draft} (heffect : slots.IsEffect effect)
    (hunknown : slots.knows effect.1 = false) : effect.2 = id := by
  cases heffect with
  | fills slot hslot value =>
      rw [knows_eq_true_iff.mpr ⟨slot, hslot, rfl⟩] at hunknown
      cases hunknown
  | ignored => rfl

theorem IsEffect.comm {effect other : Effect Draft} (heffect : slots.IsEffect effect)
    (hother : slots.IsEffect other) (hname : effect.1 ≠ other.1) (draft : Draft) :
    effect.2 (other.2 draft) = other.2 (effect.2 draft) := by
  cases heffect with
  | ignored => rfl
  | fills slot hslot value =>
      cases hother with
      | ignored => rfl
      | fills slot' hslot' value' =>
          rcases eq_or_apart hslot hslot' with rfl | hapart
          · exact absurd rfl hname
          · exact hapart.set_comm _ _ draft

/-- An effect under another name leaves a slot as it is. -/
theorem IsEffect.get_eq {effect : Effect Draft} (heffect : slots.IsEffect effect)
    {slot : Slot Draft} (hslot : slot ∈ slots.all) (hname : effect.1 ≠ slot.name)
    (draft : Draft) : slot.get (effect.2 draft) = slot.get draft := by
  cases heffect with
  | ignored => rfl
  | fills other hother value =>
      rcases eq_or_apart hslot hother with rfl | hapart
      · exact absurd rfl hname
      · exact hapart.get_set _ draft

variable {effects : List (Effect Draft)} (heffects : ∀ effect ∈ effects, slots.IsEffect effect)
include heffects

theorem get_applyAll_of_not_mem {slot : Slot Draft} (hslot : slot ∈ slots.all)
    (hnone : ∀ effect ∈ effects, effect.1 ≠ slot.name) (start : Draft) :
    slot.get (Effect.applyAll start effects) = slot.get start := by
  induction effects generalizing start with
  | nil => rfl
  | cons effect rest ih =>
      obtain ⟨hfirst, hrest⟩ := List.forall_mem_cons.mp heffects
      obtain ⟨hname, hnone⟩ := List.forall_mem_cons.mp hnone
      exact (ih hrest hnone _).trans (hfirst.get_eq hslot hname start)

/-- Slots are filled once exactly if no slot is filled twice and all that are filled are empty at
the start. -/
theorem admits_iff {start : Draft} : slots.Admits start effects ↔
    slots.Unrepeated effects ∧
      ∀ effect ∈ effects, ∀ slot ∈ slots.all, slot.name = effect.1 → slot.get start = none := by
  induction effects generalizing start with
  | nil => exact iff_of_true trivial ⟨.nil, List.forall_mem_nil _⟩
  | cons effect rest ih =>
      obtain ⟨hfirst, hrest⟩ := List.forall_mem_cons.mp heffects
      rw [Admits, ih hrest, List.forall_mem_cons, Unrepeated, Unrepeated, List.pairwise_cons]
      constructor
      · rintro ⟨hempty, hunrepeated, hothers⟩
        refine ⟨⟨fun other hother hname => ?_, hunrepeated⟩, hempty,
          fun other hother slot hslot hname => ?_⟩
        · cases hfirst with
          | ignored name hunknown => exact hunknown
          | fills slot hslot value =>
              have hfilled := hothers other hother slot hslot hname
              rw [slot.get_set] at hfilled
              cases hfilled
        · by_cases hsame : effect.1 = slot.name
          · exact hempty slot hslot hsame.symm
          · exact (hfirst.get_eq hslot hsame start).symm.trans (hothers other hother slot hslot hname)
      · rintro ⟨⟨honce, hunrepeated⟩, hempty, hothers⟩
        -- the first effect fills no slot of a later one, which is then as empty as at the start
        refine ⟨hempty, hunrepeated, fun other hother slot hslot hname => ?_⟩
        have hsame : effect.1 ≠ slot.name := by
          intro hsame
          have hunknown := honce other hother (hsame.trans hname)
          rw [knows_eq_true_iff.mpr ⟨slot, hslot, hsame.symm⟩] at hunknown
          cases hunknown
        exact (hfirst.get_eq hslot hsame start).trans (hothers other hother slot hslot hname)

/-- Effects under names without a slot do not count. -/
theorem applyAll_eq_self (hunknown : ∀ effect ∈ effects, slots.knows effect.1 = false)
    (start : Draft) : Effect.applyAll start effects = start := by
  induction effects generalizing start with
  | nil => rfl
  | cons effect rest ih =>
      obtain ⟨hfirst, hrest⟩ := List.forall_mem_cons.mp heffects
      obtain ⟨hname, hunknown⟩ := List.forall_mem_cons.mp hunknown
      change Effect.applyAll (effect.2 start) rest = start
      rw [hfirst.eq_id hname]
      exact ih hrest hunknown start

/-- Where no slot is filled twice, the order of the effects does not count. -/
theorem applyAll_eq_of_perm (hunrepeated : slots.Unrepeated effects)
    {effects' : List (Effect Draft)} (hperm : effects.Perm effects') (start : Draft) :
    Effect.applyAll start effects = Effect.applyAll start effects' := by
  refine hperm.foldl_eq' (fun effect hmem other hmem' draft => ?_) start
  by_cases hsame : effect = other
  · rw [hsame]
  by_cases hname : effect.1 = other.1
  · have hunknown := List.Pairwise.forall hunrepeated hmem hmem' hsame hname
    rw [(heffects effect hmem).eq_id hunknown, (heffects other hmem').eq_id (hname ▸ hunknown)]
  · exact (heffects other hmem').comm (heffects effect hmem) (Ne.symm hname) draft

end Slots

/-- A slot and the way in which its field is read. -/
structure Field (m : Type → Type) (Source Draft : Type) extends Slot Draft where
  read : Source → m Value

/-- The fields for the slots of a draft. -/
structure Fields (m : Type → Type) (Source : Type) {Draft : Type} (slots : Slots Draft) where
  all : List (Field m Source Draft)
  map_toSlot : all.map (·.toSlot) = slots.all

namespace Fields

variable {m : Type → Type} {Source Draft : Type} {slots : Slots Draft}
  (fields : Fields m Source slots)

def find? (name : String) : Option (Field m Source Draft) :=
  fields.all.find? (·.name == name)

variable {fields}

theorem of_find? {name : String} {field : Field m Source Draft}
    (hfound : fields.find? name = some field) : field.toSlot ∈ slots.all ∧ field.name = name := by
  refine ⟨?_, by simpa using List.find?_some hfound⟩
  rw [← fields.map_toSlot]
  exact List.mem_map_of_mem (List.mem_of_find?_eq_some hfound)

theorem knows_eq_false_iff {name : String} :
    slots.knows name = false ↔ fields.find? name = none := by
  rw [Slots.knows, ← fields.map_toSlot, List.any_map, List.any_eq_false, find?,
    List.find?_eq_none]
  rfl

end Fields

namespace DecorationDraft

def kindSlot : Slot DecorationDraft where
  Value := String
  name := "type"
  get := (·.kind)
  set value draft := { draft with kind := value }
  get_set _ _ := rfl

def enabledSlot : Slot DecorationDraft where
  Value := Bool
  name := "enabled"
  get := (·.enabled)
  set value draft := { draft with enabled := value }
  get_set _ _ := rfl

def parametersSlot : Slot DecorationDraft where
  Value := Parameters
  name := "parameters"
  get := (·.parameters)
  set value draft := { draft with parameters := value }
  get_set _ _ := rfl

theorem apart_slots : List.Pairwise Slot.Apart
    [kindSlot, enabledSlot, parametersSlot] := by
  simp only [List.pairwise_cons, List.forall_mem_cons]
  refine ⟨⟨?_, ?_, nofun⟩, ⟨?_, nofun⟩, nofun, .nil⟩ <;>
    exact ⟨by decide, fun _ _ => rfl, fun _ _ => rfl, fun _ _ _ => rfl⟩

def slots : Slots DecorationDraft where
  all := [kindSlot, enabledSlot, parametersSlot]
  apart := apart_slots

theorem get_new : ∀ slot ∈ slots.all, slot.get {} = none := by
  simp only [slots, List.forall_mem_cons]
  exact ⟨rfl, rfl, rfl, List.forall_mem_nil _⟩

theorem knows_eq_false_iff {name : String} : slots.knows name = false ↔
    name ≠ "type" ∧ name ≠ "enabled" ∧ name ≠ "parameters" := by
  simp [Slots.knows, slots, kindSlot, enabledSlot, parametersSlot, @eq_comm _ name]

end DecorationDraft

namespace MountDraft

def nameSlot : Slot MountDraft where
  Value := String
  name := "name"
  get := (·.name)
  set value draft := { draft with name := value }
  get_set _ _ := rfl

def modelSlot : Slot MountDraft where
  Value := String
  name := "model"
  get := (·.model)
  set value draft := { draft with model := value }
  get_set _ _ := rfl

def parentSlot : Slot MountDraft where
  Value := String
  name := "parent"
  get := (·.parent)
  set value draft := { draft with parent := value }
  get_set _ _ := rfl

def xyzSlot : Slot MountDraft where
  Value := Option Vector3
  name := "xyz"
  get := (·.xyz)
  set value draft := { draft with xyz := value }
  get_set _ _ := rfl

def rpySlot : Slot MountDraft where
  Value := Option Vector3
  name := "rpy"
  get := (·.rpy)
  set value draft := { draft with rpy := value }
  get_set _ _ := rfl

def parametersSlot : Slot MountDraft where
  Value := Parameters
  name := "parameters"
  get := (·.parameters)
  set value draft := { draft with parameters := value }
  get_set _ _ := rfl

theorem apart_slots : List.Pairwise Slot.Apart
    [nameSlot, modelSlot, parentSlot, xyzSlot, rpySlot, parametersSlot] := by
  simp only [List.pairwise_cons, List.forall_mem_cons]
  refine ⟨⟨?_, ?_, ?_, ?_, ?_, nofun⟩, ⟨?_, ?_, ?_, ?_, nofun⟩, ⟨?_, ?_, ?_, nofun⟩,
    ⟨?_, ?_, nofun⟩, ⟨?_, nofun⟩, nofun, .nil⟩ <;>
    exact ⟨by decide, fun _ _ => rfl, fun _ _ => rfl, fun _ _ _ => rfl⟩

def slots : Slots MountDraft where
  all := [nameSlot, modelSlot, parentSlot, xyzSlot, rpySlot, parametersSlot]
  apart := apart_slots

theorem get_new : ∀ slot ∈ slots.all, slot.get {} = none := by
  simp only [slots, List.forall_mem_cons]
  exact ⟨rfl, rfl, rfl, rfl, rfl, rfl, List.forall_mem_nil _⟩

theorem knows_eq_false_iff {name : String} : slots.knows name = false ↔
    name ≠ "name" ∧ name ≠ "model" ∧ name ≠ "parent" ∧ name ≠ "xyz" ∧ name ≠ "rpy" ∧
      name ≠ "parameters" := by
  simp [Slots.knows, slots, nameSlot, modelSlot, parentSlot, xyzSlot, rpySlot, parametersSlot,
    @eq_comm _ name]

end MountDraft

namespace PlatformDraft

def modelSlot : Slot PlatformDraft where
  Value := String
  name := "model"
  get := (·.model)
  set value draft := { draft with model := value }
  get_set _ _ := rfl

def decorationsSlot : Slot PlatformDraft where
  Value := List Decoration
  name := "decorations"
  get := (·.decorations)
  set value draft := { draft with decorations := value }
  get_set _ _ := rfl

theorem apart_slots : List.Pairwise Slot.Apart
    [modelSlot, decorationsSlot] := by
  simp only [List.pairwise_cons, List.forall_mem_cons]
  refine ⟨⟨?_, nofun⟩, nofun, .nil⟩
  exact ⟨by decide, fun _ _ => rfl, fun _ _ => rfl, fun _ _ _ => rfl⟩

def slots : Slots PlatformDraft where
  all := [modelSlot, decorationsSlot]
  apart := apart_slots

theorem get_new : ∀ slot ∈ slots.all, slot.get {} = none := by
  simp only [slots, List.forall_mem_cons]
  exact ⟨rfl, rfl, List.forall_mem_nil _⟩

theorem knows_eq_false_iff {name : String} : slots.knows name = false ↔
    name ≠ "model" ∧ name ≠ "decorations" := by
  simp [Slots.knows, slots, modelSlot, decorationsSlot, @eq_comm _ name]

end PlatformDraft

namespace ConfigDraft

def serialSlot : Slot ConfigDraft where
  Value := String
  name := "serial_number"
  get := (·.serialNumber)
  set value draft := { draft with serialNumber := value }
  get_set _ _ := rfl

def platformSlot : Slot ConfigDraft where
  Value := PlatformConfig
  name := "platform"
  get := (·.platform)
  set value draft := { draft with platform := value }
  get_set _ _ := rfl

def mountsSlot : Slot ConfigDraft where
  Value := List Mount
  name := "mounts"
  get := (·.mounts)
  set value draft := { draft with mounts := value }
  get_set _ _ := rfl

theorem apart_slots : List.Pairwise Slot.Apart
    [serialSlot, platformSlot, mountsSlot] := by
  simp only [List.pairwise_cons, List.forall_mem_cons]
  refine ⟨⟨?_, ?_, nofun⟩, ⟨?_, nofun⟩, nofun, .nil⟩ <;>
    exact ⟨by decide, fun _ _ => rfl, fun _ _ => rfl, fun _ _ _ => rfl⟩

def slots : Slots ConfigDraft where
  all := [serialSlot, platformSlot, mountsSlot]
  apart := apart_slots

theorem get_new : ∀ slot ∈ slots.all, slot.get {} = none := by
  simp only [slots, List.forall_mem_cons]
  exact ⟨rfl, rfl, rfl, List.forall_mem_nil _⟩

theorem knows_eq_false_iff {name : String} : slots.knows name = false ↔
    name ≠ "serial_number" ∧ name ≠ "platform" ∧ name ≠ "mounts" := by
  simp [Slots.knows, slots, serialSlot, platformSlot, mountsSlot, @eq_comm _ name]

end ConfigDraft

end RobotDescription
