import RobotDescription.Proofs.Config.Slots
import RobotDescription.Proofs.Yaml.Nodes

/-!
# Fields of YAML maps

Every part of a configuration is read from a map in the same way: an entry fills the slot of its
name, unless that is full, and entries under other names are passed over. So the part is determined
by the effects of its entries.
-/

namespace RobotDescription.Fields

open Yaml Yaml.Reading

variable {Draft : Type} {slots : Slots Draft} (fields : Fields Reading Node slots)
  {document : Yaml.Document}

/-- Reads one entry of a map, whose key is known, into a draft. -/
def enter (draft : Draft) (name : String) (node : Node) : Reading Draft := do
  match fields.find? name with
  | some field => return field.set (← once name (field.get draft) (field.read node)) draft
  | none =>
    skip node
    return draft

/-- What the value of an entry does to a draft, and how many aliases are followed for it. -/
inductive Gives (document : Yaml.Document) (name : String) (node : Node) :
    (Draft → Draft) → Nat → Prop
  | fills (field : Field Reading Node Draft) (hfound : fields.find? name = some field)
      (value : field.Value) (count : Nat) (hvalue : Takes document (field.read node) value count) :
      Gives document name node (field.set (some value)) count
  | ignored (hnone : fields.find? name = none) (hcomplete : node.isComplete = true) :
      Gives document name node id 0

/-- What an entry of a map does to a draft, under the name that its key stands for. -/
def EntryTakes (document : Yaml.Document) (entry : Node × Node) (taken : Effect Draft × Nat) : Prop :=
  ∃ count more, Takes document (text entry.1) taken.1.1 count ∧
    fields.Gives document taken.1.1 entry.2 taken.1.2 more ∧ taken.2 = count + more

variable {fields}

theorem Gives.isEffect {name : String} {node : Node} {effect : Draft → Draft} {count : Nat}
    (hgives : fields.Gives document name node effect count) : slots.IsEffect (name, effect) := by
  cases hgives with
  | fills field hfound value _ _ =>
      obtain ⟨hslot, rfl⟩ := of_find? hfound
      exact .fills field.toSlot hslot value
  | ignored hnone _ => exact .ignored name (knows_eq_false_iff.mpr hnone)

/-- The readings of the values are uniform. -/
def IsUniform (fields : Fields Reading Node slots) (document : Yaml.Document) : Prop :=
  ∀ field ∈ fields.all, ∀ node, Reading.IsUniform document (field.read node)

theorem uniform_once {α β : Type} (name : String) (earlier : Option α) {value : Reading β}
    (hvalue : Reading.IsUniform document value) :
    Reading.IsUniform document (once name earlier value) := by
  unfold once
  split
  next => exact uniform_throw _
  next => exact hvalue.bind fun _ => uniform_pure _

theorem takes_once_iff {α β : Type} {name : String} {earlier : Option α} {value : Reading β}
    (hvalue : Reading.IsUniform document value) {result : Option β} {count : Nat} :
    Takes document (once name earlier value) result count ↔
      earlier = none ∧ ∃ taken, Takes document value taken count ∧ result = some taken := by
  unfold once
  cases earlier with
  | some _ => simp
  | none =>
      rw [if_neg (by simp), takes_bind_pure_iff hvalue]
      exact (and_iff_right rfl).symm

theorem uniform_enter (huniform : fields.IsUniform document) (draft : Draft) (name : String)
    (node : Node) : Reading.IsUniform document (fields.enter draft name node) := by
  unfold enter
  split
  next field hfound =>
    have hfield := List.mem_of_find?_eq_some hfound
    exact (uniform_once name _ (huniform field hfield node)).bind fun _ => uniform_pure _
  next => exact (uniform_skip node).bind fun _ => uniform_pure draft

/-- An entry succeeds exactly if its slot is empty, and then has its effect. -/
theorem takes_enter_iff (huniform : fields.IsUniform document) {draft result : Draft}
    {name : String} {node : Node} {count : Nat} :
    Takes document (fields.enter draft name node) result count ↔
      ∃ effect, fields.Gives document name node effect count ∧
        (∀ slot ∈ slots.all, slot.name = name → slot.get draft = none) ∧ result = effect draft := by
  unfold enter
  cases hfound : fields.find? name with
  | none =>
      dsimp only
      rw [takes_bind_pure_iff (uniform_skip node)]
      constructor
      · rintro ⟨_, hskipped, rfl⟩
        obtain ⟨hcomplete, rfl⟩ := takes_skip_iff.mp hskipped
        refine ⟨id, .ignored hfound hcomplete, fun slot hslot hname => ?_, rfl⟩
        have hunknown := knows_eq_false_iff.mpr hfound
        rw [Slots.knows_eq_true_iff.mpr ⟨slot, hslot, hname⟩] at hunknown
        cases hunknown
      · rintro ⟨effect, hgives, _, rfl⟩
        cases hgives with
        | fills field hfound' value _ _ => cases hfound.symm.trans hfound'
        | ignored _ hcomplete =>
            exact ⟨(), takes_skip_iff.mpr ⟨hcomplete, rfl⟩, rfl⟩
  | some field =>
      obtain ⟨hslot, hname⟩ := of_find? hfound
      have hvalue := huniform field (List.mem_of_find?_eq_some hfound) node
      dsimp only
      rw [takes_bind_pure_iff (uniform_once name _ hvalue)]
      constructor
      · rintro ⟨_, hfilled, rfl⟩
        obtain ⟨hempty, value, hvalue, rfl⟩ := (takes_once_iff hvalue).mp hfilled
        refine ⟨field.set (some value), .fills field hfound value count hvalue,
          fun slot hslot' hname' => ?_, rfl⟩
        rw [Slots.eq_of_name_eq hslot' hslot (hname'.trans hname.symm)]
        exact hempty
      · rintro ⟨effect, hgives, hempty, rfl⟩
        cases hgives with
        | ignored hnone _ => cases hfound.symm.trans hnone
        | fills field' hfound' value _ htaken =>
            cases hfound.symm.trans hfound'
            refine ⟨some value, ?_, rfl⟩
            exact (takes_once_iff hvalue).mpr ⟨hempty field.toSlot hslot hname, value, htaken, rfl⟩

/-- Reads one entry of a map into a draft. -/
def step (fields : Fields Reading Node slots) (draft : Draft) (entry : Node × Node) : Reading Draft := do
  fields.enter draft (← text entry.1) entry.2

theorem uniform_step (huniform : fields.IsUniform document) (draft : Draft)
    (entry : Node × Node) : Reading.IsUniform document (fields.step draft entry) :=
  (picks_text.uniform entry.1).bind fun name => uniform_enter huniform draft name entry.2

theorem takes_step_iff (huniform : fields.IsUniform document) {draft result : Draft}
    {entry : Node × Node} {count : Nat} :
    Takes document (fields.step draft entry) result count ↔ count ≤ document.room ∧
      ∃ effect : Effect Draft, fields.EntryTakes document entry (effect, count) ∧
        (∀ slot ∈ slots.all, slot.name = effect.1 → slot.get draft = none) ∧
        result = effect.2 draft := by
  unfold step
  rw [takes_bind_iff (picks_text.uniform entry.1) fun name =>
    uniform_enter huniform draft name entry.2]
  refine and_congr_right fun hroom => ?_
  constructor
  · rintro ⟨name, first, second, hname, hrest, hcount⟩
    obtain ⟨effect, hgives, hempty, rfl⟩ := (takes_enter_iff huniform).mp hrest
    exact ⟨(name, effect), ⟨first, second, hname, hgives, hcount⟩, hempty, rfl⟩
  · rintro ⟨effect, ⟨first, second, hname, hgives, hcount⟩, hempty, rfl⟩
    exact ⟨effect.1, first, second, hname,
      (takes_enter_iff huniform).mpr ⟨effect.2, hgives, hempty, rfl⟩, hcount⟩

theorem uniform_foldlM (huniform : fields.IsUniform document) (all : List (Node × Node))
    (start : Draft) : Reading.IsUniform document (all.foldlM fields.step start) := by
  induction all generalizing start with
  | nil => exact uniform_pure start
  | cons entry rest ih =>
      rw [List.foldlM_cons]
      exact (uniform_step huniform start entry).bind ih

/-- Entries in a row are read exactly if each of them has an effect that is admitted. -/
theorem takes_foldlM_iff (huniform : fields.IsUniform document) {all : List (Node × Node)}
    {start result : Draft} {count : Nat} :
    Takes document (all.foldlM fields.step start) result count ↔ count ≤ document.room ∧
      ∃ taken, List.Forall₂ (fields.EntryTakes document) all taken ∧
        slots.Admits start (taken.map (·.1)) ∧
        result = Effect.applyAll start (taken.map (·.1)) ∧ count = total taken := by
  induction all generalizing start count with
  | nil =>
      rw [List.foldlM_nil, takes_pure_iff]
      constructor
      · rintro ⟨rfl, rfl⟩
        exact ⟨Nat.zero_le _, [], .nil, trivial, rfl, rfl⟩
      · rintro ⟨_, taken, ⟨⟩, _, hresult, hcount⟩
        exact ⟨hresult, hcount⟩
  | cons entry rest ih =>
      rw [List.foldlM_cons,
        takes_bind_iff (uniform_step huniform start entry) (uniform_foldlM huniform rest)]
      refine and_congr_right fun hroom => ?_
      constructor
      · rintro ⟨draft, first, second, hfirst, hrest, rfl⟩
        obtain ⟨_, effect, hentry, hempty, rfl⟩ := (takes_step_iff huniform).mp hfirst
        obtain ⟨_, taken, htaken, hadmits, rfl, rfl⟩ := ih.mp hrest
        exact ⟨(effect, first) :: taken, .cons hentry htaken, ⟨hempty, hadmits⟩, rfl, rfl⟩
      · rintro ⟨_, htaken, hadmits, rfl, rfl⟩
        obtain _ | ⟨hentry, htaken⟩ := htaken
        rename_i first taken
        obtain ⟨hempty, hadmits⟩ := hadmits
        rw [total] at hroom ⊢
        refine ⟨first.1.2 start, first.2, total taken, ?_, ?_, rfl⟩
        · exact (takes_step_iff huniform).mpr ⟨by omega, first.1, hentry, hempty, rfl⟩
        · exact ih.mpr ⟨by omega, taken, htaken, hadmits, rfl, rfl⟩

theorem isEffect_of_forall₂ {all : List (Node × Node)} {taken : List (Effect Draft × Nat)}
    (htaken : List.Forall₂ (fields.EntryTakes document) all taken) :
    ∀ effect ∈ taken.map (·.1), slots.IsEffect effect := by
  induction htaken with
  | nil => nofun
  | cons hentry _ ih =>
      obtain ⟨_, _, _, hgives, _⟩ := hentry
      rw [List.map_cons]
      exact List.forall_mem_cons.mpr ⟨hgives.isEffect, ih⟩

theorem uniform_fields (huniform : fields.IsUniform document) (start : Draft) (node : Node) :
    Reading.IsUniform document (Reading.fields fields.enter start node) :=
  (picks_entries.uniform node).bind fun all => uniform_foldlM huniform all start

/-- A map is read into an empty draft exactly if each of its entries has an effect and no slot is
filled twice. -/
theorem takes_fields_iff (huniform : fields.IsUniform document) {start : Draft}
    (hstart : ∀ slot ∈ slots.all, slot.get start = none) {node : Node} {result : Draft}
    {count : Nat} :
    Takes document (Reading.fields fields.enter start node) result count ↔
      count ≤ document.room ∧ ∃ all taken, (document.target node).entries? = some all ∧
        List.Forall₂ (fields.EntryTakes document) all taken ∧
        slots.Unrepeated (taken.map (·.1)) ∧
        result = Effect.applyAll start (taken.map (·.1)) ∧ count = node.hops + total taken := by
  change Takes document (entries node >>= fun all => all.foldlM fields.step start) _ _ ↔ _
  rw [picks_entries.takes_bind_iff fun all => uniform_foldlM huniform all start]
  refine and_congr_right fun hroom => ?_
  constructor
  · rintro ⟨all, more, hall, hrest, rfl⟩
    obtain ⟨_, taken, htaken, hadmits, rfl, rfl⟩ := (takes_foldlM_iff huniform).mp hrest
    rw [Slots.admits_iff (isEffect_of_forall₂ htaken)] at hadmits
    exact ⟨all, taken, hall, htaken, hadmits.1, rfl, rfl⟩
  · rintro ⟨all, taken, hall, htaken, hunrepeated, rfl, rfl⟩
    refine ⟨all, total taken, hall, ?_, rfl⟩
    refine (takes_foldlM_iff huniform).mpr ⟨by omega, taken, htaken, ?_, rfl, rfl⟩
    rw [Slots.admits_iff (isEffect_of_forall₂ htaken)]
    exact ⟨hunrepeated, fun _ _ slot hslot _ => hstart slot hslot⟩

end RobotDescription.Fields
