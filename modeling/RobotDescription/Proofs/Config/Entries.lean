import Mathlib.Data.List.Forall2
import RobotDescription.Proofs.Config.Rearranging

/-!
# The entry that counts

Of the entries of a map that stand under one name the last one counts. What is read of its value is
what the slot of the name holds in the end, or the parameter of the name.
-/

namespace RobotDescription

section Entries

variable {Key Value : Type} (nameOf? : Key → Option String) (name : String)

/-- The value of the last entry under a name. -/
def valueUnder? : List (Key × Value) → Option Value
  | [] => none
  | (key, value) :: rest =>
    (valueUnder? rest).or (if nameOf? key = some name then some value else none)

variable {nameOf?} {name}

theorem valueUnder?_eq_none_iff {entries : List (Key × Value)} :
    valueUnder? nameOf? name entries = none ↔ ∀ entry ∈ entries, nameOf? entry.1 ≠ some name := by
  induction entries with
  | nil => exact iff_of_true rfl (List.forall_mem_nil _)
  | cons entry rest ih =>
      rw [valueUnder?, Option.or_eq_none_iff, ih, List.forall_mem_cons, and_comm]
      simp

variable {Taken : Type} {reads : Key × Value → Taken → Prop} {takenName : Taken → String}

/-- Of what is read entry by entry, nothing stands under the name behind what is read of the last
entry there. -/
theorem exists_last_of_forall₂
    (hname : ∀ entry taken, reads entry taken → nameOf? entry.1 = some (takenName taken))
    {entries : List (Key × Value)} {taken : List Taken}
    (hall : List.Forall₂ reads entries taken) {value : Value}
    (hvalue : valueUnder? nameOf? name entries = some value) :
    ∃ key last before after, taken = before ++ last :: after ∧ reads (key, value) last ∧
      takenName last = name ∧ ∀ other ∈ after, takenName other ≠ name := by
  induction hall with
  | nil => cases hvalue
  | @cons entry first rest others hentry hrest ih =>
      rw [valueUnder?] at hvalue
      -- an entry counts only if none behind it has its name
      cases hfound : valueUnder? nameOf? name rest with
      | some found =>
          rw [hfound, Option.some_or] at hvalue
          obtain ⟨key, last, before, after, rfl, hlast, hsame, hafter⟩ := ih (hfound.trans hvalue)
          exact ⟨key, last, first :: before, after, rfl, hlast, hsame, hafter⟩
      | none =>
          rw [hfound, Option.none_or, Option.ite_none_right_eq_some] at hvalue
          obtain ⟨hkey, ⟨⟩⟩ := hvalue
          rw [hname entry first hentry, Option.some_inj] at hkey
          refine ⟨entry.1, first, [], others, rfl, hentry, hkey, fun other hmem hother => ?_⟩
          have hnames := map_eq_map_of_forall₂ hname hrest
          have hmem' : some name ∈ rest.map fun entry => nameOf? entry.1 := by
            rw [hnames, ← hother]
            exact List.mem_map_of_mem hmem
          obtain ⟨entry', hentry', hsame⟩ := List.mem_map.mp hmem'
          exact valueUnder?_eq_none_iff.mp hfound entry' hentry' hsame

end Entries

theorem exists_getElem?_of_forall₂ {α β : Type} {related : α → β → Prop} {items : List α}
    {others : List β} (hall : List.Forall₂ related items others) {index : Nat} {item : α}
    (hitem : items[index]? = some item) : ∃ other, others[index]? = some other ∧ related item other := by
  induction hall generalizing index with
  | nil => cases hitem
  | cons hfirst _ ih =>
      cases index with
      | zero =>
          cases hitem
          exact ⟨_, rfl, hfirst⟩
      | succ index => exact ih hitem

theorem Slots.get_applyAll_of_last {Draft : Type} {slots : Slots Draft}
    {before after : List (Effect Draft)} (hafter : ∀ effect ∈ after, slots.IsEffect effect)
    {slot : Slot Draft} (hslot : slot ∈ slots.all) (hothers : ∀ effect ∈ after, effect.1 ≠ slot.name)
    (value : slot.Value) (start : Draft) :
    slot.get (Effect.applyAll start (before ++ (slot.name, slot.set (some value)) :: after)) =
      some value := by
  rw [Effect.applyAll, List.foldl_append, List.foldl_cons]
  exact (get_applyAll_of_not_mem hafter hslot hothers _).trans (slot.get_set _ _)

theorem Parameters.get?_ofList_of_last (before : List (String × ParameterValue))
    {pair : String × ParameterValue} {after : List (String × ParameterValue)}
    (hothers : ∀ other ∈ after, other.1 ≠ pair.1) :
    (ofList (before ++ pair :: after)).get? pair.1 = some pair.2 := by
  have hnone : after.reverse.lookup pair.1 = none := by
    refine lookup_eq_none_of_not_mem fun hmem => ?_
    obtain ⟨other, hother, hsame⟩ := List.mem_map.mp hmem
    exact hothers other (List.mem_reverse.mp hother) hsame
  rw [get?_ofList, List.reverse_append, List.reverse_cons, List.append_assoc, List.lookup_append,
    hnone, List.singleton_append, lookup_cons_eq_ite, if_pos rfl]
  rfl

section Drafts

theorem DecorationDraft.parameters_of_finish {draft : DecorationDraft} {item : Decoration}
    (hfinish : draft.finish = .ok item) : item.parameters = draft.parameters.getD .empty := by
  obtain ⟨_ | kind, enabled, parameters⟩ := draft
  · cases hfinish
  · cases hfinish
    rfl

theorem MountDraft.parameters_of_finish {draft : MountDraft} {item : Mount}
    (hfinish : draft.finish = .ok item) : item.parameters = draft.parameters.getD .empty := by
  obtain ⟨_ | name, _ | model, parent, xyz, rpy, parameters⟩ := draft
  · cases hfinish
  · cases hfinish
  · cases hfinish
  · cases hfinish
    rfl

theorem PlatformDraft.decorations_of_finish {draft : PlatformDraft} {platform : PlatformConfig}
    (hfinish : draft.finish = .ok platform) : platform.decorations = draft.decorations.getD [] := by
  obtain ⟨_ | model, decorations⟩ := draft
  · cases hfinish
  · cases hfinish
    rfl

theorem ConfigDraft.parts_of_finish {draft : ConfigDraft} {config : RobotConfig}
    (hfinish : draft.finish = .ok config) :
    draft.platform = some config.platform ∧ config.mounts = draft.mounts.getD [] := by
  obtain ⟨_ | serial, _ | platform, mounts⟩ := draft
  · cases hfinish
  · cases hfinish
  · cases hfinish
  · cases hfinish
    exact ⟨rfl, rfl⟩

end Drafts

/-- What has parameters: a decoration or a mount, by its place among those of its kind. -/
inductive Bearer where
  | decoration (index : Nat)
  | mount (index : Nat)

def RobotConfig.parametersOf? (config : RobotConfig) : Bearer → Option Parameters
  | .decoration index => config.platform.decorations[index]?.map (·.parameters)
  | .mount index => config.mounts[index]?.map (·.parameters)

end RobotDescription
