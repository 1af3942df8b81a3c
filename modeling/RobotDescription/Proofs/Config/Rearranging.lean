import Mathlib.Data.List.Forall2
import RobotDescription.Proofs.Config.Parameters
import RobotDescription.Proofs.Config.Slots

/-!
# Entries in another order

An edit of a map puts its entries into another order and adds entries that nobody asks for. What is
read entry by entry is read again after such an edit, in that order and among what the new entries
give. For the fields of a part and for parameters this makes no difference.
-/

namespace RobotDescription

theorem map_eq_map_of_forall₂ {α β γ : Type} {related : α → β → Prop} {left : α → γ} {right : β → γ}
    (hrelated : ∀ item item', related item item' → left item = right item') {items : List α}
    {items' : List β} (hall : List.Forall₂ related items items') :
    items.map left = items'.map right := by
  induction hall with
  | nil => rfl
  | cons hitem _ ih => rw [List.map_cons, List.map_cons, ih, hrelated _ _ hitem]

section Rearranged

variable {α β γ : Type} {keeps : α → β → Prop} {fresh : β → Prop} {before : List α}
  {after : List β}

/-- After the edit stand the items from before it in any order, each as it is kept, and any fresh
items between them. -/
def Rearranged (keeps : α → β → Prop) (fresh : β → Prop) (before : List α) (after : List β) :
    Prop :=
  ∃ kept added, List.Forall₂ keeps before kept ∧ (∀ item ∈ added, fresh item) ∧
    after.Perm (kept ++ added)

variable {reads : α → γ → Prop} {reads' : β → γ → Prop} {idle : γ → Prop}

theorem forall₂_of_keeps
    (hkeeps : ∀ item item' taken, keeps item item' → reads item taken → reads' item' taken)
    {kept : List β} (hkept : List.Forall₂ keeps before kept) {taken : List γ}
    (htaken : List.Forall₂ reads before taken) : List.Forall₂ reads' kept taken := by
  induction hkept generalizing taken with
  | nil =>
      cases htaken
      exact .nil
  | cons hitem _ ih =>
      cases htaken with
      | cons hread htaken => exact .cons (hkeeps _ _ _ hitem hread) (ih htaken)

theorem exists_forall₂_of_fresh (hfresh : ∀ item, fresh item → ∃ taken, reads' item taken ∧ idle taken)
    {added : List β} (hadded : ∀ item ∈ added, fresh item) :
    ∃ taken, List.Forall₂ reads' added taken ∧ ∀ item ∈ taken, idle item := by
  induction added with
  | nil => exact ⟨[], .nil, nofun⟩
  | cons item rest ih =>
      obtain ⟨hitem, hrest⟩ := List.forall_mem_cons.mp hadded
      obtain ⟨first, hread, hidle⟩ := hfresh item hitem
      obtain ⟨others, hothers, hidles⟩ := ih hrest
      exact ⟨first :: others, .cons hread hothers, List.forall_mem_cons.mpr ⟨hidle, hidles⟩⟩

/-- What was read item by item is read after the edit too, and beside it only what the fresh items
give. -/
theorem Rearranged.exists_forall₂ (hedit : Rearranged keeps fresh before after)
    (hkeeps : ∀ item item' taken, keeps item item' → reads item taken → reads' item' taken)
    (hfresh : ∀ item, fresh item → ∃ taken, reads' item taken ∧ idle taken) {taken : List γ}
    (htaken : List.Forall₂ reads before taken) :
    ∃ taken' more, List.Forall₂ reads' after taken' ∧ taken'.Perm (taken ++ more) ∧
      ∀ item ∈ more, idle item := by
  obtain ⟨kept, added, hkept, hadded, hperm⟩ := hedit
  obtain ⟨more, hmore, hidle⟩ := exists_forall₂_of_fresh hfresh hadded
  have hall := List.rel_append (forall₂_of_keeps hkeeps hkept htaken) hmore
  obtain ⟨taken', htaken', hperm'⟩ := List.perm_comp_forall₂ hperm hall
  exact ⟨taken', more, htaken', hperm', hidle⟩

end Rearranged

namespace Slots

variable {Draft : Type} {slots : Slots Draft} {effects effects' more : List (Effect Draft)}
  (heffects' : ∀ effect ∈ effects', slots.IsEffect effect)
  (hperm : effects'.Perm (effects ++ more)) (hmore : ∀ effect ∈ more, slots.knows effect.1 = false)
include hperm hmore

theorem unrepeated_of_rearranged (hunrepeated : slots.Unrepeated effects) :
    slots.Unrepeated effects' := by
  refine (hperm.pairwise_iff fun hapart => slots.fillApartSymm.symm _ _ hapart).mpr ?_
  refine List.pairwise_append.mpr ⟨hunrepeated, ?_, fun effect _ other hother hname => ?_⟩
  · exact List.pairwise_of_forall_mem_list fun effect hmem _ _ _ => hmore effect hmem
  · exact hname ▸ hmore other hother

include heffects'

/-- Effects under names without a slot may stand anywhere between the others. -/
theorem applyAll_eq_of_rearranged (hunrepeated : slots.Unrepeated effects) (start : Draft) :
    Effect.applyAll start effects' = Effect.applyAll start effects := by
  have hunrepeated' := unrepeated_of_rearranged hperm hmore hunrepeated
  have hlast : ∀ effect ∈ more, slots.IsEffect effect :=
    fun effect hmem => heffects' effect (hperm.mem_iff.mpr (List.mem_append_right _ hmem))
  calc
    Effect.applyAll start effects' = Effect.applyAll start (effects ++ more) :=
      applyAll_eq_of_perm heffects' hunrepeated' hperm start
    _ = Effect.applyAll (Effect.applyAll start effects) more := List.foldl_append ..
    _ = Effect.applyAll start effects := applyAll_eq_self hlast hmore _

end Slots

end RobotDescription
