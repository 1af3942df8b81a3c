import Mathlib.Data.List.Nodup
import RobotDescription.Proofs.Generation.Resolution

/-!
# Looking up identifiers

Looking an identifier up and asking an entry for its identifier go through a table in different ways,
by the identifiers in its rows and by the numbers of its entries. Where every row stands at the
number of its entry, and no identifier stands in two rows, the two are inverse to each other. What
resolves is then what the registries name: the decorations that have a placement on a platform, and
the models of mounts.
-/

namespace RobotDescription

namespace Table

variable {ε ρ : Type} {table : Table ε ρ}

/-- The rows stand in the order of the numbers of their entries, under distinct identifiers. -/
structure IsSound (table : Table ε ρ) : Prop where
  row_entry : ∀ row ∈ table.rows, table.row (table.entry row) = row
  entry_row : ∀ entry, table.entry (table.row entry) = entry
  nodup_ids : (table.rows.map table.id).Nodup

theorem row_mem (entry : ε) : table.row entry ∈ table.rows :=
  List.getElem_mem _

namespace IsSound

variable (hsound : table.IsSound)
include hsound

theorem mem_entries (entry : ε) : entry ∈ table.entries :=
  List.mem_map.mpr ⟨table.row entry, row_mem entry, hsound.entry_row entry⟩

theorem find?_eq_some_iff {name : String} {row : ρ} :
    table.rows.find? (table.id · = name) = some row ↔ row ∈ table.rows ∧ table.id row = name := by
  have hname : ∀ other, table.rows.find? (table.id · = name) = some other →
      table.id other = name := by
    intro other hfound
    simpa using List.find?_some hfound
  constructor
  · intro hfound
    exact ⟨List.mem_of_find?_eq_some hfound, hname row hfound⟩
  · rintro ⟨hmem, hrow⟩
    cases hfound : table.rows.find? (table.id · = name) with
    | none => exact absurd (decide_eq_true hrow) (List.find?_eq_none.mp hfound row hmem)
    | some other =>
        have hother := List.mem_of_find?_eq_some hfound
        have hsame : table.id other = table.id row := (hname other hfound).trans hrow.symm
        rw [List.inj_on_of_nodup_map hsound.nodup_ids hother hmem hsame]

/-- The entry that is found is the one whose own row has the identifier. -/
theorem lookup?_eq_some_iff {name : String} {entry : ε} :
    table.lookup? name = some entry ↔ table.id (table.row entry) = name := by
  rw [lookup?, Option.map_eq_some_iff]
  constructor
  · rintro ⟨row, hfound, rfl⟩
    obtain ⟨hmem, hname⟩ := hsound.find?_eq_some_iff.mp hfound
    rw [hsound.row_entry row hmem, hname]
  · intro hname
    exact ⟨table.row entry, hsound.find?_eq_some_iff.mpr ⟨row_mem entry, hname⟩,
      hsound.entry_row entry⟩

end IsSound

end Table

namespace PlatformModel

theorem isSound_table : table.IsSound where
  row_entry := by decide
  entry_row platform := by cases platform <;> rfl
  nodup_ids := by decide

theorem mem_all (platform : PlatformModel) : platform ∈ all :=
  isSound_table.mem_entries platform

theorem lookup?_eq_some_iff {name : String} {platform : PlatformModel} :
    lookup? name = some platform ↔ platform.id = name :=
  isSound_table.lookup?_eq_some_iff

end PlatformModel

namespace DecorationKind

theorem isSound_table : table.IsSound where
  row_entry := by decide
  entry_row kind := by cases kind <;> rfl
  nodup_ids := by decide

theorem lookup?_eq_some_iff {name : String} {kind : DecorationKind} :
    lookup? name = some kind ↔ kind.id = name :=
  isSound_table.lookup?_eq_some_iff

/-- A kind is listed for a platform exactly if the search for both finds a placement. -/
theorem mem_supportedOn {platform : PlatformModel} {kind : DecorationKind} :
    kind ∈ supportedOn platform ↔ ∃ defaults, defaults? platform kind = some defaults := by
  simp only [supportedOn, defaults?, List.mem_map, List.mem_filter, decide_eq_true_eq]
  constructor
  · rintro ⟨placement, ⟨hmem, hplatform⟩, hkind⟩
    have hfound : (placements.find? fun row =>
        row.platform = platform && row.kind = kind).isSome = true :=
      List.find?_isSome.mpr ⟨placement, hmem, by simp [hplatform, hkind]⟩
    obtain ⟨first, hfirst⟩ := Option.isSome_iff_exists.mp hfound
    exact ⟨first.parameters, by rw [hfirst, Option.map_some]⟩
  · rintro ⟨defaults, hdefaults⟩
    obtain ⟨first, hfirst, _⟩ := Option.map_eq_some_iff.mp hdefaults
    have hboth : first.platform = platform ∧ first.kind = kind := by
      simpa using List.find?_some hfirst
    exact ⟨first, ⟨List.mem_of_find?_eq_some hfirst, hboth.1⟩, hboth.2⟩

end DecorationKind

namespace MountModel

theorem isSound_table : table.IsSound where
  row_entry := by decide
  entry_row model := by cases model <;> rfl
  nodup_ids := by decide

theorem mem_all (model : MountModel) : model ∈ all :=
  isSound_table.mem_entries model

theorem lookup?_eq_some_iff {name : String} {model : MountModel} :
    lookup? name = some model ↔ model.id = name :=
  isSound_table.lookup?_eq_some_iff

end MountModel

/-- What can be fitted to a platform is what the registry lists for it. -/
theorem Decoration.fits_iff {item : Decoration} {platform : PlatformModel} :
    item.Fits platform ↔ ∃ kind ∈ DecorationKind.supportedOn platform, item.kind = kind.id := by
  simp only [Fits, DecorationKind.lookup?_eq_some_iff, DecorationKind.mem_supportedOn]
  constructor
  · rintro ⟨kind, defaults, hkind, hdefaults⟩
    exact ⟨kind, ⟨defaults, hdefaults⟩, hkind.symm⟩
  · rintro ⟨kind, ⟨defaults, hdefaults⟩, hkind⟩
    exact ⟨kind, defaults, hkind.symm, hdefaults⟩

theorem Mount.registered_iff {item : Mount} :
    item.Registered ↔ ∃ model ∈ MountModel.all, item.model = model.id := by
  simp only [Registered, MountModel.lookup?_eq_some_iff]
  constructor
  · rintro ⟨model, hmodel⟩
    exact ⟨model, model.mem_all, hmodel.symm⟩
  · rintro ⟨model, _, hmodel⟩
    exact ⟨model, hmodel.symm⟩

end RobotDescription
