import RobotDescription.Proofs.Generation.Success
import RobotDescription.Proofs.Registry.Lookup
import RobotDescription.Proofs.Registry.Offers

/-!
# What can be generated

A generation succeeds exactly for the configurations that are made up of entries of the registries,
disabled decorations left aside. A user who reads the list of what is supported is told the same.
-/

namespace RobotDescription

namespace RobotConfig

variable {config : RobotConfig}

/-- The platform, the enabled decorations and the mounts of a configuration are all on offer. -/
def IsOffered (config : RobotConfig) (offers : List Listing.Offer) : Prop :=
  ∃ kinds, .platform config.platform.model kinds ∈ offers ∧
    (∀ item ∈ config.platform.decorations, item.enabled = true → item.kind ∈ kinds) ∧
    ∀ item ∈ config.mounts, .mount item.model ∈ offers

theorem mem_enabledDecorations {item : Decoration} :
    item ∈ config.enabledDecorations ↔
      item ∈ config.platform.decorations ∧ item.enabled = true :=
  List.mem_filter

theorem resolves_iff {platform : PlatformModel} :
    config.Resolves platform ↔ config.platform.model = platform.id ∧
      (∀ item ∈ config.platform.decorations, item.enabled = true →
        ∃ kind ∈ DecorationKind.supportedOn platform, item.kind = kind.id) ∧
      ∀ item ∈ config.mounts, ∃ model ∈ MountModel.all, item.model = model.id := by
  constructor
  · intro hresolves
    refine ⟨?_, fun item hmem henabled => ?_, fun item hmem => ?_⟩
    · exact (PlatformModel.lookup?_eq_some_iff.mp hresolves.platform_eq).symm
    · apply Decoration.fits_iff.mp
      exact hresolves.decorations item (mem_enabledDecorations.mpr ⟨hmem, henabled⟩)
    · exact Mount.registered_iff.mp (hresolves.mounts item hmem)
  · rintro ⟨hplatform, hdecorations, hmounts⟩
    refine ⟨PlatformModel.lookup?_eq_some_iff.mpr hplatform.symm, fun item hmem => ?_,
      fun item hmem => Mount.registered_iff.mpr (hmounts item hmem)⟩
    obtain ⟨hmem, henabled⟩ := mem_enabledDecorations.mp hmem
    exact Decoration.fits_iff.mpr (hdecorations item hmem henabled)

/-- The list offers a configuration exactly if one of the platforms resolves it. -/
theorem isOffered_iff :
    config.IsOffered (Listing.offers Listing.text) ↔ ∃ platform, config.Resolves platform := by
  simp only [IsOffered, Listing.platform_mem_offers, Listing.mount_mem_offers, resolves_iff]
  constructor
  · rintro ⟨kinds, ⟨platform, _, hplatform, rfl⟩, hdecorations, hmounts⟩
    refine ⟨platform, hplatform.symm, fun item hmem henabled => ?_, fun item hmem => ?_⟩
    · obtain ⟨kind, hkind, hsame⟩ := List.mem_map.mp (hdecorations item hmem henabled)
      exact ⟨kind, hkind, hsame.symm⟩
    · obtain ⟨model, hmodel, hsame⟩ := hmounts item hmem
      exact ⟨model, hmodel, hsame.symm⟩
  · rintro ⟨platform, hplatform, hdecorations, hmounts⟩
    refine ⟨_, ⟨platform, platform.mem_all, hplatform.symm, rfl⟩, fun item hmem henabled => ?_,
      fun item hmem => ?_⟩
    · obtain ⟨kind, hkind, hsame⟩ := hdecorations item hmem henabled
      exact List.mem_map.mpr ⟨kind, hkind, hsame.symm⟩
    · obtain ⟨model, hmodel, hsame⟩ := hmounts item hmem
      exact ⟨model, hmodel, hsame.symm⟩

end RobotConfig

theorem Document.exists_generate_empty_iff {config : RobotConfig} :
    (∃ summary, (generate config empty).result = .ok summary) ↔
      ∃ platform, config.Resolves platform := by
  constructor
  · rintro ⟨summary, hdone⟩
    obtain ⟨platform, hresolves, _⟩ := exists_resolves_of_generate hdone
    exact ⟨platform, hresolves⟩
  · rintro ⟨platform, hresolves⟩
    exact ⟨config.summary, (@generate_of_resolves empty config rfl platform hresolves).2⟩

/-- A configuration is generated exactly if its platform is in the registry, every enabled
decoration is of a kind that is supported on that platform, and every mount is of a model in the
registry; and that is exactly if the list of what is supported offers all of them. -/
theorem generate_succeeds_iff (config : RobotConfig) :
    ((∃ summary, (generate config Document.empty).result = .ok summary) ↔
      ∃ platform ∈ PlatformModel.all, config.platform.model = platform.id ∧
        (∀ item ∈ config.platform.decorations, item.enabled = true →
          ∃ kind ∈ DecorationKind.supportedOn platform, item.kind = kind.id) ∧
        ∀ item ∈ config.mounts, ∃ model ∈ MountModel.all, item.model = model.id) ∧
    ((∃ summary, (generate config Document.empty).result = .ok summary) ↔
      config.IsOffered (Listing.offers Listing.text)) := by
  rw [Document.exists_generate_empty_iff, RobotConfig.isOffered_iff]
  refine ⟨?_, Iff.rfl⟩
  simp only [RobotConfig.resolves_iff]
  constructor
  · rintro ⟨platform, hresolves⟩
    exact ⟨platform, platform.mem_all, hresolves⟩
  · rintro ⟨platform, _, hresolves⟩
    exact ⟨platform, hresolves⟩

end RobotDescription
