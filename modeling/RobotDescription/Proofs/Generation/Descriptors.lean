import Mathlib.Data.List.Basic
import RobotDescription.Proofs.Generation.Layout

/-!
# The descriptors behind a layout

A layout refers to one entity after the other. What is in it is known as soon as the descriptors of
these entities are: apart from their inclusions and calls there are the common inclusion, comments
and blank lines.
-/

namespace RobotDescription

/-- The descriptors of what a description refers to, in its order. -/
def RobotConfig.descriptors (config : RobotConfig) (platform : PlatformModel) : List Descriptor :=
  platform.descriptor ::
    config.enabledDecorations.flatMap (fun item => (item.describe platform).toOption.toList) ++
    config.mounts.flatMap fun item => item.describe.toOption.toList

theorem RobotConfig.mem_descriptors {config : RobotConfig} {platform : PlatformModel}
    {descriptor : Descriptor} (hmem : descriptor ∈ config.descriptors platform) :
    descriptor = platform.descriptor ∨
      (∃ item ∈ config.enabledDecorations, item.describe platform = .ok descriptor) ∨
      ∃ item ∈ config.mounts, item.describe = .ok descriptor := by
  have hfound : ∀ result : Except GenerationError Descriptor,
      descriptor ∈ result.toOption.toList → result = .ok descriptor := by
    intro result hresult
    cases result with
    | error e => cases hresult
    | ok other => rw [List.mem_singleton.mp hresult]
  rcases List.mem_append.mp hmem with hmem | hmem
  · rcases List.mem_cons.mp hmem with rfl | hmem
    · exact .inl rfl
    · obtain ⟨item, hitem, hresult⟩ := List.mem_flatMap.mp hmem
      exact .inr (.inl ⟨item, hitem, hfound _ hresult⟩)
  · obtain ⟨item, hitem, hresult⟩ := List.mem_flatMap.mp hmem
    exact .inr (.inr ⟨item, hitem, hfound _ hresult⟩)

/-- The arguments of a call. -/
def Directive.arguments? : Directive → Option Arguments
  | .call _ arguments _ => some arguments
  | _ => none

namespace Layout

variable {config : RobotConfig} {platform : PlatformModel}

theorem mem_reference {descriptor : Descriptor} {nested : List Block} {directive : Directive}
    (hmem : directive ∈ reference descriptor nested) :
    directive = descriptor.inclusion ∨
      directive = .call descriptor.macroName descriptor.arguments nested := by
  rcases List.mem_cons.mp hmem with rfl | hmem
  · exact .inl rfl
  · exact .inr (List.mem_singleton.mp hmem)

/-- What holds of comments, blank lines, the common inclusion and every reference holds of the whole
layout. -/
theorem forall_mem_whole {property : Directive → Prop} (hblank : property .blank)
    (hcomment : ∀ text, property (.comment text))
    (hcommon : property (.inclusion "clearpath_platform_description" "common" "urdf/"))
    (hreference : ∀ descriptor ∈ config.descriptors platform,
      property descriptor.inclusion ∧
        ∀ nested, property (.call descriptor.macroName descriptor.arguments nested)) :
    ∀ directive ∈ whole config platform, property directive := by
  have hpart : ∀ descriptor ∈ config.descriptors platform, ∀ nested,
      ∀ directive ∈ reference descriptor nested, property directive := by
    intro descriptor hmem nested directive hdirective
    rcases mem_reference hdirective with rfl | rfl
    · exact (hreference descriptor hmem).1
    · exact (hreference descriptor hmem).2 nested
  have hdecoration : ∀ item ∈ config.enabledDecorations,
      ∀ directive ∈ decoration platform item, property directive := by
    intro item hitem
    unfold decoration
    split
    next descriptor hdescribe =>
      refine hpart descriptor (List.mem_append_left _ (List.mem_cons_of_mem _ ?_)) []
      exact List.mem_flatMap.mpr ⟨item, hitem, by simp [hdescribe, Except.toOption]⟩
    next => exact nofun
  have hmount : ∀ item ∈ config.mounts, ∀ directive ∈ mount item, property directive := by
    intro item hitem
    unfold mount
    split
    next descriptor hdescribe =>
      have hmem : descriptor ∈ config.descriptors platform := by
        refine List.mem_append_right _ (List.mem_flatMap.mpr ⟨item, hitem, ?_⟩)
        simp [hdescribe, Except.toOption]
      rw [List.forall_mem_append, List.forall_mem_cons, List.forall_mem_singleton]
      exact ⟨⟨hcomment item.name, hpart descriptor hmem _⟩, hblank⟩
    next => exact nofun
  have hplatform := hpart platform.descriptor (List.mem_append_left _ List.mem_cons_self) []
  have hheading : ∀ text, ∀ directive ∈ [Directive.blank, .comment text, .blank],
      property directive := by
    intro text
    simp [hblank, hcomment]
  have hopening : ∀ directive ∈ opening, property directive := by
    simp [opening, hcommon, hcomment]
  simp only [whole, beforeMounts, beforeDecorations, List.forall_mem_append,
    List.forall_mem_flatMap, List.forall_mem_singleton]
  exact ⟨⟨⟨⟨⟨⟨hopening, hplatform⟩, hheading _⟩, hdecoration⟩, hheading _⟩, hmount⟩, hblank⟩

/-- The calls of a layout have the arguments of the descriptors. -/
theorem arguments_whole (config : RobotConfig) (platform : PlatformModel) :
    (whole config platform).filterMap Directive.arguments? =
      (config.descriptors platform).map (·.arguments) := by
  have hreference : ∀ descriptor nested,
      (reference descriptor nested).filterMap Directive.arguments? = [descriptor.arguments] :=
    fun _ _ => rfl
  have hdecoration : ∀ item, (decoration platform item).filterMap Directive.arguments? =
      (item.describe platform).toOption.toList.map (·.arguments) := by
    intro item
    unfold decoration
    cases item.describe platform <;> rfl
  have hmount : ∀ item, (mount item).filterMap Directive.arguments? =
      item.describe.toOption.toList.map (·.arguments) := by
    intro item
    unfold mount
    cases item.describe <;> rfl
  simp only [whole, beforeMounts, beforeDecorations, opening, List.filterMap_append,
    List.filterMap_flatMap, hreference, hdecoration, hmount, RobotConfig.descriptors,
    List.map_append, List.map_cons, List.map_flatMap, List.filterMap_cons, List.filterMap_nil,
    Directive.arguments?, List.nil_append, List.append_nil, List.cons_append]

end Layout

end RobotDescription
