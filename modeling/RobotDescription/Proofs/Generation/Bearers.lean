import RobotDescription.Proofs.Config.Entries
import RobotDescription.Proofs.Generation.Layout
import RobotDescription.Proofs.Generation.Success

/-!
# Calls for what has parameters

Where a generation succeeds, the macro of every mount and of every decoration that is enabled is called,
and each configured parameter is an argument of this call.
-/

namespace RobotDescription

theorem Decoration.get?_describe {item : Decoration} {platform : PlatformModel}
    {descriptor : Descriptor} (hdescribe : item.describe platform = .ok descriptor) {name : String}
    {value : ParameterValue} (hvalue : item.parameters.get? name = some value) :
    descriptor.arguments.get? name = some value.toText := by
  obtain ⟨_, _, _, _, harguments⟩ := exists_kind_of_describe hdescribe
  rw [harguments, Arguments.get?_overlay, hvalue]
  rfl

theorem Mount.get?_describe {item : Mount} {descriptor : Descriptor}
    (hdescribe : item.describe = .ok descriptor) {name : String} {value : ParameterValue}
    (hvalue : item.parameters.get? name = some value) :
    descriptor.arguments.get? name = some value.toText := by
  obtain ⟨_, _, harguments⟩ := exists_model_of_describe hdescribe
  rw [harguments, Arguments.get?_overlay, hvalue]
  rfl

namespace Layout

variable {config : RobotConfig} {platform : PlatformModel} {descriptor : Descriptor}

theorem exists_call_of_decoration {item : Decoration} (hitem : item ∈ config.enabledDecorations)
    (hdescribe : item.describe platform = .ok descriptor) :
    ∃ nested, .call descriptor.macroName descriptor.arguments nested ∈ whole config platform := by
  refine ⟨[], ?_⟩
  have hpart : .call descriptor.macroName descriptor.arguments [] ∈ decoration platform item := by
    rw [decoration, hdescribe]
    exact List.mem_cons_of_mem _ List.mem_cons_self
  have hall := List.mem_flatMap.mpr ⟨item, hitem, hpart⟩
  simp only [whole, beforeMounts, List.mem_append]
  exact .inl (.inl (.inl (.inr hall)))

theorem exists_call_of_mount {item : Mount} (hitem : item ∈ config.mounts)
    (hdescribe : item.describe = .ok descriptor) :
    ∃ nested, .call descriptor.macroName descriptor.arguments nested ∈ whole config platform := by
  refine ⟨[.origin (.ofPose item.xyz item.rpy)], ?_⟩
  have hpart : .call descriptor.macroName descriptor.arguments [.origin (.ofPose item.xyz item.rpy)] ∈
      mount item := by
    rw [mount, hdescribe]
    exact List.mem_append_left _ (List.mem_cons_of_mem _ (List.mem_cons_of_mem _ List.mem_cons_self))
  have hall := List.mem_flatMap.mpr ⟨item, hitem, hpart⟩
  simp only [whole, List.mem_append]
  exact .inl (.inr hall)

end Layout

namespace RobotConfig

/-- A mount, or a decoration that is enabled. -/
def isCalled (config : RobotConfig) : Bearer → Bool
  | .decoration index => config.platform.decorations[index]?.any (·.enabled)
  | .mount index => config.mounts[index]?.isSome

/-- What a decoration or a mount is called by. -/
def descriptorOf? (config : RobotConfig) (platform : PlatformModel) : Bearer → Option Descriptor
  | .decoration index =>
    config.platform.decorations[index]?.bind fun item => (item.describe platform).toOption
  | .mount index => config.mounts[index]?.bind fun item => item.describe.toOption

/-- The call of a decoration or a mount has its parameters among its arguments. -/
theorem exists_call_of_generate {config : RobotConfig} {summary : Summary}
    (hdone : (generate config Document.empty).result = .ok summary) {bearer : Bearer}
    (hcalled : config.isCalled bearer = true) {held : Parameters}
    (hheld : config.parametersOf? bearer = some held) :
    ∃ platform descriptor nested, PlatformModel.lookup? config.platform.model = some platform ∧
      config.descriptorOf? platform bearer = some descriptor ∧
      .call descriptor.macroName descriptor.arguments nested ∈
        (generate config Document.empty).sink.directives ∧
      ∀ name value, held.get? name = some value →
        descriptor.arguments.get? name = some value.toText := by
  obtain ⟨platform, hresolves, _⟩ := Document.exists_resolves_of_generate hdone
  have hsink : (generate config Document.empty).sink.directives = Layout.whole config platform := by
    rw [(Document.generate_of_resolves rfl hresolves).1]
    rfl
  rw [hsink]
  cases bearer with
  | decoration index =>
      obtain ⟨item, hitem, henabled⟩ := (Option.any_eq_true _ _).mp hcalled
      have hmem : item ∈ config.enabledDecorations :=
        List.mem_filter.mpr ⟨List.mem_of_getElem? hitem, henabled⟩
      obtain ⟨descriptor, hdescribe, _⟩ :=
        Decoration.describe_of_fits henabled (hresolves.decorations item hmem)
      obtain ⟨nested, hcall⟩ := Layout.exists_call_of_decoration hmem hdescribe
      rw [parametersOf?, hitem] at hheld
      cases hheld
      refine ⟨platform, descriptor, nested, hresolves.platform_eq, ?_, hcall, fun _ _ =>
        Decoration.get?_describe hdescribe⟩
      rw [descriptorOf?, hitem, Option.bind_some, hdescribe]
      rfl
  | mount index =>
      obtain ⟨item, hitem⟩ := Option.isSome_iff_exists.mp hcalled
      have hmem : item ∈ config.mounts := List.mem_of_getElem? hitem
      obtain ⟨descriptor, hdescribe, _⟩ := Mount.describe_of_registered (hresolves.mounts item hmem)
      obtain ⟨nested, hcall⟩ := Layout.exists_call_of_mount hmem hdescribe
      rw [parametersOf?, hitem] at hheld
      cases hheld
      refine ⟨platform, descriptor, nested, hresolves.platform_eq, ?_, hcall, fun _ _ =>
        Mount.get?_describe hdescribe⟩
      rw [descriptorOf?, hitem, Option.bind_some, hdescribe]
      rfl

end RobotConfig

end RobotDescription
