import RobotDescription.Generation.Plan

/-!
# Which entities resolve

Whether a decoration or a mount can be described depends on the registries alone. An entity that
resolves has a descriptor whose nested elements are known; one that does not is named by the error.
-/

namespace RobotDescription

/-- The registry has default arguments for the decoration on the platform. -/
def Decoration.Fits (decoration : Decoration) (platform : PlatformModel) : Prop :=
  ∃ kind defaults, DecorationKind.lookup? decoration.kind = some kind ∧
    DecorationKind.defaults? platform kind = some defaults

/-- Default arguments are those of some placement, so they have what all placements have. -/
theorem DecorationKind.of_defaults? (property : List (String × String) → Prop)
    (hplacements : ∀ placement ∈ placements, property placement.parameters)
    {platform : PlatformModel} {kind : DecorationKind} {defaults : List (String × String)}
    (hdefaults : defaults? platform kind = some defaults) : property defaults := by
  obtain ⟨placement, hfound, rfl⟩ := Option.map_eq_some_iff.mp hdefaults
  exact hplacements placement (List.mem_of_find?_eq_some hfound)

/-- The registry knows the model of the mount. -/
def Mount.Registered (mount : Mount) : Prop :=
  ∃ model, MountModel.lookup? mount.model = some model

namespace Decoration

variable {decoration : Decoration} {platform : PlatformModel}

/-- A decoration that fits is described, with nothing nested in its call. -/
theorem describe_of_fits (henabled : decoration.enabled = true)
    (hfits : decoration.Fits platform) :
    ∃ descriptor, decoration.describe platform = .ok descriptor ∧ descriptor.blocks = [] := by
  obtain ⟨kind, defaults, hkind, hdefaults⟩ := hfits
  simp [describe, henabled, hkind, hdefaults, Descriptor.blocks]

theorem describe_of_not_fits (henabled : decoration.enabled = true)
    (hfits : ¬ decoration.Fits platform) :
    decoration.describe platform =
      .error (.unsupported (.decoration platform.id decoration.kind)) := by
  cases hkind : DecorationKind.lookup? decoration.kind with
  | none => simp [describe, henabled, hkind]
  | some kind =>
      cases hdefaults : DecorationKind.defaults? platform kind with
      | none => simp [describe, henabled, hkind, hdefaults]
      | some defaults => exact absurd ⟨kind, defaults, hkind, hdefaults⟩ hfits

/-- A descriptor stands for the kind that the registry finds, with the defaults for the platform. -/
theorem exists_kind_of_describe {descriptor : Descriptor}
    (hdescribe : decoration.describe platform = .ok descriptor) :
    ∃ kind defaults, DecorationKind.defaults? platform kind = some defaults ∧
      descriptor.macroName = kind.id ∧
      descriptor.arguments = (Arguments.ofList defaults).overlay decoration.parameters := by
  unfold describe at hdescribe
  dsimp only at hdescribe
  split at hdescribe
  next => cases hdescribe
  next =>
    split at hdescribe
    next => cases hdescribe
    next kind _ =>
      split at hdescribe
      next => cases hdescribe
      next defaults hdefaults =>
        cases hdescribe
        exact ⟨kind, defaults, hdefaults, rfl, rfl⟩

/-- The template of a decoration is that of a kind, in the package of the platforms. -/
theorem exists_inclusion_of_describe {descriptor : Descriptor}
    (hdescribe : decoration.describe platform = .ok descriptor) :
    ∃ kind : DecorationKind,
      descriptor.inclusion = .inclusion platformPackage kind.template.file "urdf/decorations/" := by
  unfold describe at hdescribe
  dsimp only at hdescribe
  split at hdescribe
  next => cases hdescribe
  next =>
    split at hdescribe
    next => cases hdescribe
    next kind _ =>
      split at hdescribe
      next => cases hdescribe
      next =>
        cases hdescribe
        exact ⟨kind, rfl⟩

end Decoration

namespace Mount

variable {mount : Mount}

theorem describe_of_registered (hregistered : mount.Registered) :
    ∃ descriptor, mount.describe = .ok descriptor ∧
      descriptor.blocks = [.origin (.ofPose mount.xyz mount.rpy)] := by
  obtain ⟨model, hmodel⟩ := hregistered
  simp [describe, hmodel, Descriptor.blocks]

theorem describe_of_not_registered (hregistered : ¬ mount.Registered) :
    mount.describe = .error (.unsupported (.mountModel mount.name mount.model)) := by
  cases hmodel : MountModel.lookup? mount.model with
  | none => simp [describe, hmodel]
  | some model => exact absurd ⟨model, hmodel⟩ hregistered

theorem exists_model_of_describe {descriptor : Descriptor}
    (hdescribe : mount.describe = .ok descriptor) :
    ∃ model : MountModel, descriptor.macroName = model.id ∧
      descriptor.arguments =
        (Arguments.ofList (mount.baseArguments model)).overlay mount.parameters := by
  unfold describe at hdescribe
  split at hdescribe
  next => cases hdescribe
  next model _ =>
    cases hdescribe
    exact ⟨model, rfl, rfl⟩

/-- The template of a mount is that of a model, in the package of the mounts. -/
theorem exists_inclusion_of_describe {descriptor : Descriptor}
    (hdescribe : mount.describe = .ok descriptor) :
    ∃ model : MountModel, descriptor.inclusion = .inclusion mountsPackage model.id "urdf/" := by
  unfold describe at hdescribe
  split at hdescribe
  next => cases hdescribe
  next model _ =>
    have hpath : model.record.path = "urdf/" := by
      cases model <;> rfl
    cases hdescribe
    exact ⟨model, congrArg (Directive.inclusion mountsPackage model.id) hpath⟩

end Mount

theorem RobotConfig.enabled_of_mem {config : RobotConfig} {decoration : Decoration}
    (hmem : decoration ∈ config.enabledDecorations) : decoration.enabled = true :=
  (List.mem_filter.mp hmem).2

end RobotDescription
