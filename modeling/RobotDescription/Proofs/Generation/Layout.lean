import RobotDescription.Proofs.Generation.Resolution
import RobotDescription.Proofs.Generation.Stages

/-!
# The layout of a description

What a description consists of, written out as one list: the common macros, the platform, the
enabled decorations, the mounts, each part under its comment. A configuration whose entities all
resolve is planned as the whole layout; any other as the part before the first entity that does
not, together with the error that names it.
-/

namespace RobotDescription

namespace Layout

/-- The inclusion of an entity's template, immediately followed by the call of its macro. -/
def reference (descriptor : Descriptor) (nested : List Block) : List Directive :=
  [.inclusion descriptor.package descriptor.file descriptor.path,
    .call descriptor.macroName descriptor.arguments nested]

/-- A decoration that resolves; its call nests nothing. -/
def decoration (platform : PlatformModel) (decoration : Decoration) : List Directive :=
  match decoration.describe platform with
  | .ok descriptor => reference descriptor []
  | .error _ => []

/-- A mount that resolves, under its name; its call nests exactly its origin. -/
def mount (mount : Mount) : List Directive :=
  match mount.describe with
  | .ok descriptor =>
    .comment mount.name :: reference descriptor [.origin (.ofPose mount.xyz mount.rpy)] ++ [.blank]
  | .error _ => []

/-- The part before the platform's template. -/
def opening : List Directive :=
  [.inclusion "clearpath_platform_description" "common" "urdf/", .comment "Platform"]

/-- The part before the first decoration. -/
def beforeDecorations (platform : PlatformModel) : List Directive :=
  opening ++ reference platform.descriptor [] ++ [.blank, .comment "Decorations", .blank]

/-- The part before the first mount. -/
def beforeMounts (config : RobotConfig) (platform : PlatformModel) : List Directive :=
  beforeDecorations platform ++ config.enabledDecorations.flatMap (decoration platform) ++
    [.blank, .comment "Mounts", .blank]

/-- All that a generation writes. -/
def whole (config : RobotConfig) (platform : PlatformModel) : List Directive :=
  beforeMounts config platform ++ config.mounts.flatMap mount ++ [.blank]

end Layout

/-- Every entity that a description of the configuration refers to is in the registries, the
platform being the one given. -/
structure RobotConfig.Resolves (config : RobotConfig) (platform : PlatformModel) : Prop where
  platform_eq : PlatformModel.lookup? config.platform.model = some platform
  decorations : ∀ decoration ∈ config.enabledDecorations, decoration.Fits platform
  mounts : ∀ mount ∈ config.mounts, mount.Registered

/-- The first entity that is not in the registries, and the part of the layout before its template
is included. Disabled decorations do not count. -/
inductive RobotConfig.StopsAt (config : RobotConfig) : Unsupported → List Directive → Prop
  | platform (hplatform : PlatformModel.lookup? config.platform.model = none) :
      StopsAt config (.platform config.platform.model) Layout.opening
  | decoration (platform : PlatformModel) (before after : List Decoration)
      (decoration : Decoration)
      (hplatform : PlatformModel.lookup? config.platform.model = some platform)
      (hsplit : config.enabledDecorations = before ++ decoration :: after)
      (hbefore : ∀ earlier ∈ before, earlier.Fits platform)
      (hfits : ¬ decoration.Fits platform) :
      StopsAt config (.decoration platform.id decoration.kind)
        (Layout.beforeDecorations platform ++ before.flatMap (Layout.decoration platform))
  | mount (platform : PlatformModel) (before after : List Mount) (mount : Mount)
      (hplatform : PlatformModel.lookup? config.platform.model = some platform)
      (hdecorations : ∀ decoration ∈ config.enabledDecorations, decoration.Fits platform)
      (hsplit : config.mounts = before ++ mount :: after)
      (hbefore : ∀ earlier ∈ before, earlier.Registered)
      (hregistered : ¬ mount.Registered) :
      StopsAt config (.mountModel mount.name mount.model)
        (Layout.beforeMounts config platform ++ before.flatMap Layout.mount ++
          [.comment mount.name])

/-- Some entity that a description of the configuration refers to is in no registry. -/
def RobotConfig.HasUnsupported (config : RobotConfig) : Prop :=
  PlatformModel.lookup? config.platform.model = none ∨
    (∃ platform, PlatformModel.lookup? config.platform.model = some platform ∧
      ∃ decoration ∈ config.enabledDecorations, ¬ decoration.Fits platform) ∨
    ∃ mount ∈ config.mounts, ¬ mount.Registered

namespace Generation

@[simp] theorem directives_entity (descriptor : Descriptor) :
    (entity descriptor).directives = Layout.reference descriptor descriptor.blocks := rfl

@[simp] theorem outcome_entity (descriptor : Descriptor) :
    (entity descriptor).outcome = .ok () := rfl

theorem yields_platform {config : RobotConfig} {model : PlatformModel}
    (hplatform : PlatformModel.lookup? config.platform.model = some model) :
    (platform config).Yields (.comment "Platform" :: Layout.reference model.descriptor [])
      (.ok model) := by
  have hresolve : PlatformModel.resolve config.platform.model = .ok model := by
    simp [PlatformModel.resolve, hplatform]
  have hblocks : model.descriptor.blocks = [] := rfl
  constructor <;> simp [platform, hresolve, hblocks]

theorem yields_platform_error {config : RobotConfig}
    (hplatform : PlatformModel.lookup? config.platform.model = none) :
    (platform config).Yields [.comment "Platform"]
      (.error (.unsupported (.platform config.platform.model))) := by
  have hresolve : PlatformModel.resolve config.platform.model =
      .error (.unsupported (.platform config.platform.model)) := by
    simp [PlatformModel.resolve, hplatform]
  constructor <;> simp [platform, hresolve]

section Decoration

variable {model : PlatformModel} {item : Decoration}

theorem yields_decoration (henabled : item.enabled = true) (hfits : item.Fits model)
    (summary : Summary) :
    (decoration model summary item).Yields (Layout.decoration model item)
      (.ok summary.countDecoration) := by
  obtain ⟨descriptor, hdescribe, hblocks⟩ := Decoration.describe_of_fits henabled hfits
  constructor <;> simp [decoration, Layout.decoration, hdescribe, hblocks]

theorem yields_decoration_error (henabled : item.enabled = true) (hfits : ¬ item.Fits model)
    (summary : Summary) :
    (decoration model summary item).Yields []
      (.error (.unsupported (.decoration model.id item.kind))) := by
  have hdescribe := Decoration.describe_of_not_fits henabled hfits
  constructor <;> simp [decoration, hdescribe]

end Decoration

section Mount

variable {item : Mount}

theorem yields_mount (hregistered : item.Registered) (summary : Summary) :
    (mount summary item).Yields (Layout.mount item) (.ok summary.countMount) := by
  obtain ⟨descriptor, hdescribe, hblocks⟩ := Mount.describe_of_registered hregistered
  constructor <;> simp [mount, Layout.mount, hdescribe, hblocks]

theorem yields_mount_error (hregistered : ¬ item.Registered) (summary : Summary) :
    (mount summary item).Yields [.comment item.name]
      (.error (.unsupported (.mountModel item.name item.model))) := by
  have hdescribe := Mount.describe_of_not_registered hregistered
  constructor <;> simp [mount, hdescribe]

end Mount

end Generation

end RobotDescription
