import RobotDescription.Registry.Decoration
import RobotDescription.Registry.Mount

/-!
# Generation plans

What a configuration says shall be written, before any sink is involved: the steps in order, and
how the plan ends. A plan that meets an unsupported entity ends there, with the steps before it.
-/

namespace RobotDescription

/-- One step of a generation. -/
inductive Step where
  | write (directive : Directive)
  | note (note : Note)
deriving DecidableEq

/-- Steps in order, and the value or error that they end with. -/
structure Plan (α : Type) where
  steps : List Step
  outcome : Except GenerationError α

namespace Plan

def pure {α : Type} (a : α) : Plan α := ⟨[], .ok a⟩

def bind {α β : Type} (plan : Plan α) (next : α → Plan β) : Plan β :=
  match plan.outcome with
  | .ok a => ⟨plan.steps ++ (next a).steps, (next a).outcome⟩
  | .error e => ⟨plan.steps, .error e⟩

instance : Monad Plan where
  pure := Plan.pure
  bind := Plan.bind

def put (directive : Directive) : Plan Unit := ⟨[.write directive], .ok ()⟩

def report (note : Note) : Plan Unit := ⟨[.note note], .ok ()⟩

/-- Takes over a result that involves no step. -/
def lift {α : Type} (result : Except GenerationError α) : Plan α := ⟨[], result⟩

def directives {α : Type} (plan : Plan α) : List Directive :=
  plan.steps.filterMap fun
    | .write directive => some directive
    | .note _ => none

end Plan

namespace Generation

def commonInclusion : Directive :=
  .inclusion platformPackage "common" "urdf/"

/-- The inclusion of an entity's template, then the call of its macro. -/
def entity (descriptor : Descriptor) : Plan Unit := do
  Plan.put descriptor.inclusion
  Plan.put descriptor.call

def platform (config : RobotConfig) : Plan PlatformModel := do
  Plan.put (.comment "Platform")
  let platform ← Plan.lift (PlatformModel.resolve config.platform.model)
  Plan.report (.platform platform.id)
  entity platform.descriptor
  return platform

/-- One decoration, which is counted once it has been written. -/
def decoration (platform : PlatformModel) (summary : Summary) (decoration : Decoration) :
    Plan Summary := do
  let descriptor ← Plan.lift (decoration.describe platform)
  Plan.report (.decoration decoration.kind descriptor.file)
  entity descriptor
  return summary.countDecoration

/-- What is left of a count. -/
def difference (count part : Nat) : Except GenerationError Nat :=
  if part ≤ count then .ok (count - part) else .error (.fault .negativeCount)

/-- The enabled decorations. Those that were not counted have been skipped. -/
def decorations (config : RobotConfig) (platform : PlatformModel) (summary : Summary) :
    Plan Summary := do
  Plan.put (.comment "Decorations")
  Plan.put .blank
  let summary ← config.enabledDecorations.foldlM (decoration platform) summary
  let skipped ← Plan.lift (difference config.platform.decorations.length summary.decorations)
  if 0 < skipped then
    Plan.report (.skipped skipped)
  return { summary with skipped }

/-- One mount under a comment with its name, and a blank line after it. -/
def mount (summary : Summary) (mount : Mount) : Plan Summary := do
  Plan.put (.comment mount.name)
  let descriptor ← Plan.lift mount.describe
  Plan.report (.mount mount.name descriptor.macroName)
  entity descriptor
  Plan.put .blank
  return summary.countMount

def mounts (config : RobotConfig) (summary : Summary) : Plan Summary := do
  Plan.put (.comment "Mounts")
  Plan.put .blank
  config.mounts.foldlM mount summary

/-- The plan for a configuration: common macros, platform, decorations, mounts. -/
def plan (config : RobotConfig) : Plan Summary := do
  Plan.report (.generating config.serialNumber)
  Plan.put commonInclusion
  let platform ← platform config
  Plan.put .blank
  let summary ← decorations config platform {}
  Plan.put .blank
  let summary ← mounts config summary
  Plan.put .blank
  return summary

end Generation

end RobotDescription
