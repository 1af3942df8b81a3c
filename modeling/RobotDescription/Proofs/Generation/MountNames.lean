import RobotDescription.Proofs.Config.Acceptance
import RobotDescription.Proofs.Description.Arguments
import RobotDescription.Proofs.Generation.Success
import RobotDescription.Proofs.Registry.Lookup

/-!
# The names that mounts are called with

The macro of a mount gets the mount's name as an argument and names links after it. Mounts of an
accepted configuration have different names, but a parameter called `name` is laid over that
argument like over any other. So the names in a description are apart where no mount has such a
parameter, and two mounts can end up with one name where they have.
-/

namespace RobotDescription

/-- The name in a call of a mount's macro. -/
def Directive.mountName? : Directive → Option String
  | .call macroName arguments _ =>
    if (MountModel.lookup? macroName).isSome then arguments.get? "name" else none
  | _ => none

/-- The names that a description calls the macros of mounts with, in order. -/
def Document.mountNames (document : Document) : List String :=
  document.directives.filterMap Directive.mountName?

/-- The name that the macro of a mount is called with. -/
def Mount.calledName (mount : Mount) : String :=
  ((mount.parameters.get? "name").map ParameterValue.toText).getD mount.name

/-- No platform has the macro of a mount. -/
theorem MountModel.lookup?_platform_id (platform : PlatformModel) :
    lookup? platform.id = none := by
  cases platform <;> decide

/-- No decoration has the macro of a mount. -/
theorem MountModel.lookup?_kind_id (kind : DecorationKind) : lookup? kind.id = none := by
  cases kind <;> decide

namespace Mount

theorem nodup_baseArguments (mount : Mount) (model : MountModel) :
    ((mount.baseArguments model).map (·.1)).Nodup := by
  change ("name" :: "parent_link" :: model.defaults.map (·.1)).Nodup
  cases model <;> decide

/-- A mount is called by its name, unless it has a parameter that is called so. -/
theorem get?_name_describe {item : Mount} {descriptor : Descriptor}
    (hdescribe : item.describe = .ok descriptor) :
    descriptor.arguments.get? "name" = some item.calledName := by
  obtain ⟨model, _, harguments⟩ := exists_model_of_describe hdescribe
  have hbase : (Arguments.ofList (item.baseArguments model)).get? "name" = some item.name := by
    rw [Arguments.get?_ofList (item.nodup_baseArguments model)]
    exact List.lookup_cons_self
  rw [harguments, Arguments.get?_overlay, hbase, calledName]
  cases item.parameters.get? "name" <;> rfl

theorem calledName_of_not_mem {item : Mount} (hname : "name" ∉ item.parameters.names) :
    item.calledName = item.name := by
  rw [calledName, Parameters.get?_eq_none hname]
  rfl

end Mount

namespace Layout

section References

variable (descriptor : Descriptor) (nested : List Block)

theorem mountNames_reference_of_mount {model : MountModel} {name : String}
    (hmodel : descriptor.macroName = model.id)
    (hname : descriptor.arguments.get? "name" = some name) :
    (reference descriptor nested).filterMap Directive.mountName? = [name] := by
  have hcall : (Directive.call descriptor.macroName descriptor.arguments nested).mountName? =
      some name := by
    rw [hmodel, Directive.mountName?, MountModel.lookup?_eq_some_iff.mpr rfl]
    exact hname
  rw [reference, List.filterMap_cons_none rfl, List.filterMap_cons_some hcall]
  rfl

theorem mountNames_reference_of_not_mount
    (hmodel : MountModel.lookup? descriptor.macroName = none) :
    (reference descriptor nested).filterMap Directive.mountName? = [] := by
  have hcall : (Directive.call descriptor.macroName descriptor.arguments nested).mountName? =
      none := by
    simp [Directive.mountName?, hmodel]
  rw [reference, List.filterMap_cons_none rfl, List.filterMap_cons_none hcall]
  rfl

end References

theorem mountNames_decoration (platform : PlatformModel) (item : Decoration) :
    (decoration platform item).filterMap Directive.mountName? = [] := by
  unfold decoration
  split
  next descriptor hdescribe =>
    obtain ⟨kind, _, _, hkind, _⟩ := Decoration.exists_kind_of_describe hdescribe
    exact mountNames_reference_of_not_mount descriptor [] (hkind ▸ MountModel.lookup?_kind_id kind)
  next => rfl

theorem mountNames_mount {item : Mount} (hregistered : item.Registered) :
    (mount item).filterMap Directive.mountName? = [item.calledName] := by
  obtain ⟨descriptor, hdescribe, hmount⟩ := mount_eq_reference hregistered
  obtain ⟨model, hmodel, _⟩ := Mount.exists_model_of_describe hdescribe
  have hname := Mount.get?_name_describe hdescribe
  rw [hmount, List.filterMap_append, List.filterMap_cons_none rfl,
    mountNames_reference_of_mount descriptor _ hmodel hname]
  rfl

theorem mountNames_beforeMounts (config : RobotConfig) (platform : PlatformModel) :
    (beforeMounts config platform).filterMap Directive.mountName? = [] := by
  have hopening : opening.filterMap Directive.mountName? = [] := rfl
  have hplatform : (reference platform.descriptor []).filterMap Directive.mountName? = [] :=
    mountNames_reference_of_not_mount _ [] (MountModel.lookup?_platform_id platform)
  have hdecorations : (config.enabledDecorations.flatMap (decoration platform)).filterMap
      Directive.mountName? = [] := by
    rw [List.filterMap_flatMap, List.flatMap_eq_nil_iff]
    exact fun item _ => mountNames_decoration platform item
  rw [beforeMounts, beforeDecorations, List.filterMap_append, List.filterMap_append,
    List.filterMap_append, List.filterMap_append, hopening, hplatform, hdecorations]
  rfl

/-- The names in a description are those that the mounts are called with, in the order of the
configuration. -/
theorem mountNames_whole {config : RobotConfig} {platform : PlatformModel}
    (hresolves : config.Resolves platform) :
    (whole config platform).filterMap Directive.mountName? =
      config.mounts.map Mount.calledName := by
  have hmounts : (config.mounts.flatMap mount).filterMap Directive.mountName? =
      config.mounts.map Mount.calledName := by
    rw [List.filterMap_flatMap, List.map_eq_flatMap]
    exact List.flatMap_congr fun item hmem => mountNames_mount (hresolves.mounts item hmem)
  rw [whole, List.filterMap_append, List.filterMap_append, mountNames_beforeMounts, hmounts]
  exact List.append_nil _

end Layout

/-- The names in the description of an accepted configuration are those that its mounts are called
with, one for each mount, and no two are the same if no mount has a parameter called `name`. -/
theorem nodup_mountNames {config : RobotConfig} {summary : Summary} (hvalid : config.IsValid)
    (hdone : (generate config Document.empty).result = .ok summary) :
    let names := (generate config Document.empty).sink.mountNames
    names = config.mounts.map Mount.calledName ∧
      ((∀ item ∈ config.mounts, "name" ∉ item.parameters.names) → names.Nodup) := by
  intro names
  obtain ⟨platform, hresolves, _⟩ := Document.exists_resolves_of_generate hdone
  obtain ⟨hsink, _⟩ := @Document.generate_of_resolves .empty config rfl _ hresolves
  have hnames : names = config.mounts.map Mount.calledName := by
    simp only [names, hsink]
    exact Layout.mountNames_whole hresolves
  refine ⟨hnames, fun hplain => ?_⟩
  have hcalled : config.mounts.map Mount.calledName = config.mounts.map Mount.name :=
    List.map_congr_left fun item hmem => Mount.calledName_of_not_mem (hplain item hmem)
  rw [hnames, hcalled]
  exact (RobotConfig.isValid_iff_isSound.mp hvalid).distinct

/-- Two brackets, the second with a parameter of its own, neither of them called `name`. -/
def brackets : RobotConfig where
  serialNumber := "a200-0001"
  platform := { model := "a200" }
  mounts := [{ name := "front", model := "bracket" },
    { name := "rear", model := "bracket", parameters := .ofList [("extension", .int 1)] }]

theorem nodup_mountNames_brackets :
    brackets.IsValid ∧ (generate brackets Document.empty).result = .ok ⟨0, 0, 2⟩ ∧
      (∀ item ∈ brackets.mounts, "name" ∉ item.parameters.names) ∧
      (generate brackets Document.empty).sink.mountNames.Nodup := by
  have hvalid : brackets.IsValid := by decide
  have hdone : (generate brackets Document.empty).result = .ok ⟨0, 0, 2⟩ := rfl
  have hplain : ∀ item ∈ brackets.mounts, "name" ∉ item.parameters.names := by decide
  exact ⟨hvalid, hdone, hplain, (nodup_mountNames hvalid hdone).2 hplain⟩

/-- Two mounts that both have a parameter called `name`. -/
def namesakes : RobotConfig where
  serialNumber := "a200-0001"
  platform := { model := "a200" }
  mounts := [
    { name := "front", model := "flir_ptu", parameters := .ofList [("name", .text "ptu")] },
    { name := "rear", model := "flir_ptu", parameters := .ofList [("name", .text "ptu")] }]

/-- An accepted configuration whose mounts share the name that they are called with. -/
theorem mountNames_namesakes :
    namesakes.IsValid ∧ (generate namesakes Document.empty).result = .ok ⟨0, 0, 2⟩ ∧
      (generate namesakes Document.empty).sink.mountNames = ["ptu", "ptu"] ∧
      ¬ (generate namesakes Document.empty).sink.mountNames.Nodup := by
  have hnames : (generate namesakes Document.empty).sink.mountNames = ["ptu", "ptu"] := rfl
  refine ⟨by decide, rfl, hnames, ?_⟩
  rw [hnames]
  decide

end RobotDescription
