import RobotDescription.Config.ParameterName
import RobotDescription.Proofs.Generation.Completion

/-!
# Argument names in a plan

Every argument of a planned call is named by the registries or by the configuration. The names in
the registries can all be written as attributes, so a plan can be written if the configured names
can.
-/

namespace RobotDescription

/-- The arguments of a call, if the directive is one, can be written as attributes. -/
def Directive.NamesValid : Directive → Prop
  | .call _ arguments _ => ∀ name ∈ arguments.names, ParameterName.isValid name = true
  | _ => True

/-- The parameters of every decoration, enabled or not, and of every mount can be written as
attributes. -/
structure RobotConfig.NamesValid (config : RobotConfig) : Prop where
  decorations : ∀ item ∈ config.platform.decorations, ∀ name ∈ item.parameters.names,
    ParameterName.isValid name = true
  mounts : ∀ item ∈ config.mounts, ∀ name ∈ item.parameters.names,
    ParameterName.isValid name = true

namespace Arguments

theorem mem_names_set {arguments : Arguments} {name value other : String}
    (hmem : other ∈ (arguments.set name value).names) :
    other ∈ arguments.names ∨ other = name := by
  change other ∈ (assign name value arguments.entries).map (·.1) at hmem
  rw [names_assign] at hmem
  split at hmem
  next => exact .inl hmem
  next => exact (List.mem_append.mp hmem).imp_right List.mem_singleton.mp

/-- A property that the names have, and the names set one after the other, they all have in the
end. -/
theorem forall_names_setAll {property : String → Prop} {arguments : Arguments}
    {pairs : List (String × String)} (hnames : ∀ name ∈ arguments.names, property name)
    (hpairs : ∀ name ∈ pairs.map (·.1), property name) :
    ∀ name ∈ (arguments.setAll pairs).names, property name := by
  induction pairs generalizing arguments with
  | nil => exact hnames
  | cons pair rest ih =>
      have hfirst : ∀ name ∈ (arguments.set pair.1 pair.2).names, property name := by
        intro name hmem
        rcases mem_names_set hmem with hold | rfl
        · exact hnames name hold
        · exact hpairs pair.1 List.mem_cons_self
      exact ih hfirst fun other hother => hpairs other (List.mem_cons_of_mem _ hother)

theorem forall_names_ofList {property : String → Prop} {pairs : List (String × String)}
    (hpairs : ∀ name ∈ pairs.map (·.1), property name) :
    ∀ name ∈ (ofList pairs).names, property name :=
  forall_names_setAll nofun hpairs

theorem forall_names_overlay {property : String → Prop} {arguments : Arguments}
    {parameters : Parameters} (hnames : ∀ name ∈ arguments.names, property name)
    (hparameters : ∀ name ∈ parameters.names, property name) :
    ∀ name ∈ (arguments.overlay parameters).names, property name := by
  refine forall_names_setAll hnames ?_
  rw [List.map_map]
  exact hparameters

end Arguments

/-- What the registries name can be written as a name. -/
theorem PlatformModel.isValid_id (platform : PlatformModel) :
    ParameterName.isValid platform.id = true := by
  cases platform <;> decide

theorem DecorationKind.isValid_id (kind : DecorationKind) :
    ParameterName.isValid kind.id = true := by
  cases kind <;> decide

theorem DecorationKind.isValid_file (kind : DecorationKind) :
    ParameterName.isValid kind.template.file = true := by
  cases kind <;> decide

theorem MountModel.isValid_id (model : MountModel) : ParameterName.isValid model.id = true := by
  cases model <;> decide

theorem DecorationKind.nodup_defaults {platform : PlatformModel} {kind : DecorationKind}
    {defaults : List (String × String)} (hdefaults : defaults? platform kind = some defaults) :
    (defaults.map (·.1)).Nodup := by
  refine of_defaults? (fun entries => (entries.map (·.1)).Nodup) ?_ hdefaults
  decide

theorem DecorationKind.isValid_of_mem_defaults {platform : PlatformModel}
    {kind : DecorationKind} {defaults : List (String × String)}
    (hdefaults : defaults? platform kind = some defaults) :
    ∀ name ∈ defaults.map (·.1), ParameterName.isValid name = true := by
  refine of_defaults? (∀ name ∈ ·.map (·.1), ParameterName.isValid name = true) ?_ hdefaults
  decide

theorem Mount.isValid_of_mem_baseArguments (mount : Mount) (model : MountModel) :
    ∀ name ∈ (mount.baseArguments model).map (·.1), ParameterName.isValid name = true := by
  change ∀ name ∈ "name" :: "parent_link" :: model.defaults.map (·.1), _
  cases model <;> decide

theorem Decoration.forall_names_describe {item : Decoration} {platform : PlatformModel}
    {descriptor : Descriptor} (hdescribe : item.describe platform = .ok descriptor)
    (hnames : ∀ name ∈ item.parameters.names, ParameterName.isValid name = true) :
    ∀ name ∈ descriptor.arguments.names, ParameterName.isValid name = true := by
  obtain ⟨kind, defaults, hdefaults, _, harguments⟩ := exists_kind_of_describe hdescribe
  rw [harguments]
  exact Arguments.forall_names_overlay (Arguments.forall_names_ofList
    (DecorationKind.isValid_of_mem_defaults hdefaults)) hnames

theorem Mount.forall_names_describe {item : Mount} {descriptor : Descriptor}
    (hdescribe : item.describe = .ok descriptor)
    (hnames : ∀ name ∈ item.parameters.names, ParameterName.isValid name = true) :
    ∀ name ∈ descriptor.arguments.names, ParameterName.isValid name = true := by
  obtain ⟨model, _, harguments⟩ := exists_model_of_describe hdescribe
  rw [harguments]
  exact Arguments.forall_names_overlay (Arguments.forall_names_ofList
    (item.isValid_of_mem_baseArguments model)) hnames

namespace Layout

theorem namesValid_of_mem_reference {descriptor : Descriptor} {nested : List Block}
    (hnames : ∀ name ∈ descriptor.arguments.names, ParameterName.isValid name = true) :
    ∀ directive ∈ reference descriptor nested, directive.NamesValid := by
  intro directive hmem
  rcases List.mem_cons.mp hmem with rfl | hmem
  · trivial
  · cases List.mem_singleton.mp hmem
    exact hnames

theorem namesValid_of_mem_decoration {platform : PlatformModel} {item : Decoration}
    (hnames : ∀ name ∈ item.parameters.names, ParameterName.isValid name = true) :
    ∀ directive ∈ decoration platform item, directive.NamesValid := by
  unfold decoration
  cases hdescribe : item.describe platform with
  | error => exact nofun
  | ok => exact namesValid_of_mem_reference (Decoration.forall_names_describe hdescribe hnames)

theorem namesValid_of_mem_mount {item : Mount}
    (hnames : ∀ name ∈ item.parameters.names, ParameterName.isValid name = true) :
    ∀ directive ∈ mount item, directive.NamesValid := by
  unfold mount
  cases hdescribe : item.describe with
  | error => exact nofun
  | ok =>
      intro directive hmem
      rcases List.mem_append.mp hmem with hmem | hmem
      · rcases List.mem_cons.mp hmem with rfl | hmem
        · trivial
        · exact namesValid_of_mem_reference (Mount.forall_names_describe hdescribe hnames)
            directive hmem
      · cases List.mem_singleton.mp hmem
        trivial

theorem namesValid_of_mem_beforeDecorations (platform : PlatformModel) :
    ∀ directive ∈ beforeDecorations platform, directive.NamesValid := by
  refine List.forall_mem_append.mpr ⟨List.forall_mem_append.mpr ⟨?_, ?_⟩, ?_⟩
  · simp [opening, Directive.NamesValid]
  · exact namesValid_of_mem_reference (List.forall_mem_nil _)
  · simp [Directive.NamesValid]

section Parts

variable {config : RobotConfig} (hvalid : config.NamesValid)
include hvalid

theorem namesValid_of_mem_decorations (platform : PlatformModel) {items : List Decoration}
    (hsub : items ⊆ config.enabledDecorations) :
    ∀ directive ∈ items.flatMap (decoration platform), directive.NamesValid := by
  intro directive hmem
  obtain ⟨item, hitem, hmem⟩ := List.mem_flatMap.mp hmem
  have hconfigured := (List.mem_filter.mp (hsub hitem)).1
  exact namesValid_of_mem_decoration (hvalid.decorations item hconfigured) directive hmem

theorem namesValid_of_mem_mounts {items : List Mount} (hsub : items ⊆ config.mounts) :
    ∀ directive ∈ items.flatMap mount, directive.NamesValid := by
  intro directive hmem
  obtain ⟨item, hitem, hmem⟩ := List.mem_flatMap.mp hmem
  exact namesValid_of_mem_mount (hvalid.mounts item (hsub hitem)) directive hmem

theorem namesValid_of_mem_beforeMounts (platform : PlatformModel) :
    ∀ directive ∈ beforeMounts config platform, directive.NamesValid := by
  refine List.forall_mem_append.mpr ⟨List.forall_mem_append.mpr ⟨?_, ?_⟩, ?_⟩
  · exact namesValid_of_mem_beforeDecorations platform
  · exact namesValid_of_mem_decorations hvalid platform (List.Subset.refl _)
  · simp [Directive.NamesValid]

end Parts

end Layout

/-- All that is planned for a configuration with valid names can be written, whether or not its
entities resolve. -/
theorem Generation.namesValid_of_mem_plan {config : RobotConfig} (hvalid : config.NamesValid) :
    ∀ directive ∈ (plan config).directives, directive.NamesValid := by
  by_cases hunsupported : config.HasUnsupported
  · obtain ⟨entity, written, hstops⟩ := RobotConfig.exists_stopsAt_of_hasUnsupported hunsupported
    rw [(plan_yields_of_stopsAt hstops).directives_eq]
    cases hstops with
    | platform => simp [Layout.opening, Directive.NamesValid]
    | decoration platform before after item _ hsplit =>
        refine List.forall_mem_append.mpr ⟨?_, ?_⟩
        · exact Layout.namesValid_of_mem_beforeDecorations platform
        · exact Layout.namesValid_of_mem_decorations hvalid platform
            (hsplit ▸ List.subset_append_left _ _)
    | mount platform before after item _ _ hsplit =>
        refine List.forall_mem_append.mpr ⟨List.forall_mem_append.mpr ⟨?_, ?_⟩, ?_⟩
        · exact Layout.namesValid_of_mem_beforeMounts hvalid platform
        · exact Layout.namesValid_of_mem_mounts hvalid (hsplit ▸ List.subset_append_left _ _)
        · simp [Directive.NamesValid]
  · obtain ⟨platform, hresolves⟩ := RobotConfig.resolves_of_not_hasUnsupported hunsupported
    rw [(plan_yields_of_resolves hresolves).directives_eq]
    refine List.forall_mem_append.mpr ⟨List.forall_mem_append.mpr ⟨?_, ?_⟩, ?_⟩
    · exact Layout.namesValid_of_mem_beforeMounts hvalid platform
    · exact Layout.namesValid_of_mem_mounts hvalid (List.Subset.refl _)
    · simp [Directive.NamesValid]

end RobotDescription
