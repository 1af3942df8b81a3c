import RobotDescription.Proofs.Generation.Outcome
import RobotDescription.Proofs.Sink.Writing

/-!
# How a generation into a document ends

Into an open document a generation writes either the whole layout, and closes the document, or the
part of the layout before the first entity that does not resolve, and leaves the document open. A
closed document refuses every generation and stays as it is.
-/

namespace RobotDescription

theorem exists_first_not {α : Type} {test : α → Prop} {items : List α}
    (hsome : ∃ item ∈ items, ¬ test item) :
    ∃ before item after, items = before ++ item :: after ∧
      (∀ earlier ∈ before, test earlier) ∧ ¬ test item := by
  induction items with
  | nil =>
      obtain ⟨item, hmem, _⟩ := hsome
      cases hmem
  | cons head tail ih =>
      by_cases hhead : test head
      · obtain ⟨item, hmem, hitem⟩ := hsome
        have htail : item ∈ tail := by
          rcases List.mem_cons.mp hmem with rfl | htail
          · exact absurd hhead hitem
          · exact htail
        obtain ⟨before, first, after, rfl, hbefore, hfirst⟩ := ih ⟨item, htail, hitem⟩
        refine ⟨head :: before, first, after, rfl, ?_, hfirst⟩
        intro earlier hearlier
        rcases List.mem_cons.mp hearlier with rfl | hearlier
        · exact hhead
        · exact hbefore earlier hearlier
      · exact ⟨[], head, tail, rfl, nofun, hhead⟩

namespace RobotConfig

variable {config : RobotConfig}

/-- Where something is in no registry, there is a first such entity. -/
theorem exists_stopsAt_of_hasUnsupported (hunsupported : config.HasUnsupported) :
    ∃ entity written, config.StopsAt entity written := by
  cases hplatform : PlatformModel.lookup? config.platform.model with
  | none => exact ⟨_, _, .platform hplatform⟩
  | some platform =>
      by_cases hdecorations : ∀ item ∈ config.enabledDecorations, item.Fits platform
      · have hmount : ∃ item ∈ config.mounts, ¬ item.Registered := by
          rcases hunsupported with hnone | ⟨other, hother, item, hmem, hfits⟩ | hmount
          · rw [hplatform] at hnone
            cases hnone
          · rw [hplatform] at hother
            cases hother
            exact absurd (hdecorations item hmem) hfits
          · exact hmount
        obtain ⟨before, item, after, hsplit, hbefore, hitem⟩ := exists_first_not hmount
        exact ⟨_, _, .mount platform before after item hplatform hdecorations hsplit hbefore hitem⟩
      · have hdecoration : ∃ item ∈ config.enabledDecorations, ¬ item.Fits platform := by
          simpa using hdecorations
        obtain ⟨before, item, after, hsplit, hbefore, hitem⟩ := exists_first_not hdecoration
        exact ⟨_, _, .decoration platform before after item hplatform hsplit hbefore hitem⟩

theorem resolves_of_not_hasUnsupported (hsupported : ¬ config.HasUnsupported) :
    ∃ platform, config.Resolves platform := by
  cases hplatform : PlatformModel.lookup? config.platform.model with
  | none => exact absurd (Or.inl hplatform) hsupported
  | some platform =>
      refine ⟨platform, hplatform, fun item hmem => ?_, fun item hmem => ?_⟩
      · refine Classical.byContradiction fun hfits => hsupported (.inr (.inl ?_))
        exact ⟨platform, hplatform, item, hmem, hfits⟩
      · refine Classical.byContradiction fun hregistered => hsupported (.inr (.inr ?_))
        exact ⟨item, hmem, hregistered⟩

end RobotConfig

/-- A plan either puts the whole layout or stops at the first entity that does not resolve. -/
theorem Generation.plan_yields (config : RobotConfig) :
    (∃ platform summary, config.Resolves platform ∧
      (plan config).Yields (Layout.whole config platform) (.ok summary)) ∨
    ∃ entity written, config.StopsAt entity written ∧
      (plan config).Yields written (.error (.unsupported entity)) := by
  by_cases hunsupported : config.HasUnsupported
  · obtain ⟨entity, written, hstops⟩ := RobotConfig.exists_stopsAt_of_hasUnsupported hunsupported
    exact .inr ⟨entity, written, hstops, plan_yields_of_stopsAt hstops⟩
  · obtain ⟨platform, hresolves⟩ := RobotConfig.resolves_of_not_hasUnsupported hunsupported
    exact .inl ⟨platform, _, hresolves, plan_yields_of_resolves hresolves⟩

namespace Layout

variable {config : RobotConfig} {platform : PlatformModel}

theorem decoration_eq_reference {item : Decoration} (henabled : item.enabled = true)
    (hfits : item.Fits platform) :
    ∃ descriptor, item.describe platform = .ok descriptor ∧
      decoration platform item = reference descriptor [] := by
  obtain ⟨descriptor, hdescribe, _⟩ := Decoration.describe_of_fits henabled hfits
  exact ⟨descriptor, hdescribe, by simp [decoration, hdescribe]⟩

theorem mount_eq_reference {item : Mount} (hregistered : item.Registered) :
    ∃ descriptor, item.describe = .ok descriptor ∧
      mount item = .comment item.name ::
        reference descriptor [.origin (.ofPose item.xyz item.rpy)] ++ [.blank] := by
  obtain ⟨descriptor, hdescribe, _⟩ := Mount.describe_of_registered hregistered
  exact ⟨descriptor, hdescribe, by simp [mount, hdescribe]⟩

theorem countP_flatMap_of_one {α : Type} {sort : Directive → Bool} {part : α → List Directive}
    {items : List α} (hone : ∀ item ∈ items, (part item).countP sort = 1) :
    (items.flatMap part).countP sort = items.length := by
  induction items with
  | nil => rfl
  | cons item rest ih =>
      have hitem := hone item List.mem_cons_self
      have hrest := ih fun other hother => hone other (List.mem_cons_of_mem _ hother)
      rw [List.flatMap_cons, List.countP_append, hitem, hrest, List.length_cons, Nat.add_comm]

/-- Inclusions and calls of a sort that every reference contains once. -/
theorem countP_whole (hresolves : config.Resolves platform) {sort : Directive → Bool}
    (hblank : sort .blank = false) (hcomment : ∀ text, sort (.comment text) = false)
    (hreference : ∀ descriptor nested, (reference descriptor nested).countP sort = 1) :
    (whole config platform).countP sort =
      opening.countP sort + 1 + config.enabledDecorations.length + config.mounts.length := by
  have hdecorations : (config.enabledDecorations.flatMap (decoration platform)).countP sort =
      config.enabledDecorations.length := by
    refine countP_flatMap_of_one fun item hmem => ?_
    obtain ⟨descriptor, _, hpart⟩ := decoration_eq_reference
      (RobotConfig.enabled_of_mem hmem) (hresolves.decorations item hmem)
    rw [hpart, hreference]
  have hmounts : (config.mounts.flatMap mount).countP sort = config.mounts.length := by
    refine countP_flatMap_of_one fun item hmem => ?_
    obtain ⟨descriptor, _, hpart⟩ := mount_eq_reference (hresolves.mounts item hmem)
    simp [hpart, hreference, hblank, hcomment]
  simp only [whole, beforeMounts, beforeDecorations, List.countP_append, List.countP_cons,
    List.countP_nil, hreference, hdecorations, hmounts, hblank, hcomment]
  simp

theorem countP_isInclusion_whole (hresolves : config.Resolves platform) :
    (whole config platform).countP Directive.isInclusion =
      2 + config.enabledDecorations.length + config.mounts.length :=
  countP_whole hresolves rfl (fun _ => rfl) (fun _ _ => rfl)

theorem length_macroNames_whole (hresolves : config.Resolves platform) :
    ((whole config platform).filterMap Directive.macroName?).length =
      1 + config.enabledDecorations.length + config.mounts.length := by
  rw [List.length_filterMap_eq_countP]
  exact countP_whole hresolves rfl (fun _ => rfl) (fun _ _ => rfl)

end Layout

/-- A generation into an open document that succeeds has appended exactly the layout and closed the
document. Every decoration and mount of the layout stands for its own descriptor, and the summary
counts the entities. -/
theorem generate_layout {config : RobotConfig} {document : Document} {summary : Summary}
    (hopen : document.closed = false)
    (hdone : (generate config document).result = .ok summary) :
    ∃ platform, PlatformModel.lookup? config.platform.model = some platform ∧
      (∀ item ∈ config.enabledDecorations, ∃ descriptor,
        item.describe platform = .ok descriptor ∧
          Layout.decoration platform item = Layout.reference descriptor []) ∧
      (∀ item ∈ config.mounts, ∃ descriptor, item.describe = .ok descriptor ∧
        Layout.mount item = .comment item.name ::
          Layout.reference descriptor [.origin (.ofPose item.xyz item.rpy)] ++ [.blank]) ∧
      (generate config document).sink =
        ⟨document.directives ++ Layout.whole config platform, true⟩ ∧
      (generate config document).sink.inclusionCount = document.inclusionCount +
        (2 + config.enabledDecorations.length + config.mounts.length) ∧
      (generate config document).sink.macroNames.length = document.macroNames.length +
        (1 + config.enabledDecorations.length + config.mounts.length) ∧
      config.enabledDecorations.length ≤ config.platform.decorations.length ∧
      summary.decorations = config.enabledDecorations.length ∧
      summary.skipped =
        config.platform.decorations.length - config.enabledDecorations.length ∧
      summary.mounts = config.mounts.length := by
  obtain ⟨hsink, hresult⟩ := document.generate_of_open hopen config
  have hsupported : ¬ config.HasUnsupported := by
    intro hunsupported
    obtain ⟨entity, written, hstops⟩ := RobotConfig.exists_stopsAt_of_hasUnsupported hunsupported
    rw [(Generation.plan_yields_of_stopsAt hstops).outcome_eq, hdone] at hresult
    cases hresult
  obtain ⟨platform, hresolves⟩ := RobotConfig.resolves_of_not_hasUnsupported hsupported
  obtain ⟨hdirectives, houtcome⟩ := Generation.plan_yields_of_resolves hresolves
  rw [hdirectives, houtcome] at hsink
  rw [houtcome, hdone] at hresult
  cases hresult
  refine ⟨platform, hresolves.platform_eq, fun item hmem => ?_, fun item hmem => ?_, hsink,
    ?_, ?_, List.length_filter_le _ _, rfl, rfl, rfl⟩
  · exact Layout.decoration_eq_reference (RobotConfig.enabled_of_mem hmem)
      (hresolves.decorations item hmem)
  · exact Layout.mount_eq_reference (hresolves.mounts item hmem)
  · simp [hsink, Document.inclusionCount, Layout.countP_isInclusion_whole hresolves]
  · simp [hsink, Document.macroNames, Layout.length_macroNames_whole hresolves]

/-- A robot with a front bumper, a disabled decoration that no registry knows, and one mount. -/
def husky : RobotConfig where
  serialNumber := "a200-0001"
  platform := {
    model := "a200"
    decorations := [{ kind := "front_bumper", enabled := true }, { kind := "spoiler" }] }
  mounts := [{ name := "lidar", model := "fath_pivot" }]

/-- An open document that already holds a directive. -/
def begun : Document := ⟨[.comment "begun"], false⟩

theorem generate_layout_husky :
    begun.closed = false ∧ (generate husky begun).result = .ok ⟨1, 1, 1⟩ ∧
      (generate husky begun).sink.inclusionCount = begun.inclusionCount + (2 + 1 + 1) := by
  have hdone : (generate husky begun).result = .ok ⟨1, 1, 1⟩ := rfl
  obtain ⟨_, _, _, _, _, hcount, _⟩ := generate_layout rfl hdone
  exact ⟨rfl, hdone, hcount⟩

/-- Where an entity does not resolve, an open document stays open and gets what the layout holds
before the first such entity, which the error names. A closed document stays as it is, and such is
the document of every generation that succeeded. -/
theorem generate_stops (config : RobotConfig) (document : Document) :
    (document.closed = false → config.HasUnsupported →
      ∃ entity written, config.StopsAt entity written ∧
        (generate config document).result = .error (.unsupported entity) ∧
        (generate config document).sink = ⟨document.directives ++ written, false⟩) ∧
    (document.closed = true →
      (generate config document).result = .error (.sink .closed) ∧
        (generate config document).sink = document) ∧
    (∀ summary, (generate config document).result = .ok summary → ∀ next : RobotConfig,
      (generate next (generate config document).sink).result = .error (.sink .closed) ∧
        (generate next (generate config document).sink).sink =
          (generate config document).sink) := by
  refine ⟨fun hopen hunsupported => ?_, fun hclosed => ?_, fun summary hdone next => ?_⟩
  · obtain ⟨entity, written, hstops⟩ := RobotConfig.exists_stopsAt_of_hasUnsupported hunsupported
    obtain ⟨hdirectives, houtcome⟩ := Generation.plan_yields_of_stopsAt hstops
    obtain ⟨hsink, hresult⟩ := document.generate_of_open hopen config
    rw [hdirectives, houtcome] at hsink
    exact ⟨entity, written, hstops, hresult.trans houtcome, hsink⟩
  · exact (document.generate_of_closed hclosed config).symm
  · have hclosed : (generate config document).sink.closed = true := by
      cases hstate : document.closed with
      | true =>
          rw [(document.generate_of_closed hstate config).2] at hdone
          cases hdone
      | false =>
          obtain ⟨hsink, hresult⟩ := document.generate_of_open hstate config
          rw [hsink, ← hresult, hdone]
          rfl
    exact ((generate config document).sink.generate_of_closed hclosed next).symm

/-- The same robot with a further mount, whose model is in no registry. -/
def huskyWithStand : RobotConfig :=
  { husky with mounts := husky.mounts ++ [{ name := "stand", model := "sick_stand" }] }

theorem generate_stops_husky :
    begun.closed = false ∧ huskyWithStand.HasUnsupported ∧
      (∃ entity written, huskyWithStand.StopsAt entity written ∧
        (generate huskyWithStand begun).result = .error (.unsupported entity)) ∧
      (generate huskyWithStand ⟨[], true⟩).sink = (⟨[], true⟩ : Document) ∧
      (generate husky begun).result = .ok ⟨1, 1, 1⟩ ∧
      (generate huskyWithStand (generate husky begun).sink).result = .error (.sink .closed) := by
  have hstand : ¬ ({ name := "stand", model := "sick_stand" } : Mount).Registered := by
    rintro ⟨model, hmodel⟩
    cases hmodel
  have hunsupported : huskyWithStand.HasUnsupported :=
    .inr (.inr ⟨_, List.mem_append_right _ List.mem_cons_self, hstand⟩)
  have hdone : (generate husky begun).result = .ok ⟨1, 1, 1⟩ := rfl
  obtain ⟨entity, written, hstops, hresult, _⟩ :=
    (generate_stops huskyWithStand begun).1 rfl hunsupported
  exact ⟨rfl, hunsupported, ⟨entity, written, hstops, hresult⟩,
    ((generate_stops huskyWithStand ⟨[], true⟩).2.1 rfl).2, hdone,
    ((generate_stops husky begun).2.2 _ hdone huskyWithStand).1⟩

end RobotDescription
