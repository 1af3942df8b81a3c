import RobotDescription.Proofs.Generation.Completion

/-!
# Generations that succeed

A generation into an open document succeeds exactly if some platform resolves the configuration, and
then the document has gained the whole layout.
-/

namespace RobotDescription

/-- The counts of a generation that succeeds. -/
def RobotConfig.summary (config : RobotConfig) : Summary :=
  ⟨config.enabledDecorations.length,
    config.platform.decorations.length - config.enabledDecorations.length, config.mounts.length⟩

namespace Generation

variable {config : RobotConfig}

theorem exists_resolves_of_outcome {summary : Summary}
    (houtcome : (plan config).outcome = .ok summary) :
    ∃ platform, config.Resolves platform := by
  rcases plan_yields config with ⟨platform, _, hresolves, _⟩ | ⟨entity, written, _, hyields⟩
  · exact ⟨platform, hresolves⟩
  · rw [hyields.outcome_eq] at houtcome
    cases houtcome

end Generation

namespace Document

variable {document : Document} {config : RobotConfig}

theorem generate_of_resolves (hopen : document.closed = false) {platform : PlatformModel}
    (hresolves : config.Resolves platform) :
    (generate config document).sink =
        ⟨document.directives ++ Layout.whole config platform, true⟩ ∧
      (generate config document).result = .ok config.summary := by
  obtain ⟨hdirectives, houtcome⟩ := Generation.plan_yields_of_resolves hresolves
  obtain ⟨hsink, hresult⟩ := document.generate_of_open hopen config
  rw [hdirectives, houtcome] at hsink
  exact ⟨hsink, hresult.trans houtcome⟩

/-- A document that takes a whole description was open. -/
theorem closed_eq_false_of_generate {summary : Summary}
    (hdone : (generate config document).result = .ok summary) : document.closed = false := by
  cases hstate : document.closed with
  | false => rfl
  | true =>
      rw [(document.generate_of_closed hstate config).2] at hdone
      cases hdone

theorem exists_resolves_of_generate {summary : Summary}
    (hdone : (generate config document).result = .ok summary) :
    ∃ platform, config.Resolves platform ∧ summary = config.summary := by
  have hopen : document.closed = false := closed_eq_false_of_generate hdone
  rw [(document.generate_of_open hopen config).2] at hdone
  obtain ⟨platform, hresolves⟩ := Generation.exists_resolves_of_outcome hdone
  rw [(Generation.plan_yields_of_resolves hresolves).outcome_eq] at hdone
  cases hdone
  exact ⟨platform, hresolves, rfl⟩

end Document

end RobotDescription
