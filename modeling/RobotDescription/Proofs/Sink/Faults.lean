import RobotDescription.Proofs.Sink.Documents

/-!
# Faults

A fault is a promise that a caller has broken, with an argument name that cannot be written or a
disabled decoration that was to be described, or a count that has fallen below zero. A generation
describes no disabled decoration and subtracts no more than it has, whatever its configuration; and
it writes a name that cannot be written only if the names of its configuration are not valid.
-/

namespace RobotDescription

def SinkError.IsFault : SinkError → Prop
  | .fault _ => True
  | _ => False

def GenerationError.IsFault : GenerationError → Prop
  | .fault _ => True
  | .sink error => error.IsFault
  | .unsupported _ => False

/-- No plan ends with a fault: a disabled decoration is never described, and no more decorations
are counted than there are. -/
theorem Generation.exists_unsupported_of_outcome_plan {config : RobotConfig}
    {error : GenerationError} (houtcome : (plan config).outcome = .error error) :
    ∃ entity, error = .unsupported entity := by
  rcases plan_yields config with ⟨platform, summary, _, hyields⟩ | ⟨entity, written, _, hyields⟩
  · rw [hyields.outcome_eq] at houtcome
    cases houtcome
  · rw [hyields.outcome_eq] at houtcome
    cases houtcome
    exact ⟨entity, rfl⟩

/-- A kind of sink, in whatever state, that finds no fault with a directive whose names are valid,
nor with a close. -/
structure FaultFree (σ : Type) [Sink σ] : Prop where
  write : ∀ {directive : Directive} {sink : σ} {error}, directive.NamesValid →
    (Sink.write directive sink).result = .error error → ¬ error.IsFault
  close : ∀ {sink : σ} {error}, (Sink.close sink).result = .error error → ¬ error.IsFault

namespace FaultFree

variable {σ : Type} [Sink σ] (hfree : FaultFree σ)
include hfree

theorem writeAll {directives : List Directive} {sink : σ} {error : SinkError}
    (hvalid : ∀ directive ∈ directives, directive.NamesValid)
    (hrefused : (Sink.writeAll directives sink).result = .error error) : ¬ error.IsFault := by
  induction directives generalizing sink with
  | nil => cases hrefused
  | cons directive rest ih =>
      have hfirst := hvalid directive List.mem_cons_self
      have hrest : ∀ other ∈ rest, other.NamesValid :=
        fun other hother => hvalid other (List.mem_cons_of_mem _ hother)
      cases hwrite : (Sink.write directive sink).result with
      | error refusal =>
          simp only [Sink.writeAll, hwrite] at hrefused
          cases hrefused
          exact hfree.write hfirst hwrite
      | ok =>
          simp only [Sink.writeAll, hwrite] at hrefused
          exact ih hrest hrefused

theorem replay {document : Document} {sink : σ} {error : SinkError}
    (hvalid : ∀ directive ∈ document.directives, directive.NamesValid)
    (hrefused : (document.replay sink).result = .error error) : ¬ error.IsFault := by
  cases hwritten : (Sink.writeAll document.directives sink).result with
  | error refusal =>
      simp only [Document.replay, hwritten] at hrefused
      cases hrefused
      exact hfree.writeAll hvalid hwritten
  | ok =>
      cases hclosed : document.closed with
      | false =>
          simp only [Document.replay, hwritten, hclosed] at hrefused
          cases hrefused
      | true =>
          simp only [Document.replay, hwritten, hclosed] at hrefused
          exact hfree.close hrefused

/-- A generation fails with a fault neither of its own nor of its sink. -/
theorem generate {config : RobotConfig} {sink : σ} {error : GenerationError}
    (hvalid : config.NamesValid)
    (hfailed : (RobotDescription.generate config sink).result = .error error) :
    ¬ error.IsFault := by
  have hnames := Generation.namesValid_of_mem_plan hvalid
  cases hwritten : (Sink.writeAll (Generation.plan config).directives sink).result with
  | error refusal =>
      rw [(generate_of_refused hwritten).2] at hfailed
      cases hfailed
      exact hfree.writeAll hnames hwritten
  | ok =>
      cases houtcome : (Generation.plan config).outcome with
      | error stopped =>
          obtain ⟨entity, rfl⟩ := Generation.exists_unsupported_of_outcome_plan houtcome
          rw [(generate_of_stopped hwritten houtcome).2] at hfailed
          cases hfailed
          exact id
      | ok summary =>
          rw [(generate_of_written hwritten houtcome).2] at hfailed
          split at hfailed
          next => cases hfailed
          next refusal hclose =>
            cases hfailed
            exact hfree.close hclose

end FaultFree

end RobotDescription
