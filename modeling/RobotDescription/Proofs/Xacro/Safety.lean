import RobotDescription.Proofs.Config.Acceptance
import RobotDescription.Proofs.Sink.Faults
import RobotDescription.Proofs.Xacro.Images

/-!
# Generations that break no promise

Validation and rendering fit together. The names of an accepted configuration can all be written,
and so can those that the registries add, so no writer and no description file finds a fault with
what a generation of it writes. Where nothing fails on the side of the sink, only an unsupported
entity can end a generation.
-/

namespace RobotDescription.Xacro

theorem Writer.append_eq_error {writer : Writer} {text : String} {error : SinkError}
    (hrefused : (writer.append text).result = .error error) : error = .closed ∨ error = .io := by
  unfold append at hrefused
  split at hrefused
  next =>
    cases hrefused
    exact .inl rfl
  next =>
    dsimp only [Destination.write] at hrefused
    split at hrefused
    next => cases hrefused
    next =>
      split at hrefused
      next => cases hrefused
      next =>
        cases hrefused
        exact .inr rfl

theorem Destination.flush_eq_error {destination : Destination} {error : SinkError}
    (hrefused : destination.flush = .error error) : error = .io := by
  unfold flush at hrefused
  split at hrefused
  next => cases hrefused
  next =>
    cases hrefused
    rfl

theorem Writer.close_eq_error {writer : Writer} {error : SinkError}
    (hrefused : writer.close.result = .error error) : error = .closed ∨ error = .io := by
  unfold close at hrefused
  dsimp only at hrefused
  split at hrefused
  next happend =>
    cases hrefused
    exact append_eq_error happend
  next hflush =>
    cases hrefused
    exact .inr (Destination.flush_eq_error hflush)
  next => cases hrefused

/-- A writer checks the names of a macro before anything else, also when it is closed. -/
theorem Writer.faultFree : FaultFree Writer where
  write := by
    intro directive writer error hvalid hrefused
    rw [write_of_namesValid hvalid] at hrefused
    rcases append_eq_error hrefused with rfl | rfl
    · exact id
    · exact id
  close := by
    intro writer error hrefused
    rcases close_eq_error hrefused with rfl | rfl
    · exact id
    · exact id

theorem FileSink.publish_eq_error {fs : FileSystem} {temporary : Location} {content : ByteArray}
    {target : Path} {error : SinkError}
    (hrefused : (publish fs temporary content target).2.1 = .error error) :
    error = .persist target := by
  unfold publish at hrefused
  dsimp only at hrefused
  split at hrefused
  next => cases hrefused
  next =>
    cases hrefused
    rfl

theorem FileSink.faultFree : FaultFree FileSink where
  write := by
    intro directive sink error hvalid hrefused
    rw [write_eq_onWriter] at hrefused
    unfold onWriter at hrefused
    split at hrefused
    next =>
      cases hrefused
      exact id
    next draft _ => exact Writer.faultFree.write hvalid hrefused
  close := by
    intro sink error hrefused
    change (close sink).result = .error error at hrefused
    unfold close at hrefused
    split at hrefused
    next =>
      cases hrefused
      exact id
    next draft _ =>
      dsimp only at hrefused
      split at hrefused
      next refusal hended =>
        cases hrefused
        exact Writer.faultFree.close hended
      next =>
        rw [publish_eq_error hrefused]
        exact id

/-- No generation of an accepted configuration reaches a fault, whatever writer or file it writes
to and in whatever state, directly or by way of a document; every macro that it writes has names
that can be attributes. On a fresh document, and on a fresh writer whose destination never fails, it
can only fail with an unsupported entity, and what the document then holds can be replayed. -/
theorem generate_breaks_no_promise {config : RobotConfig}
    (haccepted : config.IsValid ∨
      ∃ format content, RobotConfig.parse format content = .ok config) :
    (∀ (writer : Writer) error, (generate config writer).result = .error error →
      ¬ error.IsFault) ∧
    (∀ (file : FileSink) error, (generate config file).result = .error error →
      ¬ error.IsFault) ∧
    (∀ (writer : Writer) error,
      ((generate config Document.empty).sink.replay writer).result = .error error →
        ¬ error.IsFault) ∧
    (∀ name arguments nested,
      .call name arguments nested ∈ (generate config Document.empty).sink.directives →
        ∀ argument ∈ arguments.names, IsAttributeName argument) ∧
    (∀ error, (generate config Document.empty).result = .error error →
      ∃ entity, error = .unsupported entity) ∧
    ∀ destination : Destination, destination.NeverFails → ∀ robotName,
      ∃ writer, Writer.create destination robotName = .ok writer ∧
        (generate config writer).result = (generate config Document.empty).result ∧
        ((generate config Document.empty).sink.replay writer).result = .ok () := by
  have hvalid : config.NamesValid := by
    apply RobotConfig.namesValid_of_isValid
    rcases haccepted with hvalid | ⟨format, content, hparse⟩
    · exact hvalid
    · exact RobotConfig.isValid_of_parse hparse
  obtain ⟨hsink, hresult⟩ := @Document.generate_of_open .empty rfl config
  have hwritten : ∀ directive ∈ (generate config Document.empty).sink.directives,
      directive.NamesValid := by
    rw [hsink]
    exact Generation.namesValid_of_mem_plan hvalid
  refine ⟨fun writer error hfailed => Writer.faultFree.generate hvalid hfailed,
    fun file error hfailed => FileSink.faultFree.generate hvalid hfailed,
    fun writer error hfailed => Writer.faultFree.replay hwritten hfailed,
    fun name arguments nested hmem argument hargument => ?_, fun error hfailed => ?_,
    fun destination hreliable robotName => ?_⟩
  · exact ParameterName.isValid_iff.mp (hwritten _ hmem argument hargument)
  · rw [hresult] at hfailed
    exact Generation.exists_unsupported_of_outcome_plan hfailed
  · have hmirrors := Writer.mirrors_ofDocument hreliable robotName
    refine ⟨_, Writer.create_eq_ofDocument hreliable robotName, ?_, ?_⟩
    · exact (hmirrors.generate config .empty hvalid).2
    · rw [(hmirrors.replay _ .empty hwritten).2]
      exact (@Document.replay_of_open .empty rfl _).2

/-- A decoration that is disabled, a parameter laid over a default, and a mount that no registry
knows. -/
def huskyWithPlow : RobotConfig where
  serialNumber := "a200-0001"
  platform := {
    model := "a200"
    decorations := [
      { kind := "front_bumper", enabled := true, parameters := .ofList [("extension", .int 1)] },
      { kind := "spoiler" }] }
  mounts := [{ name := "plow", model := "plow" }]

theorem generate_breaks_no_promise_plow :
    huskyWithPlow.IsValid ∧
      (generate huskyWithPlow Document.empty).result =
        .error (.unsupported (.mountModel "plow" "plow")) ∧
      (∃ writer, Writer.create {} "a200-0001" = .ok writer ∧
        (generate huskyWithPlow writer).result =
          .error (.unsupported (.mountModel "plow" "plow")) ∧
        ((generate huskyWithPlow Document.empty).sink.replay writer).result = .ok ()) := by
  have hvalid : huskyWithPlow.IsValid := by decide
  have hresult : (generate huskyWithPlow Document.empty).result =
      .error (.unsupported (.mountModel "plow" "plow")) := rfl
  have hreliable : Destination.NeverFails {} := ⟨rfl, rfl, rfl⟩
  obtain ⟨_, _, _, _, _, hwriter⟩ := generate_breaks_no_promise (.inl hvalid)
  obtain ⟨writer, hcreated, hsame, hreplay⟩ := hwriter {} hreliable "a200-0001"
  exact ⟨hvalid, hresult, writer, hcreated, hsame.trans hresult, hreplay⟩

end RobotDescription.Xacro
