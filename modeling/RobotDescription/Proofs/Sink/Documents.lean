import RobotDescription.Proofs.Sink.Calls

/-!
# Sequences of calls on a document

A call on an open document appends to its directives; on a closed document it changes nothing. The
answers are never other than regular.
-/

namespace RobotDescription.Document

variable {document : Document}

theorem isRegular_plan (config : RobotConfig) :
    Answer.IsRegular ((Generation.plan config).outcome.map some) := by
  rcases Generation.plan_yields config with
    ⟨platform, summary, _, hyields⟩ | ⟨entity, written, _, hyields⟩
  · rw [hyields.outcome_eq]
    trivial
  · rw [hyields.outcome_eq]
    trivial

theorem make_of_open (hopen : document.closed = false) (call : Call) :
    (∃ more, (call.make document).1.directives = document.directives ++ more) ∧
      (call.make document).2.IsRegular := by
  cases call with
  | close =>
      simp only [Call.make, Reply.answered, close_of_open hopen]
      exact ⟨⟨[], (List.append_nil _).symm⟩, trivial⟩
  | replay source =>
      obtain ⟨hsink, hresult⟩ := replay_of_open hopen source
      simp only [Call.make, Reply.answered, hsink, hresult]
      exact ⟨⟨_, rfl⟩, trivial⟩
  | generate config =>
      obtain ⟨hsink, hresult⟩ := generate_of_open hopen config
      simp only [Call.make, hsink, hresult]
      exact ⟨⟨_, rfl⟩, isRegular_plan config⟩
  | _ =>
      rw [Call.make_eq_write rfl, write_of_open hopen]
      exact ⟨⟨_, rfl⟩, trivial⟩

theorem make_of_closed (hclosed : document.closed = true) (call : Call) :
    call.make document = (document, call.answerOfClosed) := by
  cases call with
  | close => simp [Call.make, Reply.answered, close_of_closed hclosed, Call.answerOfClosed]
  | replay source =>
      obtain ⟨hsink, hresult⟩ := replay_of_closed hclosed source
      simp only [Call.make, Reply.answered, hsink, hresult, Call.answerOfClosed]
      by_cases hempty : source = empty
      · simp only [if_pos hempty]
      · simp only [if_neg hempty]
  | generate config =>
      obtain ⟨hsink, hresult⟩ := generate_of_closed hclosed config
      simp [Call.make, hsink, hresult, Except.map, Call.answerOfClosed]
  | _ =>
      rw [Call.make_eq_write rfl, write_of_closed hclosed]
      rfl

theorem isRegular_make (document : Document) (call : Call) :
    (call.make document).2.IsRegular := by
  cases hstate : document.closed with
  | false => exact (make_of_open hstate call).2
  | true =>
      rw [make_of_closed hstate call]
      cases call with
      | replay source =>
          dsimp only [Call.answerOfClosed]
          split <;> trivial
      | _ => trivial

/-- Once a document is closed, nothing changes it. -/
theorem makeAll_of_closed (hclosed : document.closed = true) (calls : List Call) :
    Call.makeAll calls document = (document, calls.map Call.answerOfClosed) := by
  induction calls with
  | nil => rfl
  | cons call rest ih => simp [Call.makeAll, make_of_closed hclosed, ih]

theorem isRegular_makeAll (document : Document) (calls : List Call) :
    ∀ answer ∈ (Call.makeAll calls document).2, answer.IsRegular := by
  induction calls generalizing document with
  | nil => exact nofun
  | cons call rest ih =>
      intro answer hmem
      rcases List.mem_cons.mp hmem with rfl | hmem
      · exact isRegular_make document call
      · exact ih _ answer hmem

end RobotDescription.Document
