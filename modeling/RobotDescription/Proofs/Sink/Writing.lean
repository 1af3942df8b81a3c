import RobotDescription.Generation.Run

/-!
# What a generation does to a sink

The notes of a plan leave a sink alone, so carrying out its steps is writing its directives in
order. A document takes any directives while it is open, and refuses the first of them once it is
closed.
-/

namespace RobotDescription

variable {σ : Type} [Sink σ]

namespace Generation

/-- Carrying out the steps of a plan writes the directives that it puts. -/
theorem perform_eq_writeAll {α : Type} (plan : Plan α) (sink : σ) :
    (perform plan.steps sink).sink = (Sink.writeAll plan.directives sink).sink ∧
      (perform plan.steps sink).result = (Sink.writeAll plan.directives sink).result := by
  obtain ⟨steps, outcome⟩ := plan
  induction steps generalizing sink with
  | nil => exact ⟨rfl, rfl⟩
  | cons step rest ih =>
      cases step with
      | note note => exact ih sink
      | write directive =>
          change (perform (.write directive :: rest) sink).sink =
              (Sink.writeAll (directive :: (⟨rest, outcome⟩ : Plan α).directives) sink).sink ∧
            (perform (.write directive :: rest) sink).result =
              (Sink.writeAll (directive :: (⟨rest, outcome⟩ : Plan α).directives) sink).result
          simp only [perform, Sink.writeAll]
          cases (Sink.write directive sink).result with
          | error error => exact ⟨rfl, rfl⟩
          | ok => exact ih _

theorem directives_plan_cons (config : RobotConfig) :
    ∃ rest, (plan config).directives = commonInclusion :: rest :=
  ⟨_, rfl⟩

end Generation

theorem generate_of_refused {config : RobotConfig} {sink : σ} {error : SinkError}
    (hwritten : (Sink.writeAll (Generation.plan config).directives sink).result = .error error) :
    (generate config sink).sink =
        (Sink.writeAll (Generation.plan config).directives sink).sink ∧
      (generate config sink).result = .error (.sink error) := by
  obtain ⟨hsink, hresult⟩ := Generation.perform_eq_writeAll (Generation.plan config) sink
  rw [hwritten] at hresult
  simp [generate, hresult, hsink]

theorem generate_of_stopped {config : RobotConfig} {sink : σ} {error : GenerationError}
    (hwritten : (Sink.writeAll (Generation.plan config).directives sink).result = .ok ())
    (houtcome : (Generation.plan config).outcome = .error error) :
    (generate config sink).sink =
        (Sink.writeAll (Generation.plan config).directives sink).sink ∧
      (generate config sink).result = .error error := by
  obtain ⟨hsink, hresult⟩ := Generation.perform_eq_writeAll (Generation.plan config) sink
  rw [hwritten] at hresult
  simp [generate, hresult, hsink, houtcome]

/-- A plan that ends well is written as a whole, and then the sink is closed. -/
theorem generate_of_written {config : RobotConfig} {sink : σ} {summary : Summary}
    (hwritten : (Sink.writeAll (Generation.plan config).directives sink).result = .ok ())
    (houtcome : (Generation.plan config).outcome = .ok summary) :
    let closing := Sink.close (Sink.writeAll (Generation.plan config).directives sink).sink
    (generate config sink).sink = closing.sink ∧
      (generate config sink).result =
        match closing.result with
        | .ok () => .ok summary
        | .error error => .error (.sink error) := by
  intro closing
  obtain ⟨hsink, hresult⟩ := Generation.perform_eq_writeAll (Generation.plan config) sink
  rw [hwritten] at hresult
  cases hclosing : closing.result <;>
    simp [generate, hresult, hsink, houtcome, closing, hclosing]

namespace Document

variable {document : Document}

theorem write_of_open (hopen : document.closed = false) (directive : Directive) :
    Sink.write directive document =
      ⟨{ document with directives := document.directives ++ [directive] }, .ok (), []⟩ := by
  simp [write_eq_push, push, hopen]

theorem write_of_closed (hclosed : document.closed = true) (directive : Directive) :
    Sink.write directive document = ⟨document, .error .closed, []⟩ := by
  simp [write_eq_push, push, hclosed]

theorem close_of_open (hopen : document.closed = false) :
    Sink.close document = ⟨{ document with closed := true }, .ok (), []⟩ := by
  simp [Sink.close, close, hopen]

theorem close_of_closed (hclosed : document.closed = true) :
    Sink.close document = ⟨document, .error .closed, []⟩ := by
  simp [Sink.close, close, hclosed]

theorem writeAll_of_open (hopen : document.closed = false) (directives : List Directive) :
    (Sink.writeAll directives document).sink =
        { document with directives := document.directives ++ directives } ∧
      (Sink.writeAll directives document).result = .ok () := by
  induction directives generalizing document with
  | nil => simp [Sink.writeAll]
  | cons directive rest ih =>
      let longer : Document := { document with directives := document.directives ++ [directive] }
      obtain ⟨hsink, hresult⟩ := @ih longer hopen
      simp [Sink.writeAll, write_of_open hopen, hsink, hresult, longer]

theorem writeAll_of_closed (hclosed : document.closed = true) (directive : Directive)
    (rest : List Directive) :
    (Sink.writeAll (directive :: rest) document).sink = document ∧
      (Sink.writeAll (directive :: rest) document).result = .error .closed := by
  simp [Sink.writeAll, write_of_closed hclosed]

theorem replay_of_open (hopen : document.closed = false) (source : Document) :
    (source.replay document).sink =
        ⟨document.directives ++ source.directives, source.closed⟩ ∧
      (source.replay document).result = .ok () := by
  obtain ⟨hsink, hwritten⟩ := writeAll_of_open hopen source.directives
  let full : Document :=
    { document with directives := document.directives ++ source.directives }
  have hclose : Sink.close full = ⟨{ full with closed := true }, .ok (), []⟩ :=
    close_of_open hopen
  cases hsource : source.closed with
  | false => simp [replay, hsource, hwritten, hsink, hopen]
  | true => simp [replay, hsource, hwritten, hsink, full, hclose]

/-- A closed document refuses whatever is replayed into it, unless that is nothing at all. -/
theorem replay_of_closed (hclosed : document.closed = true) (source : Document) :
    (source.replay document).sink = document ∧
      (source.replay document).result =
        if source = empty then .ok () else .error .closed := by
  obtain ⟨directives, ended⟩ := source
  cases directives with
  | nil =>
      have hclose := close_of_closed hclosed
      cases ended <;> simp [replay, Sink.writeAll, hclose, empty]
  | cons directive rest =>
      obtain ⟨hsink, hwritten⟩ := writeAll_of_closed hclosed directive rest
      simp [replay, hwritten, hsink, empty]

/-- An open document gets all that the plan puts, and is closed exactly if the plan ends well. -/
theorem generate_of_open (hopen : document.closed = false) (config : RobotConfig) :
    (generate config document).sink =
        ⟨document.directives ++ (Generation.plan config).directives,
          (Generation.plan config).outcome.isOk⟩ ∧
      (generate config document).result = (Generation.plan config).outcome := by
  obtain ⟨hsink, hwritten⟩ := writeAll_of_open hopen (Generation.plan config).directives
  cases houtcome : (Generation.plan config).outcome with
  | error error =>
      obtain ⟨hend, hresult⟩ := generate_of_stopped hwritten houtcome
      exact ⟨by rw [hend, hsink, hopen]; rfl, hresult⟩
  | ok summary =>
      obtain ⟨hend, hresult⟩ := generate_of_written hwritten houtcome
      let full : Document :=
        { document with directives := document.directives ++ (Generation.plan config).directives }
      have hclose : Sink.close full = ⟨{ full with closed := true }, .ok (), []⟩ :=
        close_of_open hopen
      rw [hsink, hclose] at hend hresult
      exact ⟨hend, hresult⟩

theorem generate_of_closed (hclosed : document.closed = true) (config : RobotConfig) :
    (generate config document).sink = document ∧
      (generate config document).result = .error (.sink .closed) := by
  obtain ⟨rest, hplan⟩ := Generation.directives_plan_cons config
  obtain ⟨hsink, hresult⟩ := writeAll_of_closed hclosed Generation.commonInclusion rest
  rw [← hplan] at hsink hresult
  obtain ⟨hend, herror⟩ := generate_of_refused hresult
  exact ⟨hend.trans hsink, herror⟩

end Document

end RobotDescription
