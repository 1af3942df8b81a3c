import RobotDescription.Description.Document
import RobotDescription.Generation.Plan

/-!
# Generation

A plan is carried out on a sink step by step. The sink is closed only after every step has
succeeded, so an unsupported entity leaves it open with what was written before.
-/

namespace RobotDescription

/-- The end of a generation: the sink afterwards, the summary or the error, and what was reported.
-/
structure Generated (σ : Type) where
  sink : σ
  result : Except GenerationError Summary
  notes : List Note

namespace Generation

/-- Carries out steps in order up to the first that fails. -/
def perform {σ : Type} [Sink σ] : List Step → σ → Reply σ
  | [], sink => ⟨sink, .ok (), []⟩
  | .note note :: rest, sink =>
    let later := perform rest sink
    ⟨later.sink, later.result, note :: later.notes⟩
  | .write directive :: rest, sink =>
    let reply := Sink.write directive sink
    match reply.result with
    | .error e => ⟨reply.sink, .error e, reply.notes⟩
    | .ok () =>
      let later := perform rest reply.sink
      ⟨later.sink, later.result, reply.notes ++ later.notes⟩

end Generation

/-- Generates the description of a configuration into a sink. -/
def generate {σ : Type} [Sink σ] (config : RobotConfig) (sink : σ) : Generated σ :=
  let plan := Generation.plan config
  let written := Generation.perform plan.steps sink
  match written.result, plan.outcome with
  | .error e, _ => ⟨written.sink, .error (.sink e), written.notes⟩
  | .ok (), .error e => ⟨written.sink, .error e, written.notes⟩
  | .ok (), .ok summary =>
    let closing := Sink.close written.sink
    let notes := written.notes ++ closing.notes
    match closing.result with
    | .error e => ⟨closing.sink, .error (.sink e), notes⟩
    | .ok () => ⟨closing.sink, .ok summary, notes ++ [.generated summary]⟩

end RobotDescription
