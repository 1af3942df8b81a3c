import RobotDescription.Generation.Run
import RobotDescription.Xacro.Writer

/-!
# Streaming a description

A description can be written to a stream. It is first generated in memory, so nothing reaches the
stream unless every entity has been resolved.
-/

namespace RobotDescription.Xacro

/-- What a stream has received, how the generation ended, and what was reported. -/
structure Streamed where
  destination : Destination
  result : Except GenerationError Summary
  notes : List Note

/-- Generates a description in memory and replays it into a writer on the destination. -/
def stream (config : RobotConfig) (destination : Destination) : Streamed :=
  let generated := generate config Document.empty
  match generated.result with
  | .error e => ⟨destination, .error e, generated.notes⟩
  | .ok summary =>
    match Writer.create destination config.serialNumber with
    | .error full => ⟨full, .error (.sink .io), generated.notes⟩
    | .ok writer =>
      let replayed := generated.sink.replay writer
      ⟨replayed.sink.destination,
        match replayed.result with
        | .ok () => .ok summary
        | .error e => .error (.sink e),
        generated.notes ++ replayed.notes⟩

end RobotDescription.Xacro
