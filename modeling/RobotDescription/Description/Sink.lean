import RobotDescription.Description.Directive
import RobotDescription.Log.Note

/-!
# Sinks

A sink takes directives in order until it is closed. Every call answers with the sink as it is
afterwards, also when it fails.
-/

namespace RobotDescription

/-- What must not happen: a caller has broken a promise, or a count has fallen below zero. -/
inductive Fault where
  | invalidParameterName (name : String)
  | disabledDecoration
  | negativeCount
deriving DecidableEq, Repr

def Fault.message : Fault → String
  | .invalidParameterName name => "invalid parameter name '" ++ name ++ "'"
  | .disabledDecoration => "disabled decorations are filtered by the caller"
  | .negativeCount => "attempt to subtract with overflow"

/-- Why a sink has refused a call. -/
inductive SinkError where
  | closed
  | io
  | persist (target : Path)
  | fault (fault : Fault)
deriving DecidableEq, Repr

/-- What a user is told; the system's own words are left out. -/
def SinkError.message : SinkError → String
  | .closed => "output document is closed"
  | .io => "I/O error writing output"
  | .persist target => "failed to persist output to " ++ target.text
  | .fault f => f.message

/-- The answer to one call: the sink afterwards, whether the call succeeded, and what was worth
reporting. -/
structure Reply (σ : Type) where
  sink : σ
  result : Except SinkError Unit
  notes : List Note := []

/-- Something that directives can be written to, those of each kind by a method of their own. After
a close that succeeds, every call fails with `closed`. -/
class Sink (σ : Type) where
  writeInclusion (package file path : String) : σ → Reply σ
  writeCall (macroName : String) (arguments : Arguments) (blocks : List Block) : σ → Reply σ
  writeComment (text : String) : σ → Reply σ
  writeBlank : σ → Reply σ
  close : σ → Reply σ

namespace Sink

/-- Writes a directive by the method for its kind. -/
def write {σ : Type} [Sink σ] : Directive → σ → Reply σ
  | .inclusion package file path => writeInclusion package file path
  | .call macroName arguments blocks => writeCall macroName arguments blocks
  | .comment text => writeComment text
  | .blank => writeBlank

/-- Writes directives in order up to the first that fails. -/
def writeAll {σ : Type} [Sink σ] : List Directive → σ → Reply σ
  | [], sink => ⟨sink, .ok (), []⟩
  | directive :: rest, sink =>
    let reply := write directive sink
    match reply.result with
    | .error e => ⟨reply.sink, .error e, reply.notes⟩
    | .ok () =>
      let later := writeAll rest reply.sink
      ⟨later.sink, later.result, reply.notes ++ later.notes⟩

end Sink

end RobotDescription
