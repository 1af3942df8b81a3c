import RobotDescription.Description.Sink

/-!
# Documents

A description held in memory: the directives written so far. A document accepts any directive
while it is open, and can be replayed into another sink.
-/

namespace RobotDescription

/-- The directives of a description, and whether it is complete. -/
structure Document where
  directives : List Directive := []
  closed : Bool := false
deriving DecidableEq

namespace Document

/-- A new document. -/
def empty : Document := {}

/-- Appends a directive while the document is open. -/
def push (directive : Directive) (document : Document) : Reply Document :=
  if document.closed then ⟨document, .error .closed, []⟩
  else ⟨{ document with directives := document.directives ++ [directive] }, .ok (), []⟩

def close (document : Document) : Reply Document :=
  if document.closed then ⟨document, .error .closed, []⟩
  else ⟨{ document with closed := true }, .ok (), []⟩

instance : Sink Document where
  writeInclusion package file path := push (.inclusion package file path)
  writeCall macroName arguments blocks := push (.call macroName arguments blocks)
  writeComment text := push (.comment text)
  writeBlank := push .blank
  close := close

/-- A document takes directives of all kinds alike. -/
theorem write_eq_push (directive : Directive) :
    (Sink.write directive : Document → Reply Document) = push directive := by
  cases directive <;> rfl

/-- Writes the directives into another sink in order, and closes it if the document is closed. The
first failure ends the replay. -/
def replay {σ : Type} [Sink σ] (document : Document) (sink : σ) : Reply σ :=
  let written := Sink.writeAll document.directives sink
  match written.result, document.closed with
  | .ok (), true =>
    let closing := Sink.close written.sink
    ⟨closing.sink, closing.result, written.notes ++ closing.notes⟩
  | _, _ => written

def macroNames (document : Document) : List String :=
  document.directives.filterMap Directive.macroName?

def inclusionCount (document : Document) : Nat :=
  document.directives.countP Directive.isInclusion

def sameValue (a b : Document) : Bool :=
  allMatch Directive.sameValue a.directives b.directives && a.closed == b.closed

end Document

end RobotDescription
