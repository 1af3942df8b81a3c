import RobotDescription.Proofs.Generation.ParameterNames

/-!
# Sequences of calls on a sink

A program writes directives to a sink, closes it, replays documents into it and generates
configurations into it, in any order. An image under which every single write and close of one kind
of sink is answered alike by another is kept by all such sequences: replays and generations are
made of writes and closes, and stop at the same one.
-/

namespace RobotDescription

variable {σ τ : Type} [Sink σ] [Sink τ]

/-- A call that a program makes on a sink: one of its methods, a directive of any kind, a replay or
a generation. -/
inductive Call where
  | writeInclusion (package file path : String)
  | writeCall (macroName : String) (arguments : Arguments) (blocks : List Block)
  | writeComment (text : String)
  | writeBlank
  | write (directive : Directive)
  | close
  | replay (document : Document)
  | generate (config : RobotConfig)

/-- What a program learns from a call; only a generation that succeeds has a summary. -/
abbrev Answer := Except GenerationError (Option Summary)

/-- An answer that a sink whose destination never fails may give. -/
def Answer.IsRegular : Answer → Prop
  | .ok _ => True
  | .error (.sink .closed) => True
  | .error (.unsupported _) => True
  | .error _ => False

/-- The sink after a single write or close or a replay, with the answer. -/
def Reply.answered (reply : Reply σ) : σ × Answer :=
  (reply.sink, match reply.result with
    | .ok () => .ok none
    | .error error => .error (.sink error))

namespace Call

def make : Call → σ → σ × Answer
  | .writeInclusion package file path, sink => (Sink.writeInclusion package file path sink).answered
  | .writeCall macroName arguments blocks, sink =>
    (Sink.writeCall macroName arguments blocks sink).answered
  | .writeComment text, sink => (Sink.writeComment text sink).answered
  | .writeBlank, sink => (Sink.writeBlank sink).answered
  | .write directive, sink => (Sink.write directive sink).answered
  | .close, sink => (Sink.close sink).answered
  | .replay document, sink => (document.replay sink).answered
  | .generate config, sink =>
    let generated := RobotDescription.generate config sink
    (generated.sink, generated.result.map some)

/-- Makes calls one after the other, whatever they answer. -/
def makeAll : List Call → σ → σ × List Answer
  | [], sink => (sink, [])
  | call :: rest, sink =>
    let first := call.make sink
    let later := makeAll rest first.1
    (later.1, first.2 :: later.2)

/-- The answer of a closed sink: a refusal, unless nothing is replayed. -/
def answerOfClosed : Call → Answer
  | .replay document => if document = .empty then .ok none else .error (.sink .closed)
  | _ => .error (.sink .closed)

/-- Every macro that the call may write has argument names that can be written. -/
def NamesValid : Call → Prop
  | .writeCall macroName arguments blocks =>
    (Directive.call macroName arguments blocks).NamesValid
  | .writeInclusion .. | .writeComment _ | .writeBlank => True
  | .write directive => directive.NamesValid
  | .close => True
  | .replay document => ∀ directive ∈ document.directives, directive.NamesValid
  | .generate config => config.NamesValid

/-- The directive that a call writes, if it writes a single one. -/
def directive? : Call → Option Directive
  | .writeInclusion package file path => some (.inclusion package file path)
  | .writeCall macroName arguments blocks => some (.call macroName arguments blocks)
  | .writeComment text => some (.comment text)
  | .writeBlank => some .blank
  | .write directive => some directive
  | _ => none

section Single

variable {call : Call} {directive : Directive} (hsingle : call.directive? = some directive)
include hsingle

/-- A method does what writing a directive of its kind does. -/
theorem make_eq_write (sink : σ) : call.make sink = (Sink.write directive sink).answered := by
  cases call <;> cases hsingle <;> rfl

theorem namesValid_iff : call.NamesValid ↔ directive.NamesValid := by
  cases call <;> cases hsingle <;> rfl

end Single

end Call

/-- The image of a sink answers every write of a valid directive, and every close, as the sink
does, and becomes the image of what the sink becomes. -/
structure Mirrors (image : σ → τ) : Prop where
  write : ∀ directive sink, directive.NamesValid →
    (Sink.write directive (image sink)).sink = image (Sink.write directive sink).sink ∧
      (Sink.write directive (image sink)).result = (Sink.write directive sink).result
  close : ∀ sink, (Sink.close (image sink)).sink = image (Sink.close sink).sink ∧
    (Sink.close (image sink)).result = (Sink.close sink).result

namespace Mirrors

variable {image : σ → τ} (hmirrors : Mirrors image)
include hmirrors

theorem writeAll (directives : List Directive) (sink : σ)
    (hvalid : ∀ directive ∈ directives, directive.NamesValid) :
    (Sink.writeAll directives (image sink)).sink =
        image (Sink.writeAll directives sink).sink ∧
      (Sink.writeAll directives (image sink)).result =
        (Sink.writeAll directives sink).result := by
  induction directives generalizing sink with
  | nil => exact ⟨rfl, rfl⟩
  | cons directive rest ih =>
      obtain ⟨hsink, hresult⟩ := hmirrors.write directive sink (hvalid _ List.mem_cons_self)
      have hrest := fun next =>
        ih next fun other hother => hvalid other (List.mem_cons_of_mem _ hother)
      simp only [Sink.writeAll, hresult, hsink]
      cases (Sink.write directive sink).result with
      | error error => exact ⟨rfl, rfl⟩
      | ok => exact hrest _

theorem replay (document : Document) (sink : σ)
    (hvalid : ∀ directive ∈ document.directives, directive.NamesValid) :
    (document.replay (image sink)).sink = image (document.replay sink).sink ∧
      (document.replay (image sink)).result = (document.replay sink).result := by
  obtain ⟨hsink, hresult⟩ := hmirrors.writeAll document.directives sink hvalid
  obtain ⟨hend, hclose⟩ := hmirrors.close (Sink.writeAll document.directives sink).sink
  cases hwritten : (Sink.writeAll document.directives sink).result <;>
    cases hclosed : document.closed <;>
      simp [Document.replay, hresult, hwritten, hclosed, hsink, hend, hclose]

theorem generate (config : RobotConfig) (sink : σ) (hvalid : config.NamesValid) :
    (RobotDescription.generate config (image sink)).sink =
        image (RobotDescription.generate config sink).sink ∧
      (RobotDescription.generate config (image sink)).result =
        (RobotDescription.generate config sink).result := by
  obtain ⟨hsink, hresult⟩ := hmirrors.writeAll (Generation.plan config).directives sink
    (Generation.namesValid_of_mem_plan hvalid)
  -- the plan does not depend on the sink, so both sinks stop at the same point of it
  cases hwritten : (Sink.writeAll (Generation.plan config).directives sink).result with
  | error error =>
      rw [hwritten] at hresult
      obtain ⟨hend, herror⟩ := generate_of_refused hwritten
      obtain ⟨hend', herror'⟩ := generate_of_refused hresult
      exact ⟨by rw [hend', hend, hsink], by rw [herror', herror]⟩
  | ok =>
      rw [hwritten] at hresult
      cases houtcome : (Generation.plan config).outcome with
      | error error =>
          obtain ⟨hend, herror⟩ := generate_of_stopped hwritten houtcome
          obtain ⟨hend', herror'⟩ := generate_of_stopped hresult houtcome
          exact ⟨by rw [hend', hend, hsink], by rw [herror', herror]⟩
      | ok summary =>
          obtain ⟨hend, hdone⟩ := generate_of_written hwritten houtcome
          obtain ⟨hend', hdone'⟩ := generate_of_written hresult houtcome
          obtain ⟨hclose, hanswer⟩ :=
            hmirrors.close (Sink.writeAll (Generation.plan config).directives sink).sink
          exact ⟨by rw [hend', hend, hsink, hclose], by rw [hdone', hdone, hsink, hanswer]⟩

theorem make_write {call : Call} {directive : Directive} (sink : σ)
    (hsingle : call.directive? = some directive) (hvalid : call.NamesValid) :
    call.make (image sink) = (image (call.make sink).1, (call.make sink).2) := by
  obtain ⟨hsink, hresult⟩ :=
    hmirrors.write directive sink ((Call.namesValid_iff hsingle).mp hvalid)
  simp [Call.make_eq_write hsingle, Reply.answered, hsink, hresult]

theorem make (call : Call) (sink : σ) (hvalid : call.NamesValid) :
    call.make (image sink) = (image (call.make sink).1, (call.make sink).2) := by
  cases call with
  | close =>
      obtain ⟨hsink, hresult⟩ := hmirrors.close sink
      simp [Call.make, Reply.answered, hsink, hresult]
  | replay document =>
      obtain ⟨hsink, hresult⟩ := hmirrors.replay document sink hvalid
      simp [Call.make, Reply.answered, hsink, hresult]
  | generate config =>
      obtain ⟨hsink, hresult⟩ := hmirrors.generate config sink hvalid
      simp [Call.make, hsink, hresult]
  | _ => exact hmirrors.make_write sink rfl hvalid

/-- Any sequence of calls leads from image to image with the same answers. -/
theorem makeAll (calls : List Call) (sink : σ) (hvalid : ∀ call ∈ calls, call.NamesValid) :
    Call.makeAll calls (image sink) =
      (image (Call.makeAll calls sink).1, (Call.makeAll calls sink).2) := by
  induction calls generalizing sink with
  | nil => rfl
  | cons call rest ih =>
      have hcall := hmirrors.make call sink (hvalid _ List.mem_cons_self)
      have hrest := ih (call.make sink).1 fun other hother =>
        hvalid other (List.mem_cons_of_mem _ hother)
      simp [Call.makeAll, hcall, hrest]

end Mirrors

end RobotDescription
