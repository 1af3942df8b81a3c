import Mathlib.Logic.Function.Basic
import RobotDescription.Proofs.Xacro.Images

/-!
# Replays

Documents lie side by side on a desk, are written, and are replayed into one another. A replay copies
a document as a whole into one that is open and leaves one that is closed as it is. Into a writer it
goes up to the first macro with a name that cannot be written, and all that precedes this macro stays
written.
-/

namespace RobotDescription

/-- Documents side by side, told apart by numbers. -/
abbrev Desk := Nat → Document

/-- What is done at a desk: a call is made on one of the documents, or one of them is replayed into
another. -/
inductive Move where
  | call (target : Nat) (call : Call)
  | replay (source target : Nat)

namespace Desk

/-- All documents are new. -/
def blank : Desk := fun _ => .empty

/-- Makes a call on one of the documents; the others stay as they are. -/
def make (desk : Desk) (target : Nat) (call : Call) : Desk × Answer :=
  (Function.update desk target (call.make (desk target)).1, (call.make (desk target)).2)

def perform (desk : Desk) : Move → Desk × Answer
  | .call target call => desk.make target call
  | .replay source target => desk.make target (.replay (desk source))

/-- The desk after moves, whatever they answer. -/
def after (moves : List Move) : Desk :=
  moves.foldl (fun desk move => (desk.perform move).1) blank

variable {desk : Desk} {source target : Nat}

theorem make_of_ne (call : Call) {other : Nat} (hne : other ≠ target) :
    (desk.make target call).1 other = desk other :=
  Function.update_of_ne hne _ desk

theorem perform_replay_of_open (hopen : (desk target).closed = false) :
    (desk.perform (.replay source target)).1 target =
        ⟨(desk target).directives ++ (desk source).directives, (desk source).closed⟩ ∧
      (desk.perform (.replay source target)).2 = .ok none := by
  obtain ⟨hsink, hresult⟩ := Document.replay_of_open hopen (desk source)
  constructor
  · exact (Function.update_self _ _ desk).trans hsink
  · rw [perform, make, Call.make, Reply.answered, hresult]

/-- Nothing on the desk changes when a document is replayed into a closed one. -/
theorem perform_replay_of_closed (hclosed : (desk target).closed = true) :
    desk.perform (.replay source target) =
      (desk, if desk source = .empty then .ok none else .error (.sink .closed)) := by
  rw [perform, make, Document.make_of_closed hclosed, Function.update_eq_self]
  rfl

end Desk

/-- An argument that cannot be written is the first one of the first macro that has any. -/
structure Document.FirstInvalid (document : Document) (before : List Directive)
    (invalid : String) : Prop where
  namesValid : ∀ directive ∈ before, directive.NamesValid
  exists_call : ∃ name arguments blocks rest front back,
    document.directives = before ++ .call name arguments blocks :: rest ∧
    arguments.names = front ++ invalid :: back ∧
    (∀ argument ∈ front, ParameterName.isValid argument = true) ∧
    ParameterName.isValid invalid = false

theorem Directive.exists_call_of_not_namesValid {directive : Directive}
    (hinvalid : ¬ directive.NamesValid) :
    ∃ name arguments blocks, directive = .call name arguments blocks ∧
      ∃ argument ∈ arguments.names, ¬ ParameterName.isValid argument = true := by
  cases directive with
  | call name arguments blocks =>
      refine ⟨name, arguments, blocks, rfl, ?_⟩
      simpa [NamesValid] using hinvalid
  | _ => exact absurd trivial hinvalid

theorem Document.exists_firstInvalid {document : Document}
    (hinvalid : ∃ directive ∈ document.directives, ¬ directive.NamesValid) :
    ∃ before invalid, document.FirstInvalid before invalid := by
  obtain ⟨before, directive, rest, hsplit, hbefore, hdirective⟩ := exists_first_not hinvalid
  obtain ⟨name, arguments, blocks, rfl, hargument⟩ :=
    Directive.exists_call_of_not_namesValid hdirective
  obtain ⟨front, invalid, back, hnames, hfront, hfirst⟩ := exists_first_not hargument
  exact ⟨before, invalid, hbefore, name, arguments, blocks, rest, front, back, hsplit, hnames,
    hfront, Bool.eq_false_iff.mpr hfirst⟩

namespace Xacro.Writer

/-- The writer that has written more. -/
def extended (writer : Writer) (text : String) : Writer :=
  { writer with destination := { writer.destination with
      stored := writer.destination.stored ++ text.toUTF8 } }

theorem invalidName?_of_first {arguments : Arguments} {front back : List String}
    {invalid : String} (hnames : arguments.names = front ++ invalid :: back)
    (hfront : ∀ argument ∈ front, ParameterName.isValid argument = true)
    (hinvalid : ParameterName.isValid invalid = false) :
    invalidName? arguments = some invalid := by
  have hskipped : front.find? (fun argument => !ParameterName.isValid argument) = none := by
    refine List.find?_eq_none.mpr fun argument hmem => ?_
    simp [hfront argument hmem]
  rw [invalidName?, hnames, List.find?_append, hskipped, Option.none_or,
    List.find?_cons_of_pos (by simp [hinvalid])]

section Open

variable {writer : Writer} (hopen : writer.closed = false)
  (hreliable : writer.destination.NeverFails)
include hopen hreliable

theorem append_of_open (text : String) :
    writer.append text = ⟨writer.extended text, .ok (), []⟩ := by
  simp [append, extended, Destination.write_of_neverFails hreliable, hopen]

omit hopen hreliable in
theorem extended_extended (first second : String) :
    (writer.extended first).extended second = writer.extended (first ++ second) := by
  simp [extended, String.toByteArray_append, ByteArray.append_assoc]

/-- Directives that can be written are written one after the other. -/
theorem writeAll_append {directives : List Directive}
    (hvalid : ∀ directive ∈ directives, directive.NamesValid) (rest : List Directive) :
    Sink.writeAll (directives ++ rest) writer =
      Sink.writeAll rest (writer.extended (String.join (directives.map directiveText))) := by
  induction directives generalizing writer with
  | nil => simp [extended]
  | cons directive more ih =>
      obtain ⟨hfirst, hmore⟩ := List.forall_mem_cons.mp hvalid
      have hwrite : Sink.write directive writer =
          ⟨writer.extended (directiveText directive), .ok (), []⟩ := by
        rw [write_of_namesValid hfirst]
        exact append_of_open hopen hreliable _
      have hlater := @ih (writer.extended (directiveText directive)) hopen (hreliable.of_stored _)
        hmore
      rw [List.cons_append, Sink.writeAll, hwrite]
      dsimp only
      rw [hlater, extended_extended, List.map_cons, String.join_cons, List.nil_append]

/-- A replay ends at the first macro that cannot be written, in the middle of an open description. -/
theorem replay_of_firstInvalid {document : Document} {before : List Directive} {invalid : String}
    (hfirst : document.FirstInvalid before invalid) :
    document.replay writer = ⟨writer.extended (String.join (before.map directiveText)),
      .error (.fault (.invalidParameterName invalid)), []⟩ := by
  obtain ⟨hbefore, name, arguments, blocks, rest, front, back, hsplit, hnames, hfront, hinvalid⟩ :=
    hfirst
  have hwritten : Sink.writeAll document.directives writer =
      ⟨writer.extended (String.join (before.map directiveText)),
        .error (.fault (.invalidParameterName invalid)), []⟩ := by
    rw [hsplit, writeAll_append hopen hreliable hbefore, Sink.writeAll]
    simp [Sink.write, Sink.writeCall, writeCall, invalidName?_of_first hnames hfront hinvalid]
  simp [Document.replay, hwritten]

end Open

end Xacro.Writer

/-- At any time a document that is open gets all that a replayed one holds, behind its own, and is
closed with it; one that is closed refuses everything but nothing at all. No other document changes,
the replayed one least of all, and a new one becomes its copy. Into an open writer whose destination
never fails a document with a name that cannot be written is replayed up to the first macro with such
a name; the first such name is the fault, and the writer stays open. -/
theorem replay_faithful (moves : List Move) (source target : Nat) :
    let desk := Desk.after moves
    let (next, answer) := desk.perform (.replay source target)
    (∀ other, other ≠ target → next other = desk other) ∧
    ((desk target).closed = false → answer = .ok none ∧
      next target =
        ⟨(desk target).directives ++ (desk source).directives, (desk source).closed⟩) ∧
    ((desk target).closed = true → next = desk ∧
      answer = if desk source = .empty then .ok none else .error (.sink .closed)) ∧
    (desk target = .empty → next target = desk source) ∧
    ((∃ name arguments blocks, .call name arguments blocks ∈ (desk source).directives ∧
        ∃ argument ∈ arguments.names, ParameterName.isValid argument = false) →
      ∃ before invalid, (desk source).FirstInvalid before invalid ∧
        ∀ writer : Xacro.Writer, writer.closed = false → writer.destination.NeverFails →
          let reply := (desk source).replay writer
          reply.result = .error (.fault (.invalidParameterName invalid)) ∧
          reply.sink.destination.stored = writer.destination.stored ++
            (String.join (before.map Xacro.directiveText)).toUTF8 ∧
          reply.sink.closed = false) := by
  intro desk
  have hopen := @Desk.perform_replay_of_open desk source target
  have hclosed := @Desk.perform_replay_of_closed desk source target
  refine ⟨fun other hne => Desk.make_of_ne _ hne, fun h => (hopen h).symm, fun h => ?_, fun h => ?_,
    ?_⟩
  · exact ⟨congrArg Prod.fst (hclosed h), congrArg Prod.snd (hclosed h)⟩
  · have hcopy := (hopen (congrArg Document.closed h)).1
    rwa [h] at hcopy
  · rintro ⟨name, arguments, blocks, hmem, argument, hargument, hinvalid⟩
    obtain ⟨before, invalid, hfirst⟩ := @Document.exists_firstInvalid (desk source)
      ⟨_, hmem, fun hvalid => absurd (hvalid argument hargument) (by simp [hinvalid])⟩
    refine ⟨before, invalid, hfirst, fun writer hstate hreliable => ?_⟩
    intro reply
    have hreply : reply = _ := Xacro.Writer.replay_of_firstInvalid hstate hreliable hfirst
    rw [hreply]
    exact ⟨rfl, rfl, hstate⟩

end RobotDescription
