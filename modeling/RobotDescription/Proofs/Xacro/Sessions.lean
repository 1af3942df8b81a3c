import RobotDescription.Proofs.Config.Acceptance
import RobotDescription.Proofs.Xacro.Drafts

/-!
# Sessions

Any number of description files of one directory are created, written, closed and dropped in any
order, on a system that may refuse any call. A ledger takes down what was called and answered, and
nothing else: it does not see the file system.
-/

namespace RobotDescription.Xacro

/-- Description files in the order in which they were opened, and the file system they share. -/
structure Session where
  files : FileSystem
  sinks : List DescriptionFile := []

/-- A step in the life of a sink. The name and the device of a new one, and whether its close is
refused, are up to the system. -/
inductive Act where
  | create (serial name : String) (device : Destination)
  | write (index : Nat) (directive : Directive)
  | close (index : Nat) (refusal : Option SinkError)
  | drop (index : Nat)

/-- The serial number of some configuration that is accepted. -/
def IsAccepted (serial : String) : Prop :=
  ∃ config : RobotConfig, config.IsValid ∧ config.serialNumber = serial

theorem IsAccepted.slash_not_mem {serial : String} (haccepted : IsAccepted serial) :
    '/' ∉ serial.toList := by
  obtain ⟨config, hvalid, rfl⟩ := haccepted
  exact (RobotConfig.isValid_iff_isSound.mp hvalid).serial.slash

/-- A sink is created for a serial number that is accepted. Its temporary file does not have the name
of a description, and its device does not take parts of what it refuses for the time being. -/
def Act.IsSound : Act → Prop
  | .create serial name device =>
    IsAccepted serial ∧ ¬ IsDescriptionName name ∧ device.RefusesWhole
  | _ => True

namespace Session

variable {session : Session} {index : Nat} {file : DescriptionFile}
  {call : FileSink → FileSink × Except SinkError Unit}

/-- Makes a call on one of the sinks. One that is not there answers as a closed one. -/
def onSink (session : Session) (index : Nat)
    (call : FileSink → FileSink × Except SinkError Unit) : Session × Except SinkError Unit :=
  match session.sinks[index]? with
  | none => (session, .error .closed)
  | some file =>
    let (sink, answer) := call ⟨session.files, file⟩
    (⟨sink.files, session.sinks.set index sink.file⟩, answer)

def perform (directory : Path) (session : Session) : Act → Session × Except SinkError Unit
  | .create serial name device =>
    match DescriptionFile.createAs session.files directory serial name device with
    | (files, .error error) => (⟨files, session.sinks⟩, .error error)
    | (files, .ok file) => (⟨files, session.sinks ++ [file]⟩, .ok ())
  | .write index directive =>
    session.onSink index fun sink =>
      ((Sink.write directive sink).sink, (Sink.write directive sink).result)
  | .close index refusal => session.onSink index (FileSink.closeUnder refusal)
  | .drop index =>
    session.onSink index fun sink =>
      (⟨sink.file.drop sink.files, { sink.file with draft := none }⟩, .ok ())

theorem onSink_of_some (hsink : session.sinks[index]? = some file) :
    session.onSink index call =
      (⟨(call ⟨session.files, file⟩).1.files,
          session.sinks.set index (call ⟨session.files, file⟩).1.file⟩,
        (call ⟨session.files, file⟩).2) := by
  simp [onSink, hsink]

theorem onSink_eq_self
    (hcall : ∀ file, session.sinks[index]? = some file →
      (call ⟨session.files, file⟩).1 = ⟨session.files, file⟩) :
    (session.onSink index call).1 = session := by
  cases hsink : session.sinks[index]? with
  | none => simp [onSink, hsink]
  | some file =>
      obtain ⟨hlt, rfl⟩ := List.getElem?_eq_some_iff.mp hsink
      rw [onSink_of_some hsink, hcall _ hsink, List.set_getElem_self hlt]

theorem onSink_of_closed
    (hcall : ∀ file, session.sinks[index]? = some file →
      call ⟨session.files, file⟩ = (⟨session.files, file⟩, .error .closed)) :
    session.onSink index call = (session, .error .closed) := by
  apply Prod.ext
  · apply onSink_eq_self
    intro file hsink
    rw [hcall file hsink]
  · cases hsink : session.sinks[index]? with
    | none => simp [onSink, hsink]
    | some file => rw [onSink_of_some hsink, hcall file hsink]

/-- Where nothing is refused, a close is that of the sink. -/
theorem perform_close_none (directory : Path) (session : Session) (index : Nat) :
    session.perform directory (.close index none) =
      session.onSink index fun sink => ((Sink.close sink).sink, (Sink.close sink).result) := by
  have hclose : FileSink.closeUnder none =
      fun sink => ((Sink.close sink).sink, (Sink.close sink).result) := by
    funext sink
    exact FileSink.closeUnder_none sink
  rw [perform, hclose]

/-- Opening a description file is the creation of a sink under some name that no description has. -/
theorem exists_perform_create (directory : Path) (session : Session) (serial : String) :
    let opening := DescriptionFile.create session.files directory serial
    ∃ name, ¬ IsDescriptionName name ∧
      session.perform directory (.create serial name {}) =
        match opening.result with
        | .error error => (⟨opening.files, session.sinks⟩, .error error)
        | .ok file => (⟨opening.files, session.sinks ++ [file]⟩, .ok ()) := by
  obtain ⟨name, hname, hcreated⟩ :=
    DescriptionFile.exists_create_eq_createAs session.files directory serial
  refine ⟨name, hname, ?_⟩
  rw [perform, hcreated]
  cases (DescriptionFile.create session.files directory serial).result with
  | error error => rfl
  | ok file => rfl

end Session

/-- What the calls on a sink and their answers tell of it: its serial number, the name of its
temporary file, the directives that it has taken, and whether it was closed or dropped. -/
structure Record where
  serial : String
  name : String
  taken : List Directive := []
  ended : Bool := false
deriving DecidableEq

namespace Record

/-- The text from the prologue to the last directive that was taken. -/
def text (record : Record) : String :=
  openingText record.serial ++ String.join (record.taken.map directiveText)

/-- The text with its closing line. -/
def wholeText (record : Record) : String :=
  record.text ++ closingText

def take (directive : Directive) (record : Record) : Record :=
  { record with taken := record.taken ++ [directive] }

def finish (record : Record) : Record :=
  { record with ended := true }

theorem finish_eq_self {record : Record} (hended : record.ended = true) :
    record.finish = record := by
  rw [finish, ← hended]

theorem text_take (directive : Directive) (record : Record) :
    (record.take directive).text = record.text ++ directiveText directive := by
  simp [text, take, String.join_append, String.append_assoc]

/-- The place of the temporary file in the directory of the sinks. -/
def place (here : Location) (record : Record) : Location :=
  here ++ [record.name]

/-- The place of the description in the directory of the sinks. -/
def target (here : Location) (record : Record) : Location :=
  here ++ [record.serial ++ "." ++ fileExtension]

end Record

/-- What calls and answers tell of all sinks: a record for each that was created, and the records of
those whose close has succeeded, the last one first. -/
structure Ledger where
  records : List Record := []
  published : List Record := []

/-- Takes down a call and its answer. -/
def Ledger.note (ledger : Ledger) : Act → Except SinkError Unit → Ledger
  | .create serial name _, .ok () =>
    { ledger with records := ledger.records ++ [{ serial, name }] }
  | .create _ _ _, .error _ => ledger
  | .write index directive, .ok () =>
    { ledger with records := ledger.records.modify index (Record.take directive) }
  | .write _ _, .error _ => ledger
  | .close index _, .ok () =>
    { records := ledger.records.modify index Record.finish
      published := (ledger.records[index]?.map Record.finish).toList ++ ledger.published }
  | .close index _, .error _ =>
    { ledger with records := ledger.records.modify index Record.finish }
  | .drop index, _ => { ledger with records := ledger.records.modify index Record.finish }

/-- Only a close that has succeeded publishes anything. -/
theorem Ledger.mem_published_note {ledger : Ledger} {act : Act} {answer : Except SinkError Unit}
    {record : Record} (hmem : record ∈ (ledger.note act answer).published) :
    record ∈ ledger.published ∨
      ∃ index refusal, act = .close index refusal ∧ answer = .ok () ∧
        ledger.records[index]?.map Record.finish = some record := by
  cases act with
  | create serial name device => cases answer <;> exact .inl hmem
  | write index directive => cases answer <;> exact .inl hmem
  | close index refusal =>
      cases answer with
      | error error => exact .inl hmem
      | ok =>
          rcases List.mem_append.mp hmem with hnew | hold
          · exact .inr ⟨index, refusal, rfl, rfl, Option.mem_toList.mp hnew⟩
          · exact .inl hold
  | drop index => exact .inl hmem

/-- A session and what is known of it. -/
structure History where
  session : Session
  ledger : Ledger := {}

namespace History

def step (directory : Path) (before : History) (act : Act) : History :=
  let (session, answer) := before.session.perform directory act
  ⟨session, before.ledger.note act answer⟩

/-- Performs steps one after the other, beginning without any sink. -/
def run (fs : FileSystem) (directory : Path) (acts : List Act) : History :=
  acts.foldl (step directory) ⟨⟨fs, []⟩, {}⟩

theorem run_concat (fs : FileSystem) (directory : Path) (acts : List Act) (act : Act) :
    run fs directory (acts ++ [act]) = step directory (run fs directory acts) act := by
  rw [run, List.foldl_append, List.foldl_cons, List.foldl_nil, run]

/-- Every record that is published is that of a sink at a close which was answered with success. -/
theorem exists_close_of_mem_published {fs : FileSystem} {directory : Path} {acts : List Act}
    {record : Record} (hmem : record ∈ (run fs directory acts).ledger.published) :
    ∃ earlier index refusal later, acts = earlier ++ .close index refusal :: later ∧
      ((run fs directory earlier).session.perform directory (.close index refusal)).2 = .ok () ∧
      (run fs directory earlier).ledger.records[index]?.map Record.finish = some record := by
  induction acts using List.reverseRecOn with
  | nil => cases hmem
  | append_singleton acts act ih =>
      rw [run_concat] at hmem
      rcases Ledger.mem_published_note hmem with hold | ⟨index, refusal, rfl, hanswer, hrecord⟩
      · obtain ⟨earlier, index, refusal, later, hacts, hclose⟩ := ih hold
        exact ⟨earlier, index, refusal, later ++ [act], by simp [hacts], hclose⟩
      · exact ⟨acts, index, refusal, [], rfl, hanswer, hrecord⟩

end History

end RobotDescription.Xacro
