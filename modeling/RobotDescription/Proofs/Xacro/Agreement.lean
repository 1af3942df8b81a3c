import RobotDescription.Proofs.Xacro.Images

/-!
# Agreement of the sinks

A document, a writer whose destination never fails and a description file that can be moved onto
its target answer every sequence of calls alike. The writer and the file are images of the document
that has taken the same calls, so what is known of the document carries over to them.
-/

namespace RobotDescription.Xacro

theorem FileSink.create_eq_ofDocument {fs : FileSystem} {directory : Path} {robotName : String}
    {file : DescriptionFile}
    (hcreated : (DescriptionFile.create fs directory robotName).result = .ok file) :
    ∃ temporary target, (⟨(DescriptionFile.create fs directory robotName).files, file⟩ : FileSink) =
      .ofDocument (DescriptionFile.create fs directory robotName).files temporary target robotName
        .empty := by
  have hwriter : Writer.create {} robotName = .ok (.ofDocument {} robotName .empty) :=
    Writer.create_eq_ofDocument ⟨rfl, rfl, rfl⟩ robotName
  unfold DescriptionFile.create at hcreated ⊢
  split at hcreated
  next => cases hcreated
  next hmade =>
    simp only [hwriter] at hcreated ⊢
    cases hcreated
    exact ⟨_, _, rfl⟩

/-- A document, a writer and a file that take the same calls give the same answers and are closed
together. What the writer has written are the two opening lines, the texts of the directives of the
document and, once it is closed, the closing line; it only grows, and once a close has succeeded
nothing changes any of the three. -/
theorem sinks_agree (robotName : String) {destination : Destination}
    (hreliable : destination.NeverFails) {fs : FileSystem} {directory : Path}
    {file : DescriptionFile}
    (hcreated : (DescriptionFile.create fs directory robotName).result = .ok file)
    (hmoves : FileSink.CanPublish ⟨(DescriptionFile.create fs directory robotName).files, file⟩)
    {calls : List Call} (hvalid : ∀ call ∈ calls, call.NamesValid) :
    ∃ writer, Writer.create destination robotName = .ok writer ∧
      let opened : FileSink := ⟨(DescriptionFile.create fs directory robotName).files, file⟩
      let (document, answers) := Call.makeAll calls Document.empty
      let (written, answersWritten) := Call.makeAll calls writer
      let (filed, answersFiled) := Call.makeAll calls opened
      let opening := "<?xml version=\"1.0\"?>\n" ++
        ("<robot name=\"" ++ String.ofList (escapeAttribute robotName.toList) ++
          "\" xmlns:xacro=\"http://ros.org/wiki/xacro\">\n")
      answersWritten = answers ∧ answersFiled = answers ∧
      (∀ answer ∈ answers, answer.IsRegular) ∧
      written.closed = document.closed ∧ filed.file.isClosed = document.closed ∧
      written.destination.stored = destination.stored ++
        (opening ++ String.join (document.directives.map directiveText) ++
          if document.closed then "</robot>\n" else "").toUTF8 ∧
      (Call.close.make document).1.closed = true ∧
      ∀ later, (∀ call ∈ later, call.NamesValid) →
        (∃ more, (Call.makeAll later written).1.destination.stored =
          written.destination.stored ++ more) ∧
        (document.closed = true →
          Call.makeAll later document = (document, later.map Call.answerOfClosed) ∧
          Call.makeAll later written = (written, later.map Call.answerOfClosed) ∧
          Call.makeAll later filed = (filed, later.map Call.answerOfClosed)) := by
  obtain ⟨temporary, target, hopened⟩ := FileSink.create_eq_ofDocument hcreated
  rw [hopened] at hmoves
  have hwriter := Writer.mirrors_ofDocument hreliable robotName
  have hfile := FileSink.mirrors_ofDocument robotName hmoves
  refine ⟨_, Writer.create_eq_ofDocument hreliable robotName, ?_⟩
  have hregular := Document.isRegular_makeAll .empty calls
  simp only [hopened, hwriter.makeAll calls _ hvalid, hfile.makeAll calls _ hvalid,
    ← openingText_eq]
  generalize Call.makeAll calls Document.empty = run at hregular ⊢
  obtain ⟨document, answers⟩ := run
  refine ⟨trivial, trivial, hregular, rfl, FileSink.isClosed_ofDocument robotName document, rfl,
    ?_, fun later hlater => ⟨?_, fun hclosed => ?_⟩⟩
  · cases hstate : document.closed with
    | false => simp [Call.make, Reply.answered, Document.close_of_open hstate]
    | true => simp [Document.make_of_closed hstate, hstate]
  · obtain ⟨more, hmore⟩ := documentText_makeAll robotName document later
    refine ⟨more.toUTF8, ?_⟩
    rw [hwriter.makeAll later document hlater]
    simp [Writer.ofDocument, hmore, ByteArray.append_assoc]
  · have hdocument := Document.makeAll_of_closed hclosed later
    rw [hwriter.makeAll later document hlater, hfile.makeAll later document hlater, hdocument]
    exact ⟨rfl, rfl, rfl⟩

/-- Calls of every kind: a macro with a value that needs escaping, a generation that stops at an
unsupported mount, an end, and what comes too late. -/
def session : List Call := [
  .writeComment "GPS -- front", .writeInclusion "sensors" "gps" "urdf/",
  .writeCall "gps" (.ofList [("name", "\"front\" & <rear>")]) [.origin .zero], .writeBlank,
  .generate huskyWithStand, .write (.comment "end"), .close, .replay ⟨[.comment "late"], true⟩,
  .generate husky]

theorem sinks_agree_session :
    ∃ file writer, (DescriptionFile.create {} ⟨"out"⟩ "a200-0001").result = .ok file ∧
      FileSink.CanPublish ⟨(DescriptionFile.create {} ⟨"out"⟩ "a200-0001").files, file⟩ ∧
      (∀ call ∈ session, call.NamesValid) ∧
      Writer.create {} "a200-0001" = .ok writer ∧
      (Call.makeAll session writer).2 = (Call.makeAll session Document.empty).2 := by
  obtain ⟨file, hcreated⟩ :
      ∃ file, (DescriptionFile.create {} ⟨"out"⟩ "a200-0001").result = .ok file := ⟨_, rfl⟩
  have hmoves :
      FileSink.CanPublish ⟨(DescriptionFile.create {} ⟨"out"⟩ "a200-0001").files, file⟩ := by
    cases hcreated
    rintro draft ⟨⟩ content
    exact ⟨_, rfl⟩
  have hvalid : ∀ call ∈ session, call.NamesValid := by
    intro call hmem
    simp only [session, List.mem_cons, List.not_mem_nil, or_false] at hmem
    rcases hmem with rfl | rfl | rfl | rfl | rfl | rfl | rfl | rfl | rfl
    · trivial
    · trivial
    · exact (by decide : ∀ name ∈ ["name"], ParameterName.isValid name = true)
    · trivial
    · exact ⟨by decide, by decide⟩
    · trivial
    · trivial
    · exact fun directive hmem => by rw [List.mem_singleton.mp hmem]; trivial
    · exact ⟨by decide, by decide⟩
  have hreliable : Destination.NeverFails {} := ⟨rfl, rfl, rfl⟩
  obtain ⟨writer, hwriter, hanswers, _⟩ :=
    sinks_agree "a200-0001" hreliable hcreated hmoves hvalid
  exact ⟨file, writer, hcreated, hmoves, hvalid, hwriter, hanswers⟩

end RobotDescription.Xacro
