import RobotDescription.Proofs.Sink.Documents
import RobotDescription.Xacro.File

/-!
# Writers and files as images of a document

What a writer has written, and what a description file holds, are functions of the document that
has taken the same calls: the text of that document, with the closing line exactly when it is
closed. These functions mirror every write and every close, so a writer whose destination never
fails and a file whose system never fails go through the states of the document.
-/

namespace RobotDescription.Xacro

/-- The two lines that open a description. -/
theorem openingText_eq (robotName : String) :
    openingText robotName = "<?xml version=\"1.0\"?>\n" ++
      ("<robot name=\"" ++ String.ofList (escapeAttribute robotName.toList) ++
        "\" xmlns:xacro=\"http://ros.org/wiki/xacro\">\n") := by
  apply String.toList_inj.mp
  simp [openingText, textOfLines, quotedValue]

theorem documentText_write (robotName : String) {document : Document}
    (hopen : document.closed = false) (directive : Directive) :
    documentText robotName { document with directives := document.directives ++ [directive] } =
      documentText robotName document ++ directiveText directive := by
  simp [documentText, hopen, String.append_assoc]

theorem documentText_close (robotName : String) {document : Document}
    (hopen : document.closed = false) :
    documentText robotName { document with closed := true } =
      documentText robotName document ++ closingText := by
  simp [documentText, hopen]

theorem documentText_make (robotName : String) (document : Document) (call : Call) :
    ∃ more, documentText robotName (call.make document).1 =
      documentText robotName document ++ more := by
  cases hstate : document.closed with
  | true => exact ⟨"", by rw [Document.make_of_closed hstate, String.append_empty]⟩
  | false =>
      obtain ⟨⟨more, hmore⟩, _⟩ := Document.make_of_open hstate call
      refine ⟨String.join (more.map directiveText) ++
        if (call.make document).1.closed then closingText else "", ?_⟩
      simp [documentText, hmore, hstate, String.join_append, String.append_assoc]

theorem documentText_makeAll (robotName : String) (document : Document) (calls : List Call) :
    ∃ more, documentText robotName (Call.makeAll calls document).1 =
      documentText robotName document ++ more := by
  induction calls generalizing document with
  | nil => exact ⟨"", String.append_empty.symm⟩
  | cons call rest ih =>
      obtain ⟨first, hfirst⟩ := documentText_make robotName document call
      obtain ⟨later, hlater⟩ := ih (call.make document).1
      exact ⟨first ++ later, by rw [Call.makeAll, hlater, hfirst, String.append_assoc]⟩

/-- A destination without a limit and without an outage that can always flush. -/
structure Destination.NeverFails (destination : Destination) : Prop where
  capacity_eq : destination.capacity = none
  canFlush_eq : destination.canFlush = true
  outages_eq : destination.outages = []

theorem Destination.NeverFails.of_stored {destination : Destination}
    (hreliable : destination.NeverFails) (stored : ByteArray) :
    NeverFails { destination with stored } :=
  ⟨hreliable.capacity_eq, hreliable.canFlush_eq, hreliable.outages_eq⟩

theorem Destination.write_of_neverFails {destination : Destination}
    (hreliable : destination.NeverFails) (text : String) :
    destination.write text =
      ({ destination with stored := destination.stored ++ text.toUTF8 }, .ok ()) := by
  obtain ⟨stored, capacity, canFlush, outages⟩ := destination
  obtain ⟨rfl, rfl, rfl⟩ := hreliable
  rfl

theorem Writer.invalidName?_of_forall_isValid {arguments : Arguments}
    (hvalid : ∀ name ∈ arguments.names, ParameterName.isValid name = true) :
    Writer.invalidName? arguments = none := by
  refine List.find?_eq_none.mpr fun other hmem => ?_
  simp [hvalid other hmem]

/-- A directive whose names can be written is added as its text. -/
theorem Writer.write_of_namesValid {directive : Directive} (hvalid : directive.NamesValid)
    (writer : Writer) :
    Sink.write directive writer = writer.append (directiveText directive) := by
  cases directive with
  | call name arguments blocks =>
      simp [Sink.write, Sink.writeCall, writeCall, invalidName?_of_forall_isValid hvalid]
  | _ => rfl

namespace Writer

variable {destination : Destination} (hreliable : destination.NeverFails) (robotName : String)

/-- The writer that has written a document after what its destination held before. -/
def ofDocument (destination : Destination) (robotName : String) (document : Document) : Writer where
  destination := { destination with
    stored := destination.stored ++ (documentText robotName document).toUTF8 }
  closed := document.closed

include hreliable

theorem append_ofDocument {document longer : Document} {text : String}
    (hopen : document.closed = false)
    (htext : documentText robotName longer = documentText robotName document ++ text) :
    (ofDocument destination robotName document).append text =
      ⟨{ ofDocument destination robotName longer with closed := false }, .ok (), []⟩ := by
  have hsame : (ofDocument destination robotName document).destination.NeverFails :=
    hreliable.of_stored _
  rw [append, Destination.write_of_neverFails hsame]
  simp [ofDocument, hopen, htext, String.toByteArray_append, ByteArray.append_assoc]

theorem create_eq_ofDocument :
    create destination robotName = .ok (ofDocument destination robotName .empty) := by
  simp [create, ofDocument, Destination.write_of_neverFails hreliable, documentText,
    Document.empty]

theorem write_ofDocument {document : Document} (hopen : document.closed = false)
    {directive : Directive} (hvalid : directive.NamesValid) :
    Sink.write directive (ofDocument destination robotName document) =
      ⟨ofDocument destination robotName
        { document with directives := document.directives ++ [directive] }, .ok (), []⟩ := by
  have htext := documentText_write robotName hopen directive
  rw [write_of_namesValid hvalid, append_ofDocument hreliable robotName hopen htext]
  simp [ofDocument, hopen]

theorem close_ofDocument {document : Document} (hopen : document.closed = false) :
    Sink.close (ofDocument destination robotName document) =
      ⟨ofDocument destination robotName { document with closed := true }, .ok (), []⟩ := by
  change close _ = _
  have happend := append_ofDocument hreliable robotName hopen (documentText_close robotName hopen)
  simp only [close, happend]
  simp [ofDocument, Destination.flush, hreliable.canFlush_eq]

/-- A writer whose destination never fails goes through the states of the document. -/
theorem mirrors_ofDocument : Mirrors (ofDocument destination robotName) where
  write directive document hvalid := by
    cases hstate : document.closed with
    | true =>
        rw [write_of_namesValid hvalid, Document.write_of_closed hstate]
        simp [append, ofDocument, hstate]
    | false =>
        rw [write_ofDocument hreliable robotName hstate hvalid, Document.write_of_open hstate]
        exact ⟨rfl, rfl⟩
  close document := by
    cases hstate : document.closed with
    | true => simp [Sink.close, close, Document.close, append, ofDocument, hstate]
    | false =>
        rw [close_ofDocument hreliable robotName hstate, Document.close_of_open hstate]
        exact ⟨rfl, rfl⟩

end Writer

namespace FileSink

/-- Every draft of the sink can be moved onto its target, whatever it holds in the end. -/
def CanPublish (sink : FileSink) : Prop :=
  ∀ draft, sink.file.draft = some draft → ∀ content, ∃ moved,
    (sink.files.put draft.temporary (.file content)).rename draft.temporary sink.file.target =
      .ok moved

/-- The sink that has taken a document since it was opened in a file system: while the document is
open its text is in the draft, and when it is closed the text has been moved onto the target. -/
def ofDocument (files : FileSystem) (temporary : Location) (target : Path) (robotName : String)
    (document : Document) : FileSink :=
  if document.closed then
    ⟨(publish files temporary (documentText robotName document).toUTF8 target).1, ⟨target, none⟩⟩
  else ⟨files, ⟨target, some ⟨temporary, .ofDocument {} robotName document⟩⟩⟩

variable {files : FileSystem} {temporary : Location} {target : Path} (robotName : String)

theorem ofDocument_of_open {document : Document} (hopen : document.closed = false) :
    ofDocument files temporary target robotName document =
      ⟨files, ⟨target, some ⟨temporary, .ofDocument {} robotName document⟩⟩⟩ := by
  simp [ofDocument, hopen]

theorem ofDocument_of_closed {document : Document} (hclosed : document.closed = true) :
    ofDocument files temporary target robotName document =
      ⟨(publish files temporary (documentText robotName document).toUTF8 target).1,
        ⟨target, none⟩⟩ := by
  simp [ofDocument, hclosed]

theorem isClosed_ofDocument (document : Document) :
    (ofDocument files temporary target robotName document).file.isClosed = document.closed := by
  cases hstate : document.closed with
  | true =>
      rw [ofDocument_of_closed robotName hstate]
      rfl
  | false =>
      rw [ofDocument_of_open robotName hstate]
      rfl

theorem publish_of_canPublish
    (hmoves : CanPublish (ofDocument files temporary target robotName .empty))
    (content : ByteArray) : (publish files temporary content target).2.1 = .ok () := by
  obtain ⟨moved, hmoved⟩ := hmoves _ rfl content
  replace hmoved : (files.put temporary (.file content)).rename temporary target = .ok moved :=
    hmoved
  simp [publish, hmoved]

/-- A file whose draft can be moved onto its target goes through the states of the document. -/
theorem mirrors_ofDocument
    (hmoves : CanPublish (ofDocument files temporary target robotName .empty)) :
    Mirrors (ofDocument files temporary target robotName) where
  write directive document hvalid := by
    cases hstate : document.closed with
    | true =>
        rw [Document.write_of_closed hstate, ofDocument_of_closed robotName hstate,
          write_eq_onWriter]
        exact ⟨rfl, rfl⟩
    | false =>
        have hwriter := @Writer.write_ofDocument {} ⟨rfl, rfl, rfl⟩ robotName document hstate
          directive hvalid
        rw [Document.write_of_open hstate, write_eq_onWriter]
        simp [onWriter, ofDocument, hstate, hwriter]
  close document := by
    cases hstate : document.closed with
    | true =>
        rw [Document.close_of_closed hstate, ofDocument_of_closed robotName hstate]
        exact ⟨rfl, rfl⟩
    | false =>
        have hwriter : Writer.close (.ofDocument {} robotName document) = _ :=
          Writer.close_ofDocument ⟨rfl, rfl, rfl⟩ robotName hstate
        have hstored : (Writer.ofDocument {} robotName
            { document with closed := true }).destination.stored =
              (documentText robotName { document with closed := true }).toUTF8 := by
          simp [Writer.ofDocument]
        -- the draft could be moved from the beginning on, whatever has been written to it since
        have hpublished := publish_of_canPublish robotName hmoves
          (documentText robotName { document with closed := true }).toUTF8
        rw [Document.close_of_open hstate]
        rw [ofDocument_of_open robotName hstate, ofDocument_of_closed robotName rfl]
        simp only [Sink.close, close, hwriter, hstored]
        exact ⟨trivial, hpublished⟩

end FileSink

end RobotDescription.Xacro
