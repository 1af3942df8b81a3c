import RobotDescription.Proofs.Xacro.Publishing

/-!
# Calls on one description file

The calls on a description file where the system may refuse any of them: to open the temporary file,
to take a text, to flush, to synchronise, to move. A draft holds the text of what it has taken; one
that has no room for a text cannot be closed, and one that is refused a whole text for the time being
goes on without it. However a close ends, the temporary file is gone afterwards; it has become the
target exactly if the close succeeded.
-/

namespace RobotDescription.Xacro

theorem extract_of_size_le {bytes : ByteArray} {room : Nat} (hroom : bytes.size ≤ room) :
    bytes.extract 0 room = bytes := by
  apply ByteArray.ext
  rw [ByteArray.data_extract]
  exact Array.extract_eq_self_of_le hroom

namespace Destination

/-- As much has been taken as there is room for. -/
def IsFull (destination : Destination) : Prop :=
  ∃ capacity, destination.capacity = some capacity ∧ capacity ≤ destination.stored.size

/-- What is refused for the time being is refused as a whole. -/
def RefusesWhole (destination : Destination) : Prop :=
  ∀ outage ∈ destination.outages, outage = none ∨ outage = some 0

instance (destination : Destination) : Decidable destination.RefusesWhole :=
  inferInstanceAs (Decidable (∀ outage ∈ destination.outages, outage = none ∨ outage = some 0))

/-- Whatever is taken of a text stands behind what was taken before. -/
theorem exists_write_eq (destination : Destination) (text : String) :
    ∃ taken, (destination.write text).1 = { destination with
      stored := destination.stored ++ taken, outages := destination.outages.tail } := by
  unfold write
  dsimp only
  split
  next => exact ⟨_, rfl⟩
  next => split <;> exact ⟨_, rfl⟩

@[simp] theorem capacity_write (destination : Destination) (text : String) :
    (destination.write text).1.capacity = destination.capacity := by
  obtain ⟨taken, hwritten⟩ := destination.exists_write_eq text
  rw [hwritten]

@[simp] theorem outages_write (destination : Destination) (text : String) :
    (destination.write text).1.outages = destination.outages.tail := by
  obtain ⟨taken, hwritten⟩ := destination.exists_write_eq text
  rw [hwritten]

theorem size_le_write (destination : Destination) (text : String) :
    destination.stored.size ≤ (destination.write text).1.stored.size := by
  obtain ⟨taken, hwritten⟩ := destination.exists_write_eq text
  rw [hwritten, ByteArray.size_append]
  exact Nat.le_add_right _ _

theorem refusesWhole_write {destination : Destination} (hwhole : destination.RefusesWhole)
    (text : String) : (destination.write text).1.RefusesWhole := by
  intro outage hmem
  rw [outages_write] at hmem
  exact hwhole outage (List.mem_of_mem_tail hmem)

/-- There is room for nothing during an outage, and otherwise what the capacity leaves. -/
theorem room_cases {destination : Destination} (hwhole : destination.RefusesWhole) :
    destination.room = none ∨ destination.room = some 0 ∨
      ∃ capacity, destination.capacity = some capacity ∧
        destination.room = some (capacity - destination.stored.size) := by
  obtain ⟨stored, capacity, canFlush, outages⟩ := destination
  have houtage : outages.head?.join = none ∨ outages.head?.join = some 0 := by
    cases outages with
    | nil => exact .inl rfl
    | cons outage rest => exact hwhole outage List.mem_cons_self
  rcases houtage with hnone | hzero
  · cases capacity with
    | none => exact .inl (by simp [room, hnone])
    | some capacity => exact .inr (.inr ⟨capacity, rfl, by simp [room, hnone]⟩)
  · cases capacity with
    | none => exact .inr (.inl (by simp [room, hzero]))
    | some capacity => exact .inr (.inl (by simp [room, hzero]))

/-- A text is either taken as a whole, or refused as a whole, or the destination is full
afterwards. -/
theorem write_cases {destination : Destination} (hwhole : destination.RefusesWhole)
    (text : String) :
    ((destination.write text).2 = .ok () ∧
        (destination.write text).1.stored = destination.stored ++ text.toUTF8) ∨
      ((destination.write text).2 = .error .io ∧
        ((destination.write text).1.stored = destination.stored ∨
          (destination.write text).1.IsFull)) := by
  rcases room_cases hwhole with hroom | hroom | ⟨capacity, hcapacity, hroom⟩
  · exact .inl (by simp [write, hroom])
  · by_cases hempty : text.toUTF8.size ≤ 0
    · exact .inl (by simp only [write, hroom, if_pos hempty, extract_of_size_le hempty, and_self])
    · refine .inr ⟨by simp only [write, hroom, if_neg hempty], .inl ?_⟩
      have hnothing : text.toUTF8.extract 0 0 = .empty := by simp
      simp only [write, hroom, if_neg hempty, hnothing, ByteArray.append_empty]
  · by_cases hfits : text.toUTF8.size ≤ capacity - destination.stored.size
    · exact .inl (by simp only [write, hroom, if_pos hfits, extract_of_size_le hfits, and_self])
    · refine .inr ⟨by simp only [write, hroom, if_neg hfits], .inr ⟨capacity, ?_, ?_⟩⟩
      · rw [capacity_write, hcapacity]
      · simp only [write, hroom, if_neg hfits, ByteArray.size_append, ByteArray.size_extract]
        omega

variable {destination : Destination} {text : String} (hfull : destination.IsFull)
include hfull

theorem isFull_write : (destination.write text).1.IsFull := by
  obtain ⟨capacity, hcapacity, hsize⟩ := hfull
  exact ⟨capacity, (capacity_write destination text).trans hcapacity,
    Nat.le_trans hsize (size_le_write destination text)⟩

theorem room_of_isFull : destination.room = some 0 := by
  obtain ⟨capacity, hcapacity, hsize⟩ := hfull
  have hleft : capacity - destination.stored.size = 0 := Nat.sub_eq_zero_of_le hsize
  cases houtage : destination.outages.head?.join <;> simp [room, hcapacity, hleft, houtage]

theorem write_of_isFull (htext : text ≠ "") : (destination.write text).2 = .error .io := by
  have hbytes : ¬ text.toUTF8.size ≤ 0 := by
    intro hzero
    rw [String.toUTF8_eq_toByteArray, String.size_toByteArray, Nat.le_zero] at hzero
    exact htext (String.utf8ByteSize_eq_zero_iff.mp hzero)
  simp only [write, room_of_isFull hfull, if_neg hbytes]

end Destination

namespace Writer

/-- The writer is open and has written a text, unless there was no room for it. -/
structure Holds (writer : Writer) (text : String) : Prop where
  closed_eq : writer.closed = false
  refusesWhole : writer.destination.RefusesWhole
  stored : writer.destination.stored = text.toUTF8 ∨ writer.destination.IsFull

theorem holds_of_create {device : Destination} {robotName : String} {writer : Writer}
    (hwhole : device.RefusesWhole) (hempty : device.stored = .empty)
    (hcreated : create device robotName = .ok writer) : writer.Holds (openingText robotName) := by
  have hcases := Destination.write_cases hwhole (openingText robotName)
  have hstill := Destination.refusesWhole_write hwhole (openingText robotName)
  unfold create at hcreated
  split at hcreated
  next opened hwritten =>
    cases hcreated
    rw [hwritten] at hstill
    rw [hwritten, hempty, ByteArray.empty_append] at hcases
    rcases hcases with ⟨_, hstored⟩ | ⟨hrefused, _⟩
    · exact ⟨rfl, hstill, .inl hstored⟩
    · cases hrefused
  next => cases hcreated

namespace Holds

variable {writer : Writer} {text : String} (hholds : writer.Holds text)
include hholds

theorem append_eq (more : String) :
    writer.append more = ⟨{ writer with destination := (writer.destination.write more).1 },
      (writer.destination.write more).2, []⟩ := by
  simp [Writer.append, hholds.closed_eq]

/-- A directive is added or refused; a refusal leaves what was written. -/
theorem write (directive : Directive) :
    ((Sink.write directive writer).result = .ok () ∧
        (Sink.write directive writer).sink.Holds (text ++ directiveText directive)) ∨
      ∃ error, (Sink.write directive writer).result = .error error ∧
        (Sink.write directive writer).sink.Holds text := by
  rcases Writer.write_cases directive writer with hadded | ⟨name, hfault⟩
  · rw [hadded, hholds.append_eq]
    have hstill := Destination.refusesWhole_write hholds.refusesWhole (directiveText directive)
    rcases Destination.write_cases hholds.refusesWhole (directiveText directive) with
      ⟨haccepted, hstored⟩ | ⟨hrefused, hkept⟩
    · refine .inl ⟨haccepted, hholds.closed_eq, hstill, ?_⟩
      rcases hholds.stored with htext | hfull
      · left
        rw [hstored, htext]
        simp
      · exact .inr (Destination.isFull_write hfull)
    · refine .inr ⟨_, hrefused, hholds.closed_eq, hstill, ?_⟩
      rcases hkept with hsame | hfull
      · exact hholds.stored.imp hsame.trans Destination.isFull_write
      · exact .inr hfull
  · rw [hfault]
    exact .inr ⟨_, rfl, hholds⟩

/-- Only a writer that has written its whole text can be closed. -/
theorem close (hclosed : writer.close.result = .ok ()) :
    writer.close.sink.destination.stored = (text ++ closingText).toUTF8 := by
  unfold Writer.close at hclosed ⊢
  rw [hholds.append_eq] at hclosed ⊢
  dsimp only at hclosed ⊢
  split at hclosed
  next => cases hclosed
  next => cases hclosed
  next haccepted hflushed =>
    -- the closing line is not empty, so a writer that has lost a text could not take it
    have hroom : ¬ writer.destination.IsFull := by
      intro hfull
      rw [Destination.write_of_isFull hfull (by decide)] at haccepted
      cases haccepted
    have htext := hholds.stored.resolve_right hroom
    rcases Destination.write_cases hholds.refusesWhole closingText with
      ⟨_, hstored⟩ | ⟨hrefused, _⟩
    · dsimp only
      rw [hstored, htext]
      simp
    · rw [hrefused] at haccepted
      cases haccepted

end Holds

end Writer

namespace DescriptionFile

/-- Opens a description file under a temporary name that the system has chosen, and that must be
free, on a device that may be short of room, refuse texts for the time being or be unable to flush. -/
def createAs (fs : FileSystem) (directory : Path) (serial name : String) (device : Destination) :
    FileSystem × Except SinkError DescriptionFile :=
  match fs.createDirectories directory with
  | (made, .error _) => (made, .error .io)
  | (made, .ok place) =>
    let temporary := place ++ [name]
    if made.get? temporary ≠ none then (made, .error .io)
    else
      match Writer.create { device with stored := .empty } serial with
      | .error _ => (made, .error .io)
      | .ok writer =>
        (made.put temporary (.file .empty),
          .ok { target := outputPath directory serial, draft := some { temporary, writer } })

/-- Opening a description file is opening it under a free name on a device that never fails. -/
theorem exists_create_eq_createAs (fs : FileSystem) (directory : Path) (serial : String) :
    ∃ name, ¬ IsDescriptionName name ∧
      createAs fs directory serial name {} =
        ((create fs directory serial).files, (create fs directory serial).result) := by
  rcases hmade : fs.createDirectories directory with ⟨made, reason | here⟩
  · refine ⟨temporaryName 0, not_isDescriptionName_temporaryName 0, ?_⟩
    simp only [createAs, create, hmade]
  · refine ⟨freshName made here, not_isDescriptionName_freshName made here, ?_⟩
    have hwriter := @Writer.create_eq_ofDocument {} ⟨rfl, rfl, rfl⟩ serial
    simp [createAs, create, hmade, get?_freshName, hwriter]

/-- The file is open, on a temporary file at a place, and has a text so far. -/
def Drafts (file : DescriptionFile) (temporary : Location) (text : String) : Prop :=
  ∃ writer, file.draft = some ⟨temporary, writer⟩ ∧ writer.Holds text

section Create

variable {fs : FileSystem} {directory : Path} {serial name : String} {device : Destination}

theorem createAs_of_error {error : SinkError}
    (hrefused : (createAs fs directory serial name device).2 = .error error) :
    fs.SameFiles (createAs fs directory serial name device).1 := by
  have hfiles := FileSystem.SameFiles.createDirectories fs directory
  unfold createAs at hrefused ⊢
  split at hrefused
  next hmade => rwa [hmade] at hfiles
  next hmade =>
    rw [hmade] at hfiles
    dsimp only at hrefused ⊢
    split at hrefused
    next htaken => rwa [if_pos htaken]
    next hfree =>
      rw [if_neg hfree]
      split at hrefused
      next => exact hfiles
      next => cases hrefused

theorem createAs_of_ok {file : DescriptionFile}
    (hcreated : (createAs fs directory serial name device).2 = .ok file) :
    ∃ made, fs.SameFiles made ∧ made.get? (fs.placeOf directory ++ [name]) = none ∧
      (createAs fs directory serial name device).1 =
        made.put (fs.placeOf directory ++ [name]) (.file .empty) ∧
      file.target = outputPath directory serial ∧
      (device.RefusesWhole →
        file.Drafts (fs.placeOf directory ++ [name]) (openingText serial)) := by
  have hfiles := FileSystem.SameFiles.createDirectories fs directory
  unfold createAs at hcreated ⊢
  split at hcreated
  next => cases hcreated
  next made here hmade =>
    rw [hmade] at hfiles
    have hhere := FileSystem.createDirectories_eq_ok hmade
    subst hhere
    dsimp only at hcreated ⊢
    split at hcreated
    next => cases hcreated
    next hfree =>
      rw [if_neg hfree]
      split at hcreated
      next => cases hcreated
      next writer hwriter =>
        cases hcreated
        refine ⟨made, hfiles, Decidable.not_not.mp hfree, rfl, rfl, fun hwhole => ?_⟩
        have hfresh : { device with stored := .empty }.RefusesWhole := hwhole
        exact ⟨writer, rfl, Writer.holds_of_create hfresh rfl hwriter⟩

end Create

end DescriptionFile

namespace FileSink

/-- Moves a finished draft onto its target, unless the system refuses to synchronise or to move it. A
draft that is not moved is removed. -/
def publishUnder (refusal : Option SinkError) (fs : FileSystem) (temporary : Location)
    (content : ByteArray) (target : Path) : FileSystem × Except SinkError Unit :=
  match refusal with
  | some error => ((fs.put temporary (.file content)).remove temporary, .error error)
  | none =>
    let (files, result, _) := publish fs temporary content target
    (files, result)

/-- Closes the file on a system that may refuse to synchronise or to move the draft. -/
def closeUnder (refusal : Option SinkError) (sink : FileSink) : FileSink × Except SinkError Unit :=
  match sink.file.draft with
  | none => (sink, .error .closed)
  | some draft =>
    let file := { sink.file with draft := none }
    let ended := draft.writer.close
    match ended.result with
    | .error error => (⟨sink.files.remove draft.temporary, file⟩, .error error)
    | .ok () =>
      let (files, result) := publishUnder refusal sink.files draft.temporary
        ended.sink.destination.stored sink.file.target
      (⟨files, file⟩, result)

theorem closeUnder_none (sink : FileSink) :
    closeUnder none sink = ((close sink).sink, (close sink).result) := by
  unfold closeUnder close
  cases hdraft : sink.file.draft with
  | none => rfl
  | some draft =>
      dsimp only
      cases draft.writer.close.result with
      | error error => rfl
      | ok => rfl

theorem publishUnder_cases {fs : FileSystem} {temporary : Location} (htemporary : temporary ≠ [])
    (refusal : Option SinkError) (content : ByteArray) (target : Path) :
    ((publishUnder refusal fs temporary content target).2 = .ok () ∧ fs.placeOf target ≠ [] ∧
        (publishUnder refusal fs temporary content target).1 =
          (fs.remove temporary).put (fs.placeOf target) (.file content)) ∨
      ∃ error, (publishUnder refusal fs temporary content target).2 = .error error ∧
        (publishUnder refusal fs temporary content target).1 = fs.remove temporary := by
  cases refusal with
  | some error => exact .inr ⟨error, rfl, FileSystem.remove_put fs temporary _⟩
  | none =>
      cases hpublished : (publish fs temporary content target).2.1 with
      | error error => exact .inr ⟨error, hpublished, publish_of_error hpublished⟩
      | ok =>
          obtain ⟨hroot, hmoved, _⟩ := publish_of_ok htemporary hpublished
          exact .inl ⟨hpublished, hroot, hmoved⟩

section Closed

variable {fs : FileSystem} {file : DescriptionFile} (hclosed : file.draft = none)
include hclosed

theorem write_of_closed (directive : Directive) :
    Sink.write directive (⟨fs, file⟩ : FileSink) = ⟨⟨fs, file⟩, .error .closed, []⟩ := by
  simp [write_eq_onWriter, onWriter, hclosed]

theorem closeUnder_of_closed (refusal : Option SinkError) :
    closeUnder refusal ⟨fs, file⟩ = (⟨fs, file⟩, .error .closed) := by
  simp [closeUnder, hclosed]

end Closed

section Open

variable {fs : FileSystem} {file : DescriptionFile} {temporary : Location} {text : String}
  (hdrafts : file.Drafts temporary text)
include hdrafts

/-- Writing does not show in the file system: the draft takes the directive or it does not. -/
theorem write_of_drafts (directive : Directive) :
    let reply := Sink.write directive (⟨fs, file⟩ : FileSink)
    reply.sink.files = fs ∧ reply.sink.file.target = file.target ∧
      ((reply.result = .ok () ∧
          reply.sink.file.Drafts temporary (text ++ directiveText directive)) ∨
        ∃ error, reply.result = .error error ∧ reply.sink.file.Drafts temporary text) := by
  obtain ⟨writer, hdraft, hholds⟩ := hdrafts
  simp only [write_eq_onWriter, onWriter, hdraft]
  refine ⟨trivial, trivial, ?_⟩
  rcases hholds.write directive with ⟨haccepted, hlonger⟩ | ⟨error, hrefused, hsame⟩
  · exact .inl ⟨haccepted, _, rfl, hlonger⟩
  · exact .inr ⟨error, hrefused, _, rfl, hsame⟩

/-- A close takes the temporary file away. Where it succeeds, the whole text is the target. -/
theorem closeUnder_of_drafts (htemporary : temporary ≠ []) (refusal : Option SinkError) :
    (closeUnder refusal ⟨fs, file⟩).1.file = { file with draft := none } ∧
      (((closeUnder refusal ⟨fs, file⟩).2 = .ok () ∧ fs.placeOf file.target ≠ [] ∧
          (closeUnder refusal ⟨fs, file⟩).1.files =
            (fs.remove temporary).put (fs.placeOf file.target)
              (.file (text ++ closingText).toUTF8)) ∨
        ∃ error, (closeUnder refusal ⟨fs, file⟩).2 = .error error ∧
          (closeUnder refusal ⟨fs, file⟩).1.files = fs.remove temporary) := by
  obtain ⟨writer, hdraft, hholds⟩ := hdrafts
  simp only [closeUnder, hdraft]
  split
  next error _ => exact ⟨rfl, .inr ⟨error, rfl, rfl⟩⟩
  next hended =>
    rw [hholds.close hended]
    exact ⟨rfl, publishUnder_cases htemporary refusal _ _⟩

theorem drop_of_drafts : file.drop fs = fs.remove temporary := by
  obtain ⟨writer, hdraft, _⟩ := hdrafts
  simp [DescriptionFile.drop, hdraft]

end Open

end FileSink

end RobotDescription.Xacro
