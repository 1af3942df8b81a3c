import RobotDescription.Proofs.Xacro.Ledgers

/-!
# Files that are never partial

At every moment of a session the file system holds what its ledger tells: at the target of a serial
number the whole text of the last file for it that was closed with success, or else what stood there
in the beginning; beside the targets the temporary files of the sinks that are still open; and
nothing else that was not there before.
-/

namespace RobotDescription.Xacro

namespace History

/-- What holds at every moment of a session that has begun in a file system. -/
structure Faithful (fs : FileSystem) (directory : Path) (now : History) : Prop where
  describes : Describes fs directory now.ledger.records now.session.sinks
  accounts : Accounts fs (fs.placeOf directory) now.ledger now.session.files

theorem faithful_start (fs : FileSystem) (directory : Path) :
    Faithful fs directory ⟨⟨fs, []⟩, {}⟩ :=
  ⟨⟨rfl, nofun, nofun, nofun⟩, ⟨rfl, nofun, nofun, fun _ _ => rfl⟩⟩

namespace Faithful

variable {fs : FileSystem} {directory : Path} {now : History} (hnow : Faithful fs directory now)
include hnow

theorem placeOf_eq (path : Path) : now.session.files.placeOf path = fs.placeOf path :=
  FileSystem.placeOf_congr hnow.accounts.workingDirectory_eq path

theorem placeOf_target {record : Record} {file : DescriptionFile}
    (htracks : record.Tracks (fs.placeOf directory) directory file)
    (hsound : record.IsSound fs (fs.placeOf directory)) :
    now.session.files.placeOf file.target = record.target (fs.placeOf directory) := by
  rw [hnow.placeOf_eq, htracks.target_eq, placeOf_outputPath hsound.serial.slash_not_mem]
  rfl

theorem step_create {serial name : String} {device : Destination} (hserial : IsAccepted serial)
    (hname : ¬ IsDescriptionName name) (hwhole : device.RefusesWhole) :
    Faithful fs directory (step directory now (.create serial name device)) := by
  have hrefused := @DescriptionFile.createAs_of_error now.session.files directory serial name device
  have hopened := @DescriptionFile.createAs_of_ok now.session.files directory serial name device
  rcases hcreated : DescriptionFile.createAs now.session.files directory serial name device with
    ⟨files, error | file⟩
  · rw [hcreated] at hrefused
    have hstep : step directory now (.create serial name device) =
        ⟨⟨files, now.session.sinks⟩, now.ledger⟩ := by
      simp [step, Session.perform, hcreated, Ledger.note]
    rw [hstep]
    exact ⟨hnow.describes, hnow.accounts.of_sameFiles (hrefused rfl)⟩
  · rw [hcreated] at hopened
    -- a name that is free now was free in the beginning, and no open sink has it
    obtain ⟨made, hsame, hfree, hfiles, htarget, hdrafts⟩ := hopened rfl
    dsimp only at hfiles
    subst hfiles
    rw [hnow.placeOf_eq] at hfree hdrafts hcreated
    have hstep : step directory now (.create serial name device) =
        ⟨⟨made.put (fs.placeOf directory ++ [name]) (.file .empty), now.session.sinks ++ [file]⟩,
          { now.ledger with records := now.ledger.records ++ [{ serial, name }] }⟩ := by
      simp [step, Session.perform, hcreated, Ledger.note]
    have haccounts := hnow.accounts.of_sameFiles hsame
    have habsent : made.content? (Record.place (fs.placeOf directory) { serial, name }) = none :=
      FileSystem.content?_of_get?_eq_none hfree
    have htext : Record.text { serial, name } = openingText serial := by
      simp [Record.text]
    rw [hstep]
    refine ⟨hnow.describes.concat ?_ ⟨htarget, ?_, ?_⟩ ?_, haccounts.concat rfl⟩
    · exact haccounts.isSound_of_free hserial hname habsent
    · intro hended
      cases hended
    · intro _
      rw [htext]
      exact hdrafts hwhole
    · intro other hmem hopen
      exact haccounts.name_ne_of_free habsent hmem hopen

section Ended

variable {index : Nat}
  (hended : ∀ record, now.ledger.records[index]? = some record → record.ended = true)
include hended

theorem draft_eq_none {file : DescriptionFile} (hsink : now.session.sinks[index]? = some file) :
    file.draft = none := by
  obtain ⟨record, hrecord, htracks⟩ := hnow.describes.exists_record hsink
  exact htracks.draft_eq (hended record hrecord)

theorem perform_write_of_ended (directive : Directive) :
    now.session.perform directory (.write index directive) = (now.session, .error .closed) := by
  rw [Session.perform]
  apply Session.onSink_of_closed
  intro file hsink
  rw [FileSink.write_of_closed (hnow.draft_eq_none hended hsink)]

theorem perform_close_of_ended (refusal : Option SinkError) :
    now.session.perform directory (.close index refusal) = (now.session, .error .closed) := by
  rw [Session.perform]
  apply Session.onSink_of_closed
  intro file hsink
  exact FileSink.closeUnder_of_closed (hnow.draft_eq_none hended hsink) refusal

theorem perform_drop_of_ended :
    (now.session.perform directory (.drop index)).1 = now.session := by
  apply Session.onSink_eq_self
  intro file hsink
  have hdraft := hnow.draft_eq_none hended hsink
  obtain ⟨target, draft⟩ := file
  cases hdraft
  rfl

end Ended

section Open

variable {index : Nat} {record : Record} (hrecord : now.ledger.records[index]? = some record)
  (hopen : record.ended = false)
include hrecord hopen

theorem step_write_of_open (directive : Directive) :
    Faithful fs directory (step directory now (.write index directive)) := by
  obtain ⟨file, hsink, htracks⟩ := hnow.describes.exists_sink hrecord
  obtain ⟨hfiles, htarget, hwritten⟩ :=
    @FileSink.write_of_drafts now.session.files _ _ _ (htracks.drafts hopen) directive
  have hstep : step directory now (.write index directive) =
      ⟨⟨now.session.files, now.session.sinks.set index
          (Sink.write directive (⟨now.session.files, file⟩ : FileSink)).sink.file⟩,
        now.ledger.note (.write index directive)
          (Sink.write directive (⟨now.session.files, file⟩ : FileSink)).result⟩ := by
    simp [step, Session.perform, Session.onSink_of_some hsink, hfiles]
  rw [hstep]
  rcases hwritten with ⟨haccepted, hlonger⟩ | ⟨error, hrefused, hsame⟩
  · rw [haccepted]
    refine ⟨hnow.describes.modify hrecord hopen rfl rfl ⟨htarget.trans htracks.target_eq, ?_, ?_⟩,
      hnow.accounts.take hrecord hopen directive⟩
    · intro hended
      rw [Record.take, hopen] at hended
      cases hended
    · intro _
      rw [Record.text_take]
      exact hlonger
  · rw [hrefused]
    -- the record stays as it is, but the writer of the sink may have changed
    have hdescribes := @Describes.modify fs directory _ _ hnow.describes index record _ id hrecord
      hopen rfl rfl ⟨htarget.trans htracks.target_eq, by simp [hopen], fun _ => hsame⟩
    rw [List.modify_id] at hdescribes
    exact ⟨hdescribes, hnow.accounts⟩

/-- A sink ends without a description: its temporary file is removed. -/
theorem finish {file : DescriptionFile} (hsink : now.session.sinks[index]? = some file) :
    Faithful fs directory
      ⟨⟨now.session.files.remove (record.place (fs.placeOf directory)),
          now.session.sinks.set index { file with draft := none }⟩,
        { now.ledger with records := now.ledger.records.modify index Record.finish }⟩ := by
  have htracks := hnow.describes.tracks index record file hrecord hsink
  constructor
  · exact hnow.describes.modify hrecord hopen rfl rfl ⟨htracks.target_eq, fun _ => rfl, nofun⟩
  · apply hnow.accounts.finish hrecord hopen
    · exact hnow.describes.sound record (List.mem_of_getElem? hrecord)
    · intro other current hne hcurrent hcurrentOpen
      exact (hnow.describes.distinct index other record current hne hrecord hcurrent hopen
        hcurrentOpen).symm

/-- A sink ends with its description: its whole text is put at its target. -/
theorem finish_published {file : DescriptionFile}
    (hsink : now.session.sinks[index]? = some file) :
    Faithful fs directory
      ⟨⟨(now.session.files.remove (record.place (fs.placeOf directory))).put
            (record.target (fs.placeOf directory)) (.file record.wholeText.toUTF8),
          now.session.sinks.set index { file with draft := none }⟩,
        { records := now.ledger.records.modify index Record.finish
          published := record.finish :: now.ledger.published }⟩ := by
  obtain ⟨hdescribes, haccounts⟩ := hnow.finish hrecord hopen hsink
  have hmem : record.finish ∈ now.ledger.records.modify index Record.finish := by
    apply List.mem_of_getElem? (i := index)
    rw [List.getElem?_modify_eq, hrecord]
    rfl
  exact ⟨hdescribes, haccounts.publish hmem rfl hdescribes.sound⟩

theorem step_close_of_open (refusal : Option SinkError) :
    Faithful fs directory (step directory now (.close index refusal)) := by
  obtain ⟨file, hsink, htracks⟩ := hnow.describes.exists_sink hrecord
  obtain ⟨hfile, hclosed⟩ := @FileSink.closeUnder_of_drafts now.session.files _ _ _
    (htracks.drafts hopen) (by simp [Record.place]) refusal
  have htarget := hnow.placeOf_target htracks
    (hnow.describes.sound record (List.mem_of_getElem? hrecord))
  have hstep : step directory now (.close index refusal) =
      ⟨⟨(FileSink.closeUnder refusal ⟨now.session.files, file⟩).1.files,
          now.session.sinks.set index { file with draft := none }⟩,
        now.ledger.note (.close index refusal)
          (FileSink.closeUnder refusal ⟨now.session.files, file⟩).2⟩ := by
    simp [step, Session.perform, Session.onSink_of_some hsink, hfile]
  rw [hstep]
  rcases hclosed with ⟨haccepted, _, hfiles⟩ | ⟨error, hrefused, hfiles⟩
  · rw [haccepted, hfiles, htarget]
    simp only [Ledger.note, hrecord]
    exact hnow.finish_published hrecord hopen hsink
  · rw [hrefused, hfiles]
    exact hnow.finish hrecord hopen hsink

/-- Right after a close, however it ends, the temporary file is gone. -/
theorem content?_close (refusal : Option SinkError) :
    (now.session.perform directory (.close index refusal)).1.files.content?
      (record.place (fs.placeOf directory)) = none := by
  obtain ⟨file, hsink, htracks⟩ := hnow.describes.exists_sink hrecord
  have hroot : record.place (fs.placeOf directory) ≠ [] := by simp [Record.place]
  obtain ⟨_, hclosed⟩ := @FileSink.closeUnder_of_drafts now.session.files _ _ _
    (htracks.drafts hopen) hroot refusal
  have hsound := hnow.describes.sound record (List.mem_of_getElem? hrecord)
  have htarget := hnow.placeOf_target htracks hsound
  rw [Session.perform, Session.onSink_of_some hsink]
  rcases hclosed with ⟨_, htop, hfiles⟩ | ⟨error, _, hfiles⟩
  · dsimp only
    rw [hfiles, FileSystem.content?_put_file htop, htarget,
      if_neg (Record.place_ne_target hsound.name record), FileSystem.content?_remove hroot,
      if_pos rfl]
  · dsimp only
    rw [hfiles, FileSystem.content?_remove hroot, if_pos rfl]

theorem content?_drop :
    (now.session.perform directory (.drop index)).1.files.content?
      (record.place (fs.placeOf directory)) = none := by
  obtain ⟨file, hsink, htracks⟩ := hnow.describes.exists_sink hrecord
  have hroot : record.place (fs.placeOf directory) ≠ [] := by simp [Record.place]
  rw [Session.perform, Session.onSink_of_some hsink]
  dsimp only
  rw [@FileSink.drop_of_drafts now.session.files _ _ _ (htracks.drafts hopen),
    FileSystem.content?_remove hroot, if_pos rfl]

theorem step_drop_of_open :
    Faithful fs directory (step directory now (.drop index)) := by
  obtain ⟨file, hsink, htracks⟩ := hnow.describes.exists_sink hrecord
  have hdropped :=
    @FileSink.drop_of_drafts now.session.files _ _ _ (htracks.drafts hopen)
  have hstep : step directory now (.drop index) =
      ⟨⟨now.session.files.remove (record.place (fs.placeOf directory)),
          now.session.sinks.set index { file with draft := none }⟩,
        { now.ledger with records := now.ledger.records.modify index Record.finish }⟩ := by
    simp [step, Session.perform, Session.onSink_of_some hsink, hdropped, Ledger.note]
  rw [hstep]
  exact hnow.finish hrecord hopen hsink

end Open

/-- No step breaks what the ledger tells. A step on a sink that has ended, or that is not there,
changes nothing. -/
theorem step {act : Act} (hact : act.IsSound) :
    Faithful fs directory (History.step directory now act) := by
  cases act with
  | create serial name device =>
      obtain ⟨hserial, hname, hwhole⟩ := hact
      exact hnow.step_create hserial hname hwhole
  | write index directive =>
      rcases now.ledger.ended_or_open index with hended | ⟨record, hrecord, hopen⟩
      · have hstep : History.step directory now (.write index directive) = now := by
          simp [History.step, hnow.perform_write_of_ended hended, Ledger.note]
        rwa [hstep]
      · exact hnow.step_write_of_open hrecord hopen directive
  | close index refusal =>
      rcases now.ledger.ended_or_open index with hended | ⟨record, hrecord, hopen⟩
      · have hkept := modify_of_unchanged fun record hrecord =>
          Record.finish_eq_self (hended record hrecord)
        have hstep : History.step directory now (.close index refusal) = now := by
          simp [History.step, hnow.perform_close_of_ended hended, Ledger.note, hkept]
        rwa [hstep]
      · exact hnow.step_close_of_open hrecord hopen refusal
  | drop index =>
      rcases now.ledger.ended_or_open index with hended | ⟨record, hrecord, hopen⟩
      · have hkept := modify_of_unchanged fun record hrecord =>
          Record.finish_eq_self (hended record hrecord)
        have hstep : History.step directory now (.drop index) = now := by
          simp [History.step, hnow.perform_drop_of_ended hended, Ledger.note, hkept]
        rwa [hstep]
      · exact hnow.step_drop_of_open hrecord hopen

end Faithful

theorem faithful_run (fs : FileSystem) (directory : Path) {acts : List Act}
    (hacts : ∀ act ∈ acts, act.IsSound) : Faithful fs directory (run fs directory acts) := by
  -- the last act comes off first, since what holds is told of the session up to an act
  induction acts using List.reverseRecOn with
  | nil => exact faithful_start fs directory
  | append_singleton earlier act ih =>
      rw [run_concat]
      apply Faithful.step _ (hacts act (by simp))
      exact ih fun other hmem => hacts other (List.mem_append_left _ hmem)

end History

/-- After any calls on any sinks of a directory, in any order and with any refusals:

* at the target of a serial number stands the whole text of the last sink for it whose close has
  succeeded, or what stood there in the beginning if there is none;
* what is published is the record of a sink at a close that was answered with success, and no sink
  goes on after that;
* apart from the targets and the temporary files of the sinks that are still open, every file is as
  it was in the beginning;
* the temporary file of a sink that has ended is gone, unless an open sink has been given its name,
  and that cannot be right after it has ended;
* a sink that has ended answers every write and every close as closed, and nothing changes. -/
theorem targets_never_partial {fs : FileSystem} {directory : Path} {acts : List Act}
    (hacts : ∀ act ∈ acts, act.IsSound) :
    let session := (History.run fs directory acts).session
    let ledger := (History.run fs directory acts).ledger
    let target := fun serial => fs.placeOf (outputPath directory serial)
    let temporary := fun record : Record => fs.placeOf directory ++ [record.name]
    let opening := fun serial : String => "<?xml version=\"1.0\"?>\n" ++
      ("<robot name=\"" ++ String.ofList (escapeAttribute serial.toList) ++
        "\" xmlns:xacro=\"http://ros.org/wiki/xacro\">\n")
    (∀ serial, IsAccepted serial →
      session.files.content? (target serial) =
        match ledger.published.find? (·.serial = serial) with
        | some record => some (opening serial ++
            String.join (record.taken.map directiveText) ++ "</robot>\n").toUTF8
        | none => fs.content? (target serial)) ∧
    (∀ record ∈ ledger.published, record ∈ ledger.records ∧ record.ended = true ∧
      ∃ earlier index refusal later, acts = earlier ++ .close index refusal :: later ∧
        let before := History.run fs directory earlier
        (before.session.perform directory (.close index refusal)).2 = .ok () ∧
          before.ledger.records[index]?.map Record.finish = some record) ∧
    (∀ place, (∀ serial, IsAccepted serial → place ≠ target serial) →
      (∀ record ∈ ledger.records, record.ended = false → place ≠ temporary record) →
      session.files.content? place = fs.content? place) ∧
    (∀ record ∈ ledger.records, record.ended = true →
      (∀ other ∈ ledger.records, other.ended = false → other.name ≠ record.name) →
      session.files.content? (temporary record) = none) ∧
    ∀ index record, ledger.records[index]? = some record →
      (record.ended = false →
        (∀ refusal, (session.perform directory (.close index refusal)).1.files.content?
          (temporary record) = none) ∧
        (session.perform directory (.drop index)).1.files.content? (temporary record) = none) ∧
      (record.ended = true →
        (∀ directive,
          session.perform directory (.write index directive) = (session, .error .closed)) ∧
        ∀ refusal,
          session.perform directory (.close index refusal) = (session, .error .closed)) := by
  intro session ledger target temporary opening
  have hnow : History.Faithful fs directory (History.run fs directory acts) :=
    History.faithful_run fs directory hacts
  have hsound := hnow.describes.sound
  have htarget : ∀ serial, IsAccepted serial →
      target serial = fs.placeOf directory ++ [serial ++ "." ++ fileExtension] :=
    fun serial hserial => placeOf_outputPath hserial.slash_not_mem
  have hleaves : ∀ serial, ledger.Leaves (fs.placeOf directory)
      (fs.placeOf directory ++ [serial ++ "." ++ fileExtension]) := by
    intro serial record hmem _
    exact (Record.place_ne_target (hsound record hmem).name { serial, name := "" }).symm
  refine ⟨fun serial hserial => ?_, fun record hmem => ?_, fun place hplace hopen => ?_,
    fun record hmem hended hothers => ?_, fun index record hrecord => ⟨fun hopen => ?_,
      fun hended => ?_⟩⟩
  · rw [htarget serial hserial, hnow.accounts.content?_eq _ (hleaves serial), contentAfter_target]
    cases hlast : ledger.published.find? (·.serial = serial) with
    | none => rfl
    | some record =>
        have hsame : record.serial = serial := by simpa using List.find?_some hlast
        have hopening : opening serial = openingText serial := (openingText_eq serial).symm
        subst hsame
        dsimp only
        rw [hopening]
        rfl
  · obtain ⟨hrecords, hended⟩ := hnow.accounts.published record hmem
    exact ⟨hrecords, hended, History.exists_close_of_mem_published hmem⟩
  · rw [hnow.accounts.content?_eq place hopen]
    apply contentAfter_of_not_target
    intro record hmem
    have hserial := (hsound record (hnow.accounts.published record hmem).1).serial
    rw [Record.target, ← htarget record.serial hserial]
    exact hplace record.serial hserial
  · have hleft : ledger.Leaves (fs.placeOf directory) (temporary record) :=
      fun other hother hopen hsame =>
        hothers other hother hopen (Record.place_eq_iff.mp hsame.symm)
    rw [hnow.accounts.content?_eq _ hleft, contentAfter_of_not_target]
    · exact (hsound record hmem).content?_eq
    · exact fun other _ => Record.place_ne_target (hsound record hmem).name other
  · exact ⟨hnow.content?_close hrecord hopen, hnow.content?_drop hrecord hopen⟩
  · have hall : ∀ other, ledger.records[index]? = some other → other.ended = true := by
      intro other hother
      rw [hrecord] at hother
      cases hother
      exact hended
    exact ⟨hnow.perform_write_of_ended hall, hnow.perform_close_of_ended hall⟩

/-- A directory with a description of a robot. -/
def described : FileSystem where
  entries := [
    (["out"], .directory), (["out", "a200-0001.urdf.xacro"], .file "<robot/>".toUTF8)]

/-- Four sinks for that robot. The first is refused a comment for the time being, goes on without it
and is closed; the second cannot flush, the third cannot be moved and is written to once more, and the
last one, which has the name of the first, is dropped. -/
def reruns : List Act := [
  .create "a200-0001" ".descgen-a.tmp" { outages := [none, some 0] },
  .create "a200-0001" ".descgen-b.tmp" { canFlush := false },
  .create "a200-0001" ".descgen-c.tmp" {},
  .write 0 (.comment "refused"), .write 2 (.comment "third"), .write 0 (.comment "first"),
  .close 0 none, .close 1 none, .close 2 (some .io), .write 2 .blank,
  .create "a200-0001" ".descgen-a.tmp" {}, .drop 3]

theorem published_reruns :
    (History.run described ⟨"out"⟩ reruns).ledger.published =
      [⟨"a200-0001", ".descgen-a.tmp", [.comment "first"], true⟩] := by
  decide +kernel

theorem targets_never_partial_reruns :
    (∀ act ∈ reruns, act.IsSound) ∧
      (History.run described ⟨"out"⟩ reruns).session.files.content?
          ["out", "a200-0001.urdf.xacro"] =
        some ("<?xml version=\"1.0\"?>\n" ++
          "<robot name=\"a200-0001\" xmlns:xacro=\"http://ros.org/wiki/xacro\">\n" ++
          "  <!-- first -->\n" ++ "</robot>\n").toUTF8 := by
  have hserial : IsAccepted "a200-0001" :=
    ⟨{ serialNumber := "a200-0001", platform := { model := "a200" } }, by decide, rfl⟩
  have hacts : ∀ act ∈ reruns, act.IsSound := by
    have hcreated : ∀ name ∈ [".descgen-a.tmp", ".descgen-b.tmp", ".descgen-c.tmp"],
        ∀ device : Destination, device.RefusesWhole →
          (Act.create "a200-0001" name device).IsSound := by
      intro name hname device hwhole
      exact ⟨hserial, (by decide : ∀ name ∈ [".descgen-a.tmp", ".descgen-b.tmp", ".descgen-c.tmp"],
        ¬ IsDescriptionName name) name hname, hwhole⟩
    simp only [reruns, List.forall_mem_cons]
    exact ⟨hcreated _ (by simp) _ (by decide), hcreated _ (by simp) _ (by decide),
      hcreated _ (by simp) _ (by decide), trivial, trivial, trivial, trivial, trivial, trivial,
      trivial, hcreated _ (by simp) _ (by decide), trivial, nofun⟩
  have hplace : described.placeOf (outputPath ⟨"out"⟩ "a200-0001") =
      ["out", "a200-0001.urdf.xacro"] := by rfl
  obtain ⟨htargets, _⟩ := @targets_never_partial described ⟨"out"⟩ reruns hacts
  have htarget := htargets "a200-0001" hserial
  dsimp only at htarget
  rw [published_reruns, hplace] at htarget
  exact ⟨hacts, htarget⟩

end RobotDescription.Xacro
