import RobotDescription.Command.Run
import RobotDescription.Proofs.Config.Acceptance
import RobotDescription.Proofs.Xacro.Publishing

/-!
# The two ways of putting out a description

A run that writes into a directory streams the description into a temporary file; a run that writes
to a destination makes it up in memory first. Both end alike, with the same bytes, and a run that
fails leaves neither a byte nor a file.
-/

namespace RobotDescription

theorem RobotConfig.slash_not_mem_of_isValid {config : RobotConfig} (hvalid : config.IsValid) :
    '/' ∉ config.serialNumber.toList :=
  (RobotConfig.isValid_iff_isSound.mp hvalid).serial.slash

/-- A sink that has taken nothing yet ends as the image of what the plan puts. -/
theorem Mirrors.generate_empty {τ : Type} [Sink τ] {image : Document → τ}
    (hmirrors : Mirrors image) {config : RobotConfig} (hnames : config.NamesValid) :
    (RobotDescription.generate config (image .empty)).sink =
        image ⟨(Generation.plan config).directives, (Generation.plan config).outcome.isOk⟩ ∧
      (RobotDescription.generate config (image .empty)).result =
        (Generation.plan config).outcome := by
  obtain ⟨hsink, hresult⟩ := hmirrors.generate config .empty hnames
  obtain ⟨hdocument, houtcome⟩ := @Document.generate_of_open .empty rfl config
  rw [hsink, hresult, hdocument, houtcome]
  exact ⟨rfl, rfl⟩

namespace Xacro

variable {config : RobotConfig} {destination : Destination}

theorem stream_of_stopped {error : GenerationError}
    (houtcome : (Generation.plan config).outcome = .error error) :
    (stream config destination).destination = destination ∧
      (stream config destination).result = .error error := by
  obtain ⟨_, hresult⟩ := @Document.generate_of_open .empty rfl config
  rw [houtcome] at hresult
  simp [stream, hresult]

theorem stream_of_written {summary : Summary} (hreliable : destination.NeverFails)
    (hnames : config.NamesValid) (houtcome : (Generation.plan config).outcome = .ok summary) :
    (stream config destination).destination.stored = destination.stored ++
        (documentText config.serialNumber ⟨(Generation.plan config).directives, true⟩).toUTF8 ∧
      (stream config destination).result = .ok summary := by
  obtain ⟨hsink, hresult⟩ := @Document.generate_of_open .empty rfl config
  rw [houtcome] at hsink hresult
  have hwritten : ∀ directive ∈ (Generation.plan config).directives, directive.NamesValid :=
    Generation.namesValid_of_mem_plan hnames
  have hcreated := Writer.create_eq_ofDocument hreliable config.serialNumber
  -- replayed into a fresh document, a closed document is the same document again
  obtain ⟨hreplayed, hdone⟩ :=
    @Document.replay_of_open .empty rfl ⟨(Generation.plan config).directives, true⟩
  obtain ⟨hwriter, hanswer⟩ := (Writer.mirrors_ofDocument hreliable config.serialNumber).replay
    ⟨(Generation.plan config).directives, true⟩ .empty hwritten
  rw [hreplayed] at hwriter
  rw [hdone] at hanswer
  have hsink : (generate config Document.empty).sink =
      ⟨(Generation.plan config).directives, true⟩ := hsink
  simp only [stream, hresult, hcreated, hsink, hanswer, hwriter]
  exact ⟨rfl, trivial⟩

end Xacro

namespace Command

variable {fs : FileSystem} {directory : Path} {config : RobotConfig}

theorem writeFile_of_stopped {error : GenerationError}
    (hpermits : Xacro.Permits fs directory config.serialNumber) (hnames : config.NamesValid)
    (houtcome : (Generation.plan config).outcome = .error error) :
    (writeFile fs directory config).result = .error (.generating config.serialNumber error) ∧
      fs.SameFiles (writeFile fs directory config).files := by
  obtain ⟨made, temporary, file, hfiles, htemporary, hfree, hcreated, hopened, hmoves⟩ :=
    hpermits.exists_create
  obtain ⟨hsink, hresult⟩ :=
    (Xacro.FileSink.mirrors_ofDocument config.serialNumber hmoves).generate_empty hnames
  rw [houtcome] at hsink hresult
  simp only [writeFile, hcreated, hopened, Outcome.after, hsink, hresult]
  refine ⟨trivial, hfiles.trans ?_⟩
  change made.SameFiles ((made.put temporary (.file .empty)).remove temporary)
  rw [FileSystem.remove_put]
  exact .remove_of_free htemporary hfree

theorem writeFile_of_written {summary : Summary}
    (hpermits : Xacro.Permits fs directory config.serialNumber) (hvalid : config.IsValid)
    (houtcome : (Generation.plan config).outcome = .ok summary) :
    let target := Xacro.outputPath directory config.serialNumber
    let text := Xacro.documentText config.serialNumber ⟨(Generation.plan config).directives, true⟩
    (writeFile fs directory config).result = .ok ("Generated " ++ target.text ++ "\n").toUTF8 ∧
      (writeFile fs directory config).files.read target = .ok text.toUTF8 ∧
      ∀ place, place ≠ fs.placeOf target →
        (writeFile fs directory config).files.content? place = fs.content? place := by
  intro target text
  obtain ⟨made, temporary, file, hfiles, htemporary, hfree, hcreated, hopened, hmoves⟩ :=
    hpermits.exists_create
  obtain ⟨hsink, hresult⟩ := (Xacro.FileSink.mirrors_ofDocument config.serialNumber hmoves)
    |>.generate_empty (RobotConfig.namesValid_of_isValid hvalid)
  rw [houtcome] at hsink hresult
  have hfile : file.target = target := congrArg (·.file.target) hopened
  have hpublished := Xacro.FileSink.publish_of_canPublish config.serialNumber hmoves text.toUTF8
  obtain ⟨hroot, hmoved, hread⟩ := Xacro.FileSink.publish_of_ok htemporary hpublished
  have hplace : (made.put temporary (.file .empty)).placeOf target = fs.placeOf target :=
    FileSystem.placeOf_congr hfiles.workingDirectory_eq target
  rw [FileSystem.remove_put] at hmoved
  rw [hplace] at hmoved hroot
  have hwritten : (writeFile fs directory config).files =
      (Xacro.FileSink.publish (made.put temporary (.file .empty)) temporary text.toUTF8 target).1 := by
    simp only [writeFile, hcreated, hopened, Outcome.after, hsink]
    rfl
  refine ⟨?_, ?_, fun place hne => ?_⟩
  · simp only [writeFile, hcreated, hopened, Outcome.after, hresult, hfile]
  · rw [hwritten]
    apply hread
    exact Xacro.namesDirectory_outputPath (RobotConfig.slash_not_mem_of_isValid hvalid)
  · -- the temporary file was not there before, so taking it away brings back what was
    have hremoved : made.SameFiles (made.remove temporary) := .remove_of_free htemporary hfree
    rw [hwritten, hmoved, FileSystem.content?_put_file hroot, if_neg hne, hremoved.content?_eq,
      hfiles.content?_eq]

section Loaded

variable {path : Path} (hload : RobotConfig.load fs path = .ok config)
include hload

theorem toDirectory_of_load :
    (toDirectory fs path directory).files = (writeFile fs directory config).files ∧
      (toDirectory fs path directory).result = (writeFile fs directory config).result := by
  rw [toDirectory, hload]
  exact ⟨rfl, rfl⟩

theorem toDestination_of_stopped {destination : Xacro.Destination} {entity : Unsupported}
    (houtcome : (Generation.plan config).outcome = .error (.unsupported entity)) :
    (toDestination fs path destination).destination = destination ∧
      (toDestination fs path destination).result =
        .error (.generating config.serialNumber (.unsupported entity)) := by
  obtain ⟨hstored, hfailed⟩ := @Xacro.stream_of_stopped config destination _ houtcome
  rw [toDestination, hload]
  simp only [hstored, hfailed]
  exact ⟨trivial, trivial⟩

theorem toDestination_of_written {destination : Xacro.Destination} {summary : Summary}
    (hreliable : destination.NeverFails)
    (houtcome : (Generation.plan config).outcome = .ok summary) :
    (toDestination fs path destination).destination.stored = destination.stored ++
        (Xacro.documentText config.serialNumber
          ⟨(Generation.plan config).directives, true⟩).toUTF8 ∧
      (toDestination fs path destination).result = .ok () := by
  have hnames := RobotConfig.namesValid_of_isValid (RobotConfig.isValid_of_load hload)
  obtain ⟨hstored, hdone⟩ := Xacro.stream_of_written hreliable hnames houtcome
  rw [toDestination, hload]
  simp only [hstored, hdone]
  exact ⟨trivial, trivial⟩

end Loaded

/-- Writing into a directory and writing to a destination that never fails either both fail, with
the same error, or both succeed. A failure is a configuration that cannot be loaded or an entity
that is in no registry; then the destination has received nothing, and no file has been made,
changed or left behind. A success is the whole layout as a complete document, appended to the
destination and standing in the file of the serial number, whatever stood there before; and no
other file is touched. -/
theorem outputs_agree {path : Path} {destination : Xacro.Destination}
    (hreliable : destination.NeverFails)
    (hpermits : ∀ config, RobotConfig.load fs path = .ok config →
      Xacro.Permits fs directory config.serialNumber) :
    let filed := toDirectory fs path directory
    let delivered := toDestination fs path destination
    (filed.result.map fun _ => ()) = delivered.result ∧
    (∀ error, delivered.result = .error error →
      ((∃ reason, error = .loading path reason) ∨
        ∃ serial entity, error = .generating serial (.unsupported entity)) ∧
      delivered.destination = destination ∧
      ∀ place, filed.files.content? place = fs.content? place) ∧
    (delivered.result = .ok () →
      ∃ config platform, RobotConfig.load fs path = .ok config ∧ config.Resolves platform ∧
        let target := Xacro.outputPath directory config.serialNumber
        let opening := "<?xml version=\"1.0\"?>\n" ++
          ("<robot name=\"" ++ String.ofList (Xacro.escapeAttribute config.serialNumber.toList) ++
            "\" xmlns:xacro=\"http://ros.org/wiki/xacro\">\n")
        let text := opening ++
          String.join ((Layout.whole config platform).map Xacro.directiveText) ++ "</robot>\n"
        delivered.destination.stored = destination.stored ++ text.toUTF8 ∧
        filed.files.read target = .ok text.toUTF8 ∧
        ∀ place, place ≠ fs.placeOf target →
          filed.files.content? place = fs.content? place) := by
  intro filed delivered
  simp only [← Xacro.openingText_eq]
  cases hload : RobotConfig.load fs path with
  | error reason =>
      have hfiled : filed = ⟨fs, .error (.loading path reason), []⟩ := by
        simp [filed, toDirectory, hload]
      have hdelivered : delivered = ⟨destination, .error (.loading path reason), []⟩ := by
        simp [delivered, toDestination, hload]
      rw [hfiled, hdelivered]
      refine ⟨rfl, fun error herror => ?_, nofun⟩
      cases herror
      exact ⟨.inl ⟨reason, rfl⟩, rfl, fun _ => rfl⟩
  | ok config =>
      have hvalid := RobotConfig.isValid_of_load hload
      have hpermits := hpermits config hload
      obtain ⟨hfiles, hfiled⟩ := @toDirectory_of_load fs directory config path hload
      rcases Generation.plan_yields config with
        ⟨platform, summary, hresolves, hyields⟩ | ⟨entity, written, _, hyields⟩
      · obtain ⟨hresult, hread, hothers⟩ := writeFile_of_written hpermits hvalid hyields.outcome_eq
        obtain ⟨hstored, hdone⟩ := toDestination_of_written hload hreliable hyields.outcome_eq
        rw [hyields.directives_eq] at hstored hread
        rw [hfiled, hresult, hfiles, hdone]
        exact ⟨rfl, nofun, fun _ => ⟨config, platform, rfl, hresolves, hstored, hread, hothers⟩⟩
      · obtain ⟨hresult, hsame⟩ := writeFile_of_stopped hpermits
          (RobotConfig.namesValid_of_isValid hvalid) hyields.outcome_eq
        obtain ⟨hstored, hfailed⟩ :=
          @toDestination_of_stopped fs config path hload destination _ hyields.outcome_eq
        rw [hfiled, hresult, hfiles, hfailed]
        refine ⟨rfl, fun error herror => ?_, nofun⟩
        cases herror
        exact ⟨.inr ⟨_, entity, rfl⟩, hstored, hsame.content?_eq⟩

/-- Two configurations of one robot, the second for a platform that is in no registry, beside a
directory with a description of it. -/
def workshop : FileSystem where
  entries := [
    (["robot.toml"],
      .file "serial_number = \"a200-0001\"\n[platform]\nmodel = \"a200\"\n".toUTF8),
    (["next.toml"],
      .file "serial_number = \"a200-0001\"\n[platform]\nmodel = \"b200\"\n".toUTF8),
    (["out"], .directory),
    (["out", "a200-0001.urdf.xacro"], .file "<robot/>".toUTF8)]

/-- A robot of a given platform and nothing on it. -/
def bare (model : String) : RobotConfig :=
  { serialNumber := "a200-0001", platform := { model } }

theorem eq_ok_of_toOption {ε α : Type} {result : Except ε α} {value : α}
    (hsome : result.toOption = some value) : result = .ok value := by
  cases result with
  | error e => cases hsome
  | ok a =>
      cases hsome
      rfl

theorem load_workshop :
    (RobotConfig.load workshop ⟨"robot.toml"⟩).toOption = some (bare "a200") ∧
      (RobotConfig.load workshop ⟨"next.toml"⟩).toOption = some (bare "b200") := by
  decide +kernel

theorem permits_workshop : Xacro.Permits workshop ⟨"out"⟩ "a200-0001" := by
  have hmade : workshop.createDirectories ⟨"out"⟩ = (workshop, .ok ["out"]) := by rfl
  have hlocate : workshop.locate (Xacro.outputPath ⟨"out"⟩ "a200-0001") =
      .ok ["out", "a200-0001.urdf.xacro"] := by rfl
  exact ⟨_, _, _, hmade, hlocate, by decide⟩

theorem outputs_agree_workshop :
    Xacro.Destination.NeverFails {} ∧
      (∀ path ∈ [(⟨"robot.toml"⟩ : Path), ⟨"next.toml"⟩], ∀ config,
        RobotConfig.load workshop path = .ok config →
          Xacro.Permits workshop ⟨"out"⟩ config.serialNumber) ∧
      (∃ text, (toDestination workshop ⟨"robot.toml"⟩ {}).destination.stored = text ∧
        (toDirectory workshop ⟨"robot.toml"⟩ ⟨"out"⟩).files.read
          (Xacro.outputPath ⟨"out"⟩ "a200-0001") = .ok text) ∧
      (toDestination workshop ⟨"next.toml"⟩ {}).destination.stored = .empty ∧
      (toDirectory workshop ⟨"next.toml"⟩ ⟨"out"⟩).files.content?
        ["out", "a200-0001.urdf.xacro"] = some "<robot/>".toUTF8 := by
  have hreliable : Xacro.Destination.NeverFails {} := ⟨rfl, rfl, rfl⟩
  obtain ⟨hfirst, hsecond⟩ := load_workshop
  have hrobot : RobotConfig.load workshop ⟨"robot.toml"⟩ = .ok (bare "a200") :=
    eq_ok_of_toOption hfirst
  have hnext : RobotConfig.load workshop ⟨"next.toml"⟩ = .ok (bare "b200") :=
    eq_ok_of_toOption hsecond
  have hpermits : ∀ path ∈ [(⟨"robot.toml"⟩ : Path), ⟨"next.toml"⟩], ∀ config,
      RobotConfig.load workshop path = .ok config →
        Xacro.Permits workshop ⟨"out"⟩ config.serialNumber := by
    intro path hpath config hload
    simp only [List.mem_cons, List.not_mem_nil, or_false] at hpath
    rcases hpath with rfl | rfl
    · rw [hrobot] at hload
      cases hload
      exact permits_workshop
    · rw [hnext] at hload
      cases hload
      exact permits_workshop
  refine ⟨hreliable, hpermits, ?_, ?_⟩
  · have houtcome : (Generation.plan (bare "a200")).outcome = .ok ⟨0, 0, 0⟩ := rfl
    obtain ⟨_, hdone⟩ := toDestination_of_written hrobot hreliable houtcome
    obtain ⟨_, _, hsuccess⟩ := outputs_agree hreliable (hpermits ⟨"robot.toml"⟩ (by simp))
    obtain ⟨config, platform, hload, _, hstored, hread, _⟩ := hsuccess hdone
    rw [hrobot] at hload
    cases hload
    exact ⟨_, hstored.trans ByteArray.empty_append, hread⟩
  · have houtcome : (Generation.plan (bare "b200")).outcome =
        .error (.unsupported (.platform "b200")) := rfl
    obtain ⟨_, hfailed⟩ := @toDestination_of_stopped workshop _ _ hnext {} _ houtcome
    obtain ⟨_, hfailure, _⟩ := outputs_agree hreliable (hpermits ⟨"next.toml"⟩ (by simp))
    obtain ⟨_, hdestination, hfiles⟩ := hfailure _ hfailed
    exact ⟨congrArg (·.stored) hdestination, hfiles ["out", "a200-0001.urdf.xacro"]⟩

end Command

end RobotDescription
