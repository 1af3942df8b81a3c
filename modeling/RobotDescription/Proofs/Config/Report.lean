import Mathlib.Data.List.Sort
import RobotDescription.Proofs.Config.Acceptance

/-!
# What validation reports

Which issues a configuration has, where each stands in the report, and how often: told from the
configuration as a whole, not by running through it. The validator gives exactly this report, and
refuses exactly the configurations that are not sound.
-/

namespace RobotDescription

/-- The issue is reported if the condition holds, and nothing otherwise. -/
def ReportedIf (condition : Prop) (issue : Issue) (reported : List Issue) : Prop :=
  (condition ∧ reported = [issue]) ∨ (¬ condition ∧ reported = [])

/-- At most one issue with a serial number: blank before padded before unusable. -/
inductive SerialReport (serial : String) : List Issue → Prop
  | blank (hblank : Text.trim serial = "") : SerialReport serial [.emptySerial]
  | padded (hblank : Text.trim serial ≠ "") (hpadded : Text.trim serial ≠ serial) :
      SerialReport serial [.paddedSerial serial]
  | unusable (hblank : Text.trim serial ≠ "") (htrimmed : Text.trim serial = serial)
      (hname : '/' ∈ serial.toList ∨ '\\' ∈ serial.toList ∨ serial = "." ∨ serial = "..") :
      SerialReport serial [.unusableSerial serial]
  | usable (hserial : IsSerialNumber serial) : SerialReport serial []

/-- One issue for each parameter name that cannot be an attribute, the names ascending. -/
def ParameterReport (owner : Owner) (parameters : Parameters) (reported : List Issue) : Prop :=
  ∃ names : List String, names.Pairwise (· < ·) ∧
    (∀ name, name ∈ names ↔ name ∈ parameters.names ∧ ¬ IsAttributeName name) ∧
    names.map (.invalidParameterName owner) = reported

def DecorationReport (index : Nat) (item : Decoration) (reported : List Issue) : Prop :=
  ∃ kind names, ReportedIf (Text.trim item.kind = "") (.emptyDecorationType index) kind ∧
    ParameterReport (.decoration item.kind) item.parameters names ∧ kind ++ names = reported

/-- What is reported of a mount's name: that it is blank, or else that it stands at an earlier index
of the whole list, however often. -/
inductive MountNameReport (mounts : List Mount) (index : Nat) (item : Mount) : List Issue → Prop
  | blank (hblank : Text.trim item.name = "") :
      MountNameReport mounts index item [.emptyMountName index]
  | repeated (hblank : Text.trim item.name ≠ "") (earlier : Nat) (other : Mount)
      (hearlier : earlier < index) (hother : mounts[earlier]? = some other)
      (hsame : other.name = item.name) :
      MountNameReport mounts index item [.duplicateMount item.name]
  | fresh (hblank : Text.trim item.name ≠ "")
      (hfresh : ∀ earlier other, earlier < index → mounts[earlier]? = some other →
        other.name ≠ item.name) :
      MountNameReport mounts index item []

def MountReport (mounts : List Mount) (index : Nat) (item : Mount) (reported : List Issue) : Prop :=
  ∃ name model names, MountNameReport mounts index item name ∧
    ReportedIf (Text.trim item.model = "") (.emptyMountModel item.name) model ∧
    ParameterReport (.mount item.name) item.parameters names ∧ name ++ model ++ names = reported

/-- The report on a list is made of one part for each item, in order. -/
def ListReport {α : Type} (report : Nat → α → List Issue → Prop) (items : List α)
    (reported : List Issue) : Prop :=
  ∃ parts : List (List Issue), parts.length = items.length ∧
    (∀ index item part, items[index]? = some item → parts[index]? = some part →
      report index item part) ∧
    parts.flatten = reported

/-- The report on a configuration: serial number, platform, decorations, mounts. -/
def RobotConfig.Reports (config : RobotConfig) (reported : List Issue) : Prop :=
  ∃ serial platform decorations mounts,
    SerialReport config.serialNumber serial ∧
    ReportedIf (Text.trim config.platform.model = "") .emptyPlatform platform ∧
    ListReport DecorationReport config.platform.decorations decorations ∧
    ListReport (MountReport config.mounts) config.mounts mounts ∧
    serial ++ platform ++ decorations ++ mounts = reported

namespace RobotConfig

theorem reportedIf_iff {s : String} {issue : Issue} {reported : List Issue} :
    ReportedIf (Text.trim s = "") issue reported ↔
      issueIf (Text.isAllBlank s) issue = reported := by
  rw [ReportedIf, Text.trim_eq_empty_iff]
  cases Text.isAllBlank s <;> simp [issueIf, eq_comm]

theorem serialReport_iff {serial : String} {reported : List Issue} :
    SerialReport serial reported ↔ serialIssues serial = reported := by
  constructor
  · intro hreport
    cases hreport with
    | blank hblank => simp [serialIssues, Text.trim_eq_empty_iff.mp hblank]
    | padded hblank hpadded =>
        simp [serialIssues, isAllBlank_eq_false_iff.mpr hblank, hpadded]
    | unusable hblank htrimmed hname =>
        have hstem : isFileStem serial = false := by
          rw [← Bool.not_eq_true, isFileStem_iff]
          rintro ⟨hslash, hbackslash, hdot, hparent⟩
          rcases hname with hmem | hmem | heq | heq
          · exact hslash hmem
          · exact hbackslash hmem
          · exact hdot heq
          · exact hparent heq
        simp [serialIssues, isAllBlank_eq_false_iff.mpr hblank, htrimmed, hstem]
    | usable hserial => exact serialIssues_eq_nil_iff.mpr hserial
  · rintro rfl
    unfold serialIssues
    split
    next hblank => exact .blank (Text.trim_eq_empty_iff.mpr hblank)
    next hblank =>
      have hblank : Text.trim serial ≠ "" := fun hempty => hblank (Text.trim_eq_empty_iff.mp hempty)
      split
      next hpadded => exact .padded hblank hpadded
      next htrimmed =>
        have htrimmed : Text.trim serial = serial := Decidable.not_not.mp htrimmed
        split
        next hstem =>
          refine .unusable hblank htrimmed (Classical.byContradiction fun hnone => ?_)
          simp only [not_or] at hnone
          rw [isFileStem_iff.mpr hnone] at hstem
          cases hstem
        next hstem =>
          obtain ⟨hslash, hbackslash, hdot, hparent⟩ := isFileStem_iff.mp (by simpa using hstem)
          exact .usable ⟨hblank, htrimmed, hslash, hbackslash, hdot, hparent⟩

/-- The report is determined, since there is only one ascending list of given names. -/
theorem parameterReport_iff {owner : Owner} {parameters : Parameters} {reported : List Issue} :
    ParameterReport owner parameters reported ↔ parameterIssues owner parameters = reported := by
  let bad := parameters.names.filter fun name => !ParameterName.isValid name
  have hascending : bad.Pairwise (· < ·) :=
    (List.pairwise_map.mpr parameters.ascending).filter _
  have hmem : ∀ name, name ∈ bad ↔ name ∈ parameters.names ∧ ¬ IsAttributeName name := by
    intro name
    simp [bad, List.mem_filter, ← ParameterName.isValid_iff]
  constructor
  · rintro ⟨names, hnames, hsame, rfl⟩
    have heq : bad = names :=
      hascending.eq_of_mem_iff hnames fun name => (hmem name).trans (hsame name).symm
    rw [← heq]
    rfl
  · rintro rfl
    exact ⟨bad, hascending, hmem, rfl⟩

theorem decorationReport_iff {index : Nat} {item : Decoration} {reported : List Issue} :
    DecorationReport index item reported ↔ decorationIssues index item = reported := by
  simp [DecorationReport, reportedIf_iff, parameterReport_iff, decorationIssues]

/-- A name stands before an index exactly if a mount at an earlier index has it. -/
theorem contains_take_iff {mounts : List Mount} {index : Nat} {name : String} :
    ((mounts.take index).map (·.name)).contains name = true ↔
      ∃ earlier other, earlier < index ∧ mounts[earlier]? = some other ∧ other.name = name := by
  rw [List.contains_iff_mem, List.mem_map]
  constructor
  · rintro ⟨other, hother, hsame⟩
    obtain ⟨earlier, hget⟩ := List.mem_iff_getElem?.mp hother
    have hearlier : earlier < index := by
      refine Nat.lt_of_not_le fun hlate => ?_
      rw [List.getElem?_take_eq_none hlate] at hget
      cases hget
    rw [List.getElem?_take_of_lt hearlier] at hget
    exact ⟨earlier, other, hearlier, hget, hsame⟩
  · rintro ⟨earlier, other, hearlier, hother, hsame⟩
    refine ⟨other, List.mem_iff_getElem?.mpr ⟨earlier, ?_⟩, hsame⟩
    rw [List.getElem?_take_of_lt hearlier, hother]

/-- The mount at an index is compared with the names before it. -/
theorem mountNameReport_iff {mounts : List Mount} {index : Nat} {item : Mount}
    {reported : List Issue} :
    MountNameReport mounts index item reported ↔
      (if Text.isAllBlank item.name then [.emptyMountName index]
        else issueIf (((mounts.take index).map (·.name)).contains item.name)
          (.duplicateMount item.name)) = reported := by
  constructor
  · intro hreport
    cases hreport with
    | blank hblank => simp [Text.trim_eq_empty_iff.mp hblank]
    | repeated hblank earlier other hearlier hother hsame =>
        have hrepeated := contains_take_iff.mpr ⟨earlier, other, hearlier, hother, hsame⟩
        simp only [isAllBlank_eq_false_iff.mpr hblank, hrepeated]
        rfl
    | fresh hblank hfresh =>
        have hnew : ((mounts.take index).map (·.name)).contains item.name = false := by
          rw [← Bool.not_eq_true, contains_take_iff]
          rintro ⟨earlier, other, hearlier, hother, hsame⟩
          exact hfresh earlier other hearlier hother hsame
        simp only [isAllBlank_eq_false_iff.mpr hblank, hnew]
        rfl
  · rintro rfl
    split
    next hblank => exact .blank (Text.trim_eq_empty_iff.mpr hblank)
    next hblank =>
      have hblank : Text.trim item.name ≠ "" :=
        fun hempty => hblank (Text.trim_eq_empty_iff.mp hempty)
      cases hrepeated : ((mounts.take index).map (·.name)).contains item.name with
      | true =>
          obtain ⟨earlier, other, hearlier, hother, hsame⟩ := contains_take_iff.mp hrepeated
          exact .repeated hblank earlier other hearlier hother hsame
      | false =>
          refine .fresh hblank fun earlier other hearlier hother hsame => ?_
          rw [contains_take_iff.mpr ⟨earlier, other, hearlier, hother, hsame⟩] at hrepeated
          cases hrepeated

theorem mountReport_iff {mounts : List Mount} {index : Nat} {item : Mount}
    {reported : List Issue} :
    MountReport mounts index item reported ↔
      mountIssues index ((mounts.take index).map (·.name)) item = reported := by
  simp [MountReport, reportedIf_iff, parameterReport_iff, mountNameReport_iff, mountIssues]

theorem listReport_iff {α : Type} {report : Nat → α → List Issue → Prop}
    {issuesOf : Nat → α → List Issue} {items : List α} {reported : List Issue}
    (hreport : ∀ index item part, report index item part ↔ issuesOf index item = part) :
    ListReport report items reported ↔ (items.mapIdx issuesOf).flatten = reported := by
  constructor
  · rintro ⟨parts, hlength, hparts, rfl⟩
    have heq : items.mapIdx issuesOf = parts := by
      apply List.ext_getElem
      · rw [List.length_mapIdx, hlength]
      · intro index hindex hpart
        rw [List.length_mapIdx] at hindex
        rw [List.getElem_mapIdx]
        exact (hreport _ _ _).mp
          (hparts index _ _ (List.getElem?_eq_getElem hindex) (List.getElem?_eq_getElem hpart))
    rw [heq]
  · rintro rfl
    refine ⟨items.mapIdx issuesOf, List.length_mapIdx, fun index item part hitem hpart => ?_, rfl⟩
    rw [List.getElem?_mapIdx, hitem] at hpart
    exact (hreport _ _ _).mpr (Option.some.inj hpart)

/-- Running through the mounts compares each with exactly the names before it. -/
theorem mountListIssues_eq (index : Nat) (earlier : List String) (items : List Mount) :
    mountListIssues index earlier items =
      (items.mapIdx fun offset item =>
        mountIssues (index + offset) (earlier ++ (items.take offset).map (·.name)) item).flatten := by
  induction items generalizing index earlier with
  | nil => rfl
  | cons item rest ih =>
      simp [mountListIssues, ih, List.mapIdx_cons, List.append_assoc, Nat.add_assoc,
        Nat.add_comm 1]

theorem mountListReport_iff {mounts : List Mount} {reported : List Issue} :
    ListReport (MountReport mounts) mounts reported ↔ mountListIssues 0 [] mounts = reported := by
  have heach : ∀ index item part, MountReport mounts index item part ↔
      mountIssues index ((mounts.take index).map (·.name)) item = part :=
    fun _ _ _ => mountReport_iff
  rw [listReport_iff heach, mountListIssues_eq]
  simp only [Nat.zero_add, List.nil_append]

/-- The issues of a configuration are exactly those of its report. -/
theorem reports_iff {config : RobotConfig} {reported : List Issue} :
    config.Reports reported ↔ config.issues = reported := by
  have hdecorations : ∀ part, ListReport DecorationReport config.platform.decorations part ↔
      (config.platform.decorations.mapIdx decorationIssues).flatten = part :=
    fun _ => listReport_iff fun _ _ _ => decorationReport_iff
  constructor
  · rintro ⟨serial, platform, decorations, mounts, hserial, hplatform, hdecoration, hmount, rfl⟩
    rw [issues, serialReport_iff.mp hserial, reportedIf_iff.mp hplatform,
      (hdecorations decorations).mp hdecoration, mountListReport_iff.mp hmount]
  · rintro rfl
    exact ⟨_, _, _, _, serialReport_iff.mpr rfl, reportedIf_iff.mpr rfl, (hdecorations _).mpr rfl,
      mountListReport_iff.mpr rfl, rfl⟩

theorem validated_eq_error_iff {config : RobotConfig} {reported : List Issue} :
    config.validated = .error (.invalid reported) ↔ ¬ config.IsValid ∧ config.issues = reported := by
  unfold validated
  split
  next hvalid => simp [hvalid]
  next hinvalid => simp [hinvalid]

theorem parse_eq_ok_iff {format : Format} {content : String} {config : RobotConfig} :
    parse format content = .ok config ↔ read format content = .ok config ∧ config.IsValid := by
  unfold parse
  split
  next reason hread => simp [hread]
  next found hread =>
    rw [hread, validated_eq_ok_iff, Except.ok.injEq]
    constructor
    · rintro ⟨rfl, hvalid⟩
      exact ⟨rfl, hvalid⟩
    · rintro ⟨rfl, hvalid⟩
      exact ⟨rfl, hvalid⟩

theorem parse_eq_error_iff {format : Format} {content : String} {reported : List Issue} :
    parse format content = .error (.invalid reported) ↔
      ∃ config, read format content = .ok config ∧ ¬ config.IsValid ∧ config.issues = reported := by
  unfold parse
  split
  next reason hread => simp [hread]
  next found hread => simp [hread, validated_eq_error_iff]

/-- A configuration is accepted exactly if it is sound. Otherwise it is refused with its report,
which is determined: every fault at its place, as often as it occurs, and nothing else. Documents
are accepted and refused by the configuration that they hold. -/
theorem validation_exact (config : RobotConfig) :
    (config.validated = .ok config ↔ config.IsSound) ∧
    (∃! reported, config.Reports reported) ∧
    (∀ reported, config.validated = .error (.invalid reported) ↔
      ¬ config.IsSound ∧ config.Reports reported) ∧
    ∀ format content,
      (parse format content = .ok config ↔ read format content = .ok config ∧ config.IsSound) ∧
      ∀ reported, parse format content = .error (.invalid reported) ↔
        ∃ found, read format content = .ok found ∧ ¬ found.IsSound ∧ found.Reports reported := by
  refine ⟨?_, ⟨config.issues, reports_iff.mpr rfl, fun other hother => ?_⟩, fun reported => ?_,
    fun format content => ⟨?_, fun reported => ?_⟩⟩
  · rw [validated_eq_ok_iff, isValid_iff_isSound]
    exact and_iff_right rfl
  · exact (reports_iff.mp hother).symm
  · rw [validated_eq_error_iff, isValid_iff_isSound, reports_iff]
  · rw [parse_eq_ok_iff, isValid_iff_isSound]
  · simp only [parse_eq_error_iff, isValid_iff_isSound, reports_iff]

/-- Faults of every kind at once: one issue for the serial number although it is padded and no file
name, and a blank mount name that is not counted as repeated. -/
example : issues {
      serialNumber := " a/b"
      platform := {
        model := ""
        decorations := [{ kind := " ", parameters := .ofList [("x y", .bool true), ("2", .int 1)] }] }
      mounts := [{ name := "", model := "post" }, { name := "lidar", model := "" },
        { name := "", model := "post" }, { name := "lidar", model := "post" }] } =
    [.paddedSerial " a/b", .emptyPlatform, .emptyDecorationType 0,
      .invalidParameterName (.decoration " ") "2", .invalidParameterName (.decoration " ") "x y",
      .emptyMountName 0, .emptyMountModel "lidar", .emptyMountName 2, .duplicateMount "lidar"] := by
  decide

end RobotConfig

end RobotDescription
