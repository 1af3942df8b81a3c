import RobotDescription.Proofs.Command.Modes
import RobotDescription.Proofs.Storage.Extensions

/-!
# Where descriptions are written

A serial number that is accepted keeps its description in the directory that is written to: the path
of the description is that of the directory with one name more, different serial numbers have
different names, and no such name is that of a configuration that can be loaded.
-/

namespace RobotDescription.Xacro

theorem descriptionName_eq (serial : String) :
    serial ++ "." ++ fileExtension = serial ++ ".urdf.xacro" := by
  rw [String.append_assoc]
  rfl

theorem descriptionName_injective {serial other : String}
    (hsame : serial ++ ".urdf.xacro" = other ++ ".urdf.xacro") : serial = other := by
  simpa using hsame

/-- The name of a description is longer than all names with a meaning of their own. -/
theorem descriptionName_ne {serial name : String} (hshort : name.toList.length < 11) :
    serial ++ ".urdf.xacro" ≠ name := by
  rintro rfl
  have hlong : 11 ≤ (serial ++ ".urdf.xacro").toList.length := by simp
  omega

section Target

variable {directory : Path} {serial : String} (hslash : '/' ∉ serial.toList)
include hslash

theorem slash_not_mem_descriptionName : '/' ∉ (serial ++ ".urdf.xacro").toList := by
  rw [← descriptionName_eq]
  exact slash_not_mem_name hslash

theorem steps_outputPath :
    (outputPath directory serial).steps = directory.steps ++ [serial ++ ".urdf.xacro"] := by
  rw [outputPath, descriptionName_eq]
  exact Path.steps_join (slash_not_mem_descriptionName hslash) (descriptionName_ne (by decide))
    (descriptionName_ne (by decide))

theorem fileName?_outputPath :
    (outputPath directory serial).fileName? = some (serial ++ ".urdf.xacro") := by
  rw [outputPath, descriptionName_eq]
  exact Path.fileName?_join (slash_not_mem_descriptionName hslash) (descriptionName_ne (by decide))
    (descriptionName_ne (by decide)) (descriptionName_ne (by decide))

/-- Descriptions have an extension of their own, whatever dots are in the serial number. -/
theorem extension?_outputPath : (outputPath directory serial).extension? = some "xacro" := by
  have hchars : (serial ++ ".urdf.xacro").toList =
      (serial.toList ++ ".urdf".toList) ++ '.' :: "xacro".toList := by
    simp
  have hextension : Path.extensionOf? ((serial.toList ++ ".urdf".toList) ++ '.' :: "xacro".toList) =
      some "xacro".toList := Path.extensionOf?_append (by simp) (by decide)
  rw [Path.extension?, fileName?_outputPath hslash, Option.bind_some, hchars, hextension]
  rfl

theorem ofPath?_outputPath : Format.ofPath? (outputPath directory serial) = none := by
  rw [Format.ofPath?, extension?_outputPath hslash]
  rfl

end Target

/-- The description of an accepted configuration is written to the directory's own path with one
name added: none that leads elsewhere, and none that is absolute. Another accepted serial number
gives another path, even when paths are compared step by step. No configuration can be loaded from a
path of the same name, or from any path that leads to the same place, so none can be overwritten by
its own description. -/
theorem outputPath_inside {config : RobotConfig} (hvalid : config.IsValid) (directory : Path) :
    let name := config.serialNumber ++ ".urdf.xacro"
    let target := outputPath directory config.serialNumber
    target.text = directory.text ++
      (if directory.text = "" ∨ directory.text.toList.getLast? = some '/' then "" else "/") ++
        name ∧
    '/' ∉ name.toList ∧ name ≠ "." ∧ name ≠ ".." ∧
    target.steps = directory.steps ++ [name] ∧
    target.fileName? = some name ∧
    target.isAbsolute = directory.isAbsolute ∧
    (∀ fs : FileSystem, fs.placeOf target = fs.placeOf directory ++ [name]) ∧
    (∀ other : RobotConfig, other.IsValid →
      (outputPath directory other.serialNumber).steps = target.steps →
        other.serialNumber = config.serialNumber) ∧
    Format.ofPath? target = none ∧
    ∀ (fs : FileSystem) source loaded, RobotConfig.load fs source = .ok loaded →
      source.fileName? ≠ target.fileName? ∧ fs.placeOf source ≠ fs.placeOf target := by
  intro name target
  have hserial := RobotConfig.slash_not_mem_of_isValid hvalid
  have hslash : '/' ∉ name.toList := slash_not_mem_descriptionName hserial
  have htarget : target = directory.join ⟨name⟩ :=
    congrArg (fun text => directory.join ⟨text⟩) (descriptionName_eq config.serialNumber)
  have hformat : Format.ofPath? target = none := ofPath?_outputPath hserial
  refine ⟨?_, hslash, descriptionName_ne (by decide), descriptionName_ne (by decide),
    steps_outputPath hserial, fileName?_outputPath hserial, ?_, fun fs => ?_,
    fun other hother hsteps => ?_, hformat, fun fs source loaded hload => ?_⟩
  · rw [htarget]
    exact Path.text_join hslash
  · rw [htarget]
    exact Path.isAbsolute_join hslash
  · rw [placeOf_outputPath hserial, descriptionName_eq]
  · rw [steps_outputPath (RobotConfig.slash_not_mem_of_isValid hother),
      steps_outputPath hserial] at hsteps
    apply descriptionName_injective
    simpa using hsteps
  · obtain ⟨format, hloaded⟩ := RobotConfig.exists_format_of_load hload
    have hname : target.fileName? = some name := fileName?_outputPath hserial
    have hne : source.fileName? ≠ target.fileName? := by
      intro hsame
      rw [Format.ofPath?_congr hsame, hformat] at hloaded
      cases hloaded
    obtain ⟨other, hother⟩ := Format.exists_fileName?_of_ofPath? hloaded
    refine ⟨hne, FileSystem.placeOf_ne_of_fileName?_ne hother hname ?_⟩
    rintro rfl
    exact hne (hother.trans hname.symm)

/-- A serial number that is accepted although it is made of dots. -/
def dotted : RobotConfig where
  serialNumber := "..."
  platform := { model := "a200" }

theorem outputPath_inside_dotted :
    dotted.IsValid ∧ (Command.bare "a200").IsValid ∧
      RobotConfig.load Command.workshop ⟨"robot.toml"⟩ = .ok (Command.bare "a200") ∧
      (outputPath ⟨"/srv/out/"⟩ "...").text = "/srv/out/....urdf.xacro" ∧
      (outputPath ⟨"/srv/out/"⟩ "...").steps ≠ (outputPath ⟨"/srv/out/"⟩ "a200-0001").steps ∧
      Command.workshop.placeOf ⟨"robot.toml"⟩ ≠
        Command.workshop.placeOf (outputPath ⟨"/srv/out/"⟩ "...") := by
  have hdotted : dotted.IsValid := by decide
  have hbare : (Command.bare "a200").IsValid := by decide
  have hload : RobotConfig.load Command.workshop ⟨"robot.toml"⟩ = .ok (Command.bare "a200") :=
    Command.eq_ok_of_toOption Command.load_workshop.1
  obtain ⟨_, _, _, _, _, _, _, _, hinjective, _, hloaded⟩ :=
    outputPath_inside hdotted ⟨"/srv/out/"⟩
  obtain ⟨_, hplaces⟩ := hloaded Command.workshop _ _ hload
  refine ⟨hdotted, hbare, hload, by decide, fun hsteps => ?_, hplaces⟩
  exact absurd (hinjective (Command.bare "a200") hbare hsteps.symm) (by decide)

end RobotDescription.Xacro
