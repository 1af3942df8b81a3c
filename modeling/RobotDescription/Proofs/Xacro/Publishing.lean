import Mathlib.Data.List.Nodup
import RobotDescription.Proofs.Storage.Places
import RobotDescription.Proofs.Xacro.Images

/-!
# Publishing a description

The temporary name that a description file takes is free in its directory and is the name of no
description. Moving the temporary file away changes the target and the temporary file and no other
file; where it cannot be moved, only the temporary file is gone.
-/

namespace RobotDescription.Xacro

/-- A name that some description has. -/
def IsDescriptionName (name : String) : Prop :=
  ∃ serial, name = serial ++ "." ++ fileExtension

theorem isDescriptionName_iff {name : String} :
    IsDescriptionName name ↔ ".urdf.xacro".toList <:+ name.toList := by
  constructor
  · rintro ⟨serial, rfl⟩
    exact ⟨serial.toList, by simp [fileExtension]⟩
  · rintro ⟨front, hname⟩
    refine ⟨String.ofList front, String.toList_injective ?_⟩
    rw [← hname]
    simp [fileExtension]

instance (name : String) : Decidable (IsDescriptionName name) :=
  decidable_of_iff _ isDescriptionName_iff.symm

theorem not_isDescriptionName_temporaryName (number : Nat) :
    ¬ IsDescriptionName (temporaryName number) := by
  rintro ⟨serial, hname⟩
  have hlast := congrArg (fun name => name.toList.reverse.head?) hname
  simp [temporaryName, fileExtension] at hlast

theorem temporaryName_injective : Function.Injective temporaryName := by
  intro first second hsame
  simp only [temporaryName, String.append_left_inj, String.append_right_inj,
    Nat.toString_eq_repr, Nat.repr_eq_ofList_toDigits, String.ofList_inj] at hsame
  have hread := fun number => @Nat.ofDigitChars_toDigits 10 number (by omega) (by omega)
  rw [← hread first, hsame, hread second]

theorem mem_of_get?_ne_none {fs : FileSystem} {place : Location} (hplace : place ≠ [])
    (hget : fs.get? place ≠ none) : place ∈ fs.entries.map (·.1) := by
  rw [FileSystem.get?, if_neg hplace] at hget
  by_contra hmem
  apply hget
  rw [List.lookup_eq_none_iff]
  intro entry hentry
  have hne : place ≠ entry.1 := fun heq => hmem (heq ▸ List.mem_map_of_mem hentry)
  simpa using hne

/-- There are more candidates than entries, so one of them is free. -/
theorem get?_freshName (fs : FileSystem) (directory : Location) :
    fs.get? (directory ++ [freshName fs directory]) = none := by
  let isFree := fun number => (fs.get? (directory ++ [temporaryName number])).isNone
  have hfound : ((List.range (fs.entries.length + 1)).find? isFree).isSome = true := by
    by_contra hnone
    rw [Bool.not_eq_true, Option.isSome_eq_false_iff, Option.isNone_iff_eq_none,
      List.find?_eq_none] at hnone
    let places := (List.range (fs.entries.length + 1)).map fun number =>
      directory ++ [temporaryName number]
    -- otherwise all candidates would be among the entries, which are fewer
    have hnodup : places.Nodup := by
      apply List.nodup_range.map
      intro first second hsame
      apply temporaryName_injective
      simpa using hsame
    have hsubset : places ⊆ fs.entries.map (·.1) := by
      intro place hmem
      obtain ⟨number, hnumber, rfl⟩ := List.mem_map.mp hmem
      apply mem_of_get?_ne_none (by simp)
      simpa [isFree] using hnone number hnumber
    have hlength := hnodup.length_le_of_subset hsubset
    simp only [places, List.length_map, List.length_range] at hlength
    omega
  obtain ⟨number, hnumber⟩ := Option.isSome_iff_exists.mp hfound
  have hname : freshName fs directory = temporaryName number := by
    simp only [freshName]
    rw [hnumber, Option.getD_some]
  rw [hname]
  simpa [isFree] using List.find?_some hnumber

theorem not_isDescriptionName_freshName (fs : FileSystem) (directory : Location) :
    ¬ IsDescriptionName (freshName fs directory) :=
  not_isDescriptionName_temporaryName _

section Target

variable {fs : FileSystem} {directory : Path} {serial : String} (hslash : '/' ∉ serial.toList)
include hslash

theorem slash_not_mem_name : '/' ∉ (serial ++ "." ++ fileExtension).toList := by
  simp [fileExtension, hslash]

/-- The description of a serial number stands in its directory. -/
theorem placeOf_outputPath :
    fs.placeOf (outputPath directory serial) =
      fs.placeOf directory ++ [serial ++ "." ++ fileExtension] := by
  have hlong : 11 ≤ (serial ++ "." ++ fileExtension).toList.length := by simp [fileExtension]
  have hne : ∀ name : String, name.toList.length < 11 → serial ++ "." ++ fileExtension ≠ name := by
    rintro name hshort rfl
    omega
  exact FileSystem.placeOf_join (slash_not_mem_name hslash) (hne _ (by decide)) (hne _ (by decide))
    (hne _ (by decide))

theorem namesDirectory_outputPath :
    FileSystem.namesDirectory (outputPath directory serial) = false := by
  obtain ⟨front, hpieces, _⟩ := @Path.exists_pieces_join directory _ (slash_not_mem_name hslash)
  have hdot : serial.toList ++ ".urdf.xacro".toList ≠ ['.'] := by
    intro hdot
    have hlength := congrArg List.length hdot
    simp at hlength
  rw [FileSystem.namesDirectory, outputPath, hpieces, List.getLast?_concat]
  simpa [fileExtension] using hdot

end Target

namespace FileSink

section Publish

variable {fs : FileSystem} {temporary : Location} {content : ByteArray} {target : Path}

/-- A draft that is moved stands at its target and no longer at its own place. -/
theorem publish_of_ok (htemporary : temporary ≠ [])
    (hpublished : (publish fs temporary content target).2.1 = .ok ()) :
    fs.placeOf target ≠ [] ∧
      (publish fs temporary content target).1 =
        (fs.remove temporary).put (fs.placeOf target) (.file content) ∧
      (FileSystem.namesDirectory target = false →
        (publish fs temporary content target).1.read target = .ok content) := by
  unfold publish at hpublished ⊢
  dsimp only at hpublished ⊢
  split at hpublished
  next moved hmoved =>
    obtain ⟨entry, hentry, hlocate, hfree, rfl⟩ := FileSystem.rename_eq_ok hmoved
    rw [FileSystem.get?_put htemporary, if_pos rfl] at hentry
    cases hentry
    have hplace : (fs.put temporary (.file content)).placeOf target = fs.placeOf target :=
      FileSystem.placeOf_congr rfl target
    rw [hplace] at hlocate hfree ⊢
    -- the root is a directory, so no file is moved there
    have hroot : fs.placeOf target ≠ [] := by
      intro hroot
      rw [hroot] at hfree
      exact hfree rfl
    rw [FileSystem.remove_put]
    refine ⟨hroot, rfl, fun hname => ?_⟩
    have hdirectories : ∀ other,
        (fs.put temporary (.file content)).get? other = some .directory →
          ((fs.remove temporary).put (fs.placeOf target) (.file content)).get? other =
            some .directory := by
      intro other hother
      have htarget : other ≠ fs.placeOf target := by
        rintro rfl
        exact hfree hother
      rw [FileSystem.get?_put htemporary] at hother
      rw [FileSystem.get?_put hroot, if_neg htarget, FileSystem.get?_remove htemporary]
      split at hother
      next => cases hother
      next hne => rw [if_neg hne, hother]
    apply FileSystem.read_of_locate (FileSystem.locate_of_directories hdirectories rfl hlocate) _
      hname
    rw [FileSystem.get?_put hroot, if_pos rfl]
  next => cases hpublished

/-- Where a draft cannot be moved, it is removed, and that is all. -/
theorem publish_of_error {error : SinkError}
    (hrefused : (publish fs temporary content target).2.1 = .error error) :
    (publish fs temporary content target).1 = fs.remove temporary := by
  unfold publish at hrefused ⊢
  dsimp only at hrefused ⊢
  split at hrefused
  next => cases hrefused
  next hmoved =>
    exact FileSystem.remove_put fs temporary _

end Publish

theorem canPublish_ofDocument {files : FileSystem} {temporary place : Location} {target : Path}
    (robotName : String) (htemporary : temporary ≠ [])
    (hentry : files.get? temporary ≠ some .directory) (hlocate : files.locate target = .ok place)
    (hfree : files.get? place ≠ some .directory) :
    CanPublish (ofDocument files temporary target robotName .empty) := by
  rintro draft ⟨⟩ content
  have hsource : (files.put temporary (.file content)).get? temporary = some (.file content) := by
    rw [FileSystem.get?_put htemporary, if_pos rfl]
  obtain ⟨hreached, hkept⟩ :=
    FileSystem.locate_put_file htemporary hentry hlocate hfree content
  exact ⟨_, FileSystem.rename_of_locate hsource hreached hkept⟩

end FileSink

/-- Every call succeeds that a description in a directory needs of the file system: the directory
can be made, and then the target can be reached and is not a directory. -/
def Permits (fs : FileSystem) (directory : Path) (serial : String) : Prop :=
  ∃ made here place, fs.createDirectories directory = (made, .ok here) ∧
    made.locate (outputPath directory serial) = .ok place ∧ made.get? place ≠ some .directory

/-- A new description file has an empty temporary file, under a free name beside its target. -/
theorem DescriptionFile.create_of_made {fs made : FileSystem} {directory : Path} {here : Location}
    (hmade : fs.createDirectories directory = (made, .ok here)) (serial : String) :
    let temporary := here ++ [freshName made here]
    let target := outputPath directory serial
    (create fs directory serial).files = made.put temporary (.file .empty) ∧
      (create fs directory serial).result =
        .ok ⟨target, some ⟨temporary, .ofDocument {} serial .empty⟩⟩ := by
  have hwriter := @Writer.create_eq_ofDocument {} ⟨rfl, rfl, rfl⟩ serial
  simp only [create, hmade, hwriter]
  exact ⟨trivial, trivial⟩

/-- Where it is permitted, a description file is opened whose draft can be moved onto its target. The
files that were there before are still there, and the temporary file is none of them. -/
theorem Permits.exists_create {fs : FileSystem} {directory : Path} {serial : String}
    (hpermits : Permits fs directory serial) :
    ∃ made temporary file, fs.SameFiles made ∧ temporary ≠ [] ∧ made.get? temporary = none ∧
      (DescriptionFile.create fs directory serial).result = .ok file ∧
      (⟨(DescriptionFile.create fs directory serial).files, file⟩ : FileSink) =
        .ofDocument (made.put temporary (.file .empty)) temporary (outputPath directory serial)
          serial .empty ∧
      FileSink.CanPublish (.ofDocument (made.put temporary (.file .empty)) temporary
        (outputPath directory serial) serial .empty) := by
  obtain ⟨made, here, place, hmade, hlocate, hfree⟩ := hpermits
  obtain ⟨hopened, hresult⟩ := DescriptionFile.create_of_made hmade serial
  have hfiles : fs.SameFiles made := by
    have hfiles := FileSystem.SameFiles.createDirectories fs directory
    rwa [hmade] at hfiles
  have hfresh := get?_freshName made here
  have htemporary : here ++ [freshName made here] ≠ [] := by simp
  generalize here ++ [freshName made here] = temporary at hopened hresult hfresh htemporary
  obtain ⟨hreached, hkept⟩ :=
    FileSystem.locate_put_file htemporary (by simp [hfresh]) hlocate hfree .empty
  refine ⟨made, temporary, _, hfiles, htemporary, hfresh, hresult, by rw [hopened]; rfl, ?_⟩
  apply FileSink.canPublish_ofDocument serial htemporary _ hreached hkept
  simp [FileSystem.get?_put htemporary]

end RobotDescription.Xacro
