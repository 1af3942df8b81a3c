import RobotDescription.Config.Load
import RobotDescription.Proofs.Storage.Places

/-!
# Names and extensions of joined paths

Joining writes a name after the base, with a separator where one is missing, and the name is then
the last one of the path. The format of a configuration is told by that name alone.
-/

namespace RobotDescription

namespace Path

section Join

variable {base : Path} {name : String} (hslash : '/' ∉ name.toList)
include hslash

theorem text_join :
    (base.join ⟨name⟩).text = base.text ++
      (if base.text = "" ∨ base.text.toList.getLast? = some '/' then "" else "/") ++ name := by
  simp only [join, isAbsolute_name hslash, Bool.false_eq_true, if_false, String.isEmpty_iff,
    Bool.or_eq_true, decide_eq_true_eq]
  split
  next => rw [String.append_empty]
  next => rfl

theorem fileName?_join (hempty : name ≠ "") (hdot : name ≠ ".") (hparent : name ≠ "..") :
    (base.join ⟨name⟩).fileName? = some name := by
  rw [fileName?, steps_join hslash hempty hdot, List.getLast?_concat]
  simp [hparent]

end Join

/-- What stands after the last dot, if something stands before it. -/
theorem extensionOf?_append {stem suffix : List Char} (hstem : stem ≠ []) (hsuffix : '.' ∉ suffix) :
    extensionOf? (stem ++ '.' :: suffix) = some suffix := by
  have hreversed : (stem ++ '.' :: suffix).reverse = suffix.reverse ++ '.' :: stem.reverse := by
    simp
  have hplain : ∀ c ∈ suffix.reverse, decide (c ≠ '.') = true := by
    intro c hmem
    refine decide_eq_true fun hdot => hsuffix ?_
    rw [← hdot]
    exact List.mem_reverse.mp hmem
  have hafter : (suffix.reverse ++ '.' :: stem.reverse).takeWhile (· ≠ '.') = suffix.reverse := by
    rw [List.takeWhile_append_of_pos hplain]
    simp
  have hbefore : (suffix.reverse ++ '.' :: stem.reverse).dropWhile (· ≠ '.') =
      '.' :: stem.reverse := by
    rw [List.dropWhile_append_of_pos hplain]
    simp
  simp only [extensionOf?, hreversed, hafter, hbefore]
  simp [hstem]

theorem extension?_congr {path other : Path} (hname : path.fileName? = other.fileName?) :
    path.extension? = other.extension? := by
  rw [extension?, extension?, hname]

end Path

namespace Format

theorem ofPath?_congr {path other : Path} (hname : path.fileName? = other.fileName?) :
    ofPath? path = ofPath? other := by
  rw [ofPath?, ofPath?, Path.extension?_congr hname]

theorem exists_fileName?_of_ofPath? {path : Path} {format : Format}
    (hformat : ofPath? path = some format) : ∃ name, path.fileName? = some name := by
  cases hname : path.fileName? with
  | none => simp [ofPath?, Path.extension?, hname] at hformat
  | some name => exact ⟨name, rfl⟩

end Format

namespace FileSystem

variable {fs : FileSystem} {path other : Path} {name name' : String}

/-- A path that ends in a name leads to an entry of that name. -/
theorem exists_placeOf_of_fileName? (hname : path.fileName? = some name) :
    ∃ front, fs.placeOf path = front ++ [name] := by
  obtain ⟨hlast, hparent⟩ := Option.filter_eq_some_iff.mp hname
  obtain ⟨front, hsteps⟩ := List.getLast?_eq_some_iff.mp hlast
  refine ⟨walk (fs.start path) front, ?_⟩
  rw [placeOf, hsteps, walk_append, walk, if_neg (of_decide_eq_true hparent)]
  rfl

theorem placeOf_ne_of_fileName?_ne (hname : path.fileName? = some name)
    (hname' : other.fileName? = some name') (hne : name ≠ name') :
    fs.placeOf path ≠ fs.placeOf other := by
  obtain ⟨front, hplace⟩ := @exists_placeOf_of_fileName? fs path name hname
  obtain ⟨front', hplace'⟩ := @exists_placeOf_of_fileName? fs other name' hname'
  rw [hplace, hplace']
  intro hsame
  exact hne (List.singleton_inj.mp (List.append_inj' hsame rfl).2)

end FileSystem

/-- Only a path whose name tells a format is loaded. -/
theorem RobotConfig.exists_format_of_load {fs : FileSystem} {path : Path} {config : RobotConfig}
    (hload : load fs path = .ok config) : ∃ format, Format.ofPath? path = some format := by
  unfold load at hload
  split at hload
  next => cases hload
  next =>
    split at hload
    next => cases hload
    next format hformat => exact ⟨format, hformat⟩

end RobotDescription
