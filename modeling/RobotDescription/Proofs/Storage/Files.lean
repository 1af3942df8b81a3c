import RobotDescription.Storage.FileSystem

/-!
# Which files there are

A file system seen as a map from places to the contents of files. Directories do not show in it, so
making directories changes nothing; putting, removing and renaming change the map at the places that
they name and nowhere else.
-/

namespace RobotDescription.FileSystem

theorem lookup_filter_ne (entries : List (Location × Entry)) (place other : Location) :
    (entries.filter (·.1 ≠ place)).lookup other =
      if other = place then none else entries.lookup other := by
  induction entries with
  | nil => simp
  | cons entry rest ih =>
      obtain ⟨key, value⟩ := entry
      by_cases hkey : key = place
      · subst hkey
        by_cases hother : other = key
        · simpa [hother] using ih
        · simpa [List.lookup_cons, beq_eq_false_iff_ne.mpr hother, hother] using ih
      · by_cases hother : other = key
        · subst hother
          simp [hkey]
        · simpa [List.lookup_cons, hkey, beq_eq_false_iff_ne.mpr hother] using ih

section Entries

variable {fs : FileSystem} {place : Location} (hplace : place ≠ [])
include hplace

theorem get?_put (entry : Entry) (other : Location) :
    (fs.put place entry).get? other = if other = place then some entry else fs.get? other := by
  by_cases hroot : other = []
  · subst hroot
    simp [get?, Ne.symm hplace]
  · by_cases hother : other = place
    · subst hother
      simp [get?, put, hroot]
    · have hlookup := lookup_filter_ne fs.entries place other
      simpa [get?, put, hroot, hother, List.lookup_cons, beq_eq_false_iff_ne.mpr hother]
        using hlookup

theorem get?_remove (other : Location) :
    (fs.remove place).get? other = if other = place then none else fs.get? other := by
  by_cases hroot : other = []
  · subst hroot
    simp [get?, Ne.symm hplace]
  · simpa [get?, remove, hroot] using lookup_filter_ne fs.entries place other

end Entries

theorem remove_put (fs : FileSystem) (place : Location) (entry : Entry) :
    (fs.put place entry).remove place = fs.remove place := by
  simp [put, remove, List.filter_filter]

/-- The bytes of the file at a place, if a file stands there. -/
def content? (fs : FileSystem) (place : Location) : Option ByteArray :=
  match fs.get? place with
  | some (.file content) => some content
  | _ => none

theorem content?_congr {fs fs' : FileSystem} {place : Location}
    (hsame : fs'.get? place = fs.get? place) : fs'.content? place = fs.content? place := by
  rw [content?, content?, hsame]

theorem content?_of_get?_eq_none {fs : FileSystem} {place : Location}
    (hnone : fs.get? place = none) : fs.content? place = none := by
  rw [content?, hnone]

section Contents

variable {fs : FileSystem} {place : Location} (hplace : place ≠ [])
include hplace

theorem content?_put_file (content : ByteArray) (other : Location) :
    (fs.put place (.file content)).content? other =
      if other = place then some content else fs.content? other := by
  rw [content?, get?_put hplace]
  by_cases hother : other = place
  · simp [hother]
  · simp [hother, content?]

theorem content?_remove (other : Location) :
    (fs.remove place).content? other = if other = place then none else fs.content? other := by
  rw [content?, get?_remove hplace]
  by_cases hother : other = place
  · simp [hother]
  · simp [hother, content?]

end Contents

/-- The second file system has the files and the working directory of the first. The two may differ
in their directories. -/
structure SameFiles (fs fs' : FileSystem) : Prop where
  content?_eq : ∀ place, fs'.content? place = fs.content? place
  workingDirectory_eq : fs'.workingDirectory = fs.workingDirectory

namespace SameFiles

theorem refl (fs : FileSystem) : fs.SameFiles fs :=
  ⟨fun _ => rfl, rfl⟩

theorem trans {first second third : FileSystem} (hfirst : first.SameFiles second)
    (hsecond : second.SameFiles third) : first.SameFiles third :=
  ⟨fun place => (hsecond.content?_eq place).trans (hfirst.content?_eq place),
    hsecond.workingDirectory_eq.trans hfirst.workingDirectory_eq⟩

theorem put_directory {fs : FileSystem} {place : Location} (hplace : place ≠ [])
    (hfree : fs.get? place = none) : fs.SameFiles (fs.put place .directory) := by
  refine ⟨fun other => ?_, rfl⟩
  by_cases hother : other = place
  · subst hother
    rw [content?_of_get?_eq_none hfree, content?, get?_put hplace, if_pos rfl]
  · apply content?_congr
    rw [get?_put hplace, if_neg hother]

theorem remove_of_free {fs : FileSystem} {place : Location} (hplace : place ≠ [])
    (hfree : fs.get? place = none) : fs.SameFiles (fs.remove place) := by
  refine ⟨fun other => ?_, rfl⟩
  rw [content?_remove hplace]
  split
  next hother => rw [hother, content?_of_get?_eq_none hfree]
  next => rfl

theorem createSteps (fs : FileSystem) (here : Location) (steps : List String) :
    fs.SameFiles (fs.createSteps here steps).1 := by
  induction steps generalizing fs here with
  | nil => exact refl fs
  | cons step rest ih =>
      rw [FileSystem.createSteps]
      split
      next => exact ih fs here.dropLast
      next =>
        split
        next => exact refl fs
        next =>
          split
          next => exact ih fs _
          next => exact refl fs
          next hfree => exact (put_directory (by simp) hfree).trans (ih _ _)

/-- Making directories neither makes nor changes a file, whether or not it succeeds. -/
theorem createDirectories (fs : FileSystem) (path : Path) :
    fs.SameFiles (fs.createDirectories path).1 := by
  unfold FileSystem.createDirectories
  split
  next => exact refl fs
  next =>
    split
    next => exact refl fs
    next =>
      split
      next =>
        have hmade := createSteps fs (fs.start path) path.steps.dropLast
        split
        next hsteps => rwa [hsteps] at hmade
        next hsteps =>
          rw [hsteps] at hmade
          split
          next => exact hmade
          next =>
            split
            next => exact hmade
            next => exact hmade
      next => exact createSteps fs _ _

end SameFiles

end RobotDescription.FileSystem
