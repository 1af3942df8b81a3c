import RobotDescription.Proofs.Storage.Files

/-!
# Where paths lead

The place that a path names depends on the names in it alone, if it can be reached at all. A name
joined to a path leads to an entry of the directory that the path names.
-/

namespace RobotDescription

namespace Path

theorem pieces_ne_nil (text : List Char) : pieces text ≠ [] := by
  cases text with
  | nil => simp [pieces]
  | cons c rest =>
      unfold pieces
      split
      next => simp
      next => split <;> simp

theorem pieces_of_slash_not_mem {text : List Char} (hslash : '/' ∉ text) :
    pieces text = [text] := by
  induction text with
  | nil => rfl
  | cons c rest ih =>
      have hfirst : c ≠ '/' := fun heq => hslash (heq ▸ List.mem_cons_self)
      have hrest : '/' ∉ rest := fun hmem => hslash (List.mem_cons_of_mem _ hmem)
      simp [pieces, hfirst, ih hrest]

theorem pieces_append_slash (front back : List Char) :
    pieces (front ++ '/' :: back) = pieces front ++ pieces back := by
  induction front with
  | nil => simp [pieces]
  | cons c rest ih =>
      by_cases hslash : c = '/'
      · simp [pieces, hslash, ih]
      · obtain ⟨piece, more, hpieces⟩ := List.exists_cons_of_ne_nil (pieces_ne_nil rest)
        simp [pieces, hslash, ih, hpieces]

/-- The pieces that lead somewhere. -/
def named (pieces : List (List Char)) : List String :=
  (pieces.filter fun piece => piece ≠ [] && piece ≠ ['.']).map String.ofList

theorem steps_eq_named (path : Path) : path.steps = named (pieces path.text.toList) := rfl

theorem named_append (front back : List (List Char)) :
    named (front ++ back) = named front ++ named back := by
  simp [named]

section Join

variable {base : Path} {name : String} (hslash : '/' ∉ name.toList)
include hslash

theorem isAbsolute_name : (⟨name⟩ : Path).isAbsolute = false := by
  rw [isAbsolute, decide_eq_false_iff_not]
  intro hhead
  exact hslash (List.mem_of_mem_head? hhead)

/-- However the base is written, the name is the last piece, and the pieces before it lead where the
base leads. -/
theorem exists_pieces_join :
    ∃ front, pieces (base.join ⟨name⟩).text.toList = front ++ [name.toList] ∧
      named front = base.steps := by
  have hname := pieces_of_slash_not_mem hslash
  rw [join, isAbsolute_name hslash, steps_eq_named]
  by_cases hempty : base.text = ""
  · exact ⟨[], by simp [hempty, hname], by simp [hempty, pieces, named]⟩
  · by_cases hlast : base.text.toList.getLast? = some '/'
    · -- the piece after the last slash of the base is empty and leads nowhere
      obtain ⟨front, hfront⟩ := List.getLast?_eq_some_iff.mp hlast
      refine ⟨pieces front, ?_, ?_⟩
      · simp [hfront, pieces_append_slash, hname]
      · rw [hfront, pieces_append_slash, named_append]
        simp [pieces, named]
    · refine ⟨pieces base.text.toList, ?_, rfl⟩
      simp [hempty, hlast, pieces_append_slash, hname]

theorem steps_join (hempty : name ≠ "") (hdot : name ≠ ".") :
    (base.join ⟨name⟩).steps = base.steps ++ [name] := by
  obtain ⟨front, hpieces, hfront⟩ := @exists_pieces_join base name hslash
  have hname : named [name.toList] = [name] := by
    have hchars : name.toList ≠ ['.'] := fun heq => hdot (String.toList_injective heq)
    simp [named, hempty, hchars]
  rw [steps_eq_named, hpieces, named_append, hfront, hname]

theorem isAbsolute_join : (base.join ⟨name⟩).isAbsolute = base.isAbsolute := by
  simp only [join, isAbsolute_name hslash, Bool.false_eq_true, if_false]
  by_cases hempty : base.text = ""
  · have habsolute := isAbsolute_name hslash
    simp only [isAbsolute] at habsolute ⊢
    simp [hempty, habsolute]
  · obtain ⟨c, rest, hbase⟩ := List.exists_cons_of_ne_nil fun hnil =>
      hempty (String.toList_eq_nil_iff.mp hnil)
    split
    next => simp [isAbsolute, hbase]
    next => simp [isAbsolute, hbase]

end Join

end Path

namespace FileSystem

/-- The place that steps lead to, told from their names alone. -/
def walk : Location → List String → Location
  | here, [] => here
  | here, step :: rest => if step = ".." then walk here.dropLast rest else walk (here ++ [step]) rest

theorem walk_append (here : Location) (front back : List String) :
    walk here (front ++ back) = walk (walk here front) back := by
  induction front generalizing here with
  | nil => rfl
  | cons step rest ih =>
      simp only [List.cons_append, walk]
      split
      next => exact ih _
      next => exact ih _

/-- The place that a path names, whether or not it can be reached. -/
def placeOf (fs : FileSystem) (path : Path) : Location :=
  walk (fs.start path) path.steps

theorem placeOf_congr {fs fs' : FileSystem}
    (hsame : fs'.workingDirectory = fs.workingDirectory) (path : Path) :
    fs'.placeOf path = fs.placeOf path := by
  rw [placeOf, placeOf, start, start, hsame]

/-- A name joined to a path leads to the entry of that name in the directory of the path. -/
theorem placeOf_join {fs : FileSystem} {base : Path} {name : String}
    (hslash : '/' ∉ name.toList) (hempty : name ≠ "") (hdot : name ≠ ".") (hparent : name ≠ "..") :
    fs.placeOf (base.join ⟨name⟩) = fs.placeOf base ++ [name] := by
  rw [placeOf, start, Path.isAbsolute_join hslash, Path.steps_join hslash hempty hdot, walk_append]
  simp [walk, hparent, placeOf, start]

/-- A step is followed out of a directory, up to the one above it or down under a name of its own. -/
theorem follow_cons_eq_ok_iff {fs : FileSystem} {here place : Location} {step : String}
    {rest : List String} : fs.follow here (step :: rest) = .ok place ↔
      fs.get? here = some .directory ∧
        (step = ".." ∧ fs.follow here.dropLast rest = .ok place ∨
          step ≠ ".." ∧ step.utf8ByteSize ≤ maxNameLength ∧
            fs.follow (here ++ [step]) rest = .ok place) := by
  rw [follow]
  split
  next hnone => simp [hnone]
  next hfile => simp [hfile]
  next hdirectory =>
    rw [hdirectory]
    split
    next hup => simp [hup]
    next hdown =>
      split
      next hlong => simp [hdown, Nat.not_le.mpr hlong]
      next hshort => simp [hdown, Nat.not_lt.mp hshort]

theorem follow_eq_ok {fs : FileSystem} {here place : Location} {steps : List String}
    (hfollow : fs.follow here steps = .ok place) : place = walk here steps := by
  induction steps generalizing here with
  | nil =>
      cases hfollow
      rfl
  | cons step rest ih =>
      rw [walk]
      obtain ⟨_, ⟨hup, hrest⟩ | ⟨hdown, _, hrest⟩⟩ := follow_cons_eq_ok_iff.mp hfollow
      · rw [if_pos hup]
        exact ih hrest
      · rw [if_neg hdown]
        exact ih hrest

theorem locate_eq_ok_iff {fs : FileSystem} {path : Path} {place : Location} :
    fs.locate path = .ok place ↔ isRefused path = false ∧ path.text.isEmpty = false ∧
      fs.follow (fs.start path) path.steps = .ok place := by
  unfold locate
  split
  next hrefused => simp [hrefused]
  next hrefused =>
    split
    next hempty => simp [hempty]
    next hempty => simp [hrefused, hempty]

theorem locate_eq_ok {fs : FileSystem} {path : Path} {place : Location}
    (hlocate : fs.locate path = .ok place) : place = fs.placeOf path :=
  follow_eq_ok (locate_eq_ok_iff.mp hlocate).2.2

/-- Steps can be followed wherever the directories on the way still stand. -/
theorem follow_of_directories {fs fs' : FileSystem} {here place : Location} {steps : List String}
    (hdirectories : ∀ other, fs.get? other = some .directory → fs'.get? other = some .directory)
    (hfollow : fs.follow here steps = .ok place) : fs'.follow here steps = .ok place := by
  induction steps generalizing here with
  | nil => exact hfollow
  | cons step rest ih =>
      obtain ⟨hhere, hstep⟩ := follow_cons_eq_ok_iff.mp hfollow
      refine follow_cons_eq_ok_iff.mpr ⟨hdirectories here hhere, ?_⟩
      rcases hstep with ⟨hup, hrest⟩ | ⟨hdown, hshort, hrest⟩
      · exact .inl ⟨hup, ih hrest⟩
      · exact .inr ⟨hdown, hshort, ih hrest⟩

theorem locate_of_directories {fs fs' : FileSystem} {path : Path} {place : Location}
    (hdirectories : ∀ other, fs.get? other = some .directory → fs'.get? other = some .directory)
    (hsame : fs'.workingDirectory = fs.workingDirectory)
    (hlocate : fs.locate path = .ok place) : fs'.locate path = .ok place := by
  obtain ⟨hrefused, hempty, hfollow⟩ := locate_eq_ok_iff.mp hlocate
  have hstart : fs'.start path = fs.start path := by rw [start, start, hsame]
  refine locate_eq_ok_iff.mpr ⟨hrefused, hempty, ?_⟩
  rw [hstart]
  exact follow_of_directories hdirectories hfollow

theorem createSteps_eq_ok {fs : FileSystem} {here place : Location} {steps : List String}
    (hmade : (fs.createSteps here steps).2 = .ok place) : place = walk here steps := by
  induction steps generalizing fs here with
  | nil =>
      cases hmade
      rfl
  | cons step rest ih =>
      rw [createSteps] at hmade
      rw [walk]
      split at hmade
      next hup =>
        rw [if_pos hup]
        exact ih hmade
      next hdown =>
        rw [if_neg hdown]
        split at hmade
        next => cases hmade
        next =>
          split at hmade
          next => exact ih hmade
          next => cases hmade
          next => exact ih hmade

/-- A directory is made where its path leads. -/
theorem createDirectories_eq_ok {fs made : FileSystem} {path : Path} {place : Location}
    (hmade : fs.createDirectories path = (made, .ok place)) : place = fs.placeOf path := by
  have hplace : (fs.createDirectories path).2 = .ok place := by rw [hmade]
  unfold createDirectories at hplace
  split at hplace
  next hempty =>
    cases hplace
    have htext : path.text = "" := by simpa using hempty
    simp [placeOf, start, Path.isAbsolute, Path.steps, Path.pieces, htext, walk]
  next =>
    split at hplace
    next => cases hplace
    next =>
      split at hplace
      next =>
        -- the directory that the dot names is looked up after those on the way have been made
        have hfiles := SameFiles.createSteps fs (fs.start path) path.steps.dropLast
        split at hplace
        next => cases hplace
        next hsteps =>
          rw [hsteps] at hfiles
          split at hplace
          next => cases hplace
          next hlocate =>
            split at hplace
            next =>
              cases hplace
              rw [locate_eq_ok hlocate, placeOf_congr hfiles.workingDirectory_eq]
            next => cases hplace
      next => exact createSteps_eq_ok hplace

/-- A file that is put where no directory stands is in nobody's way. -/
theorem locate_put_file {fs : FileSystem} {place target : Location} {path : Path}
    (hplace : place ≠ []) (hentry : fs.get? place ≠ some .directory)
    (hlocate : fs.locate path = .ok target) (hfree : fs.get? target ≠ some .directory)
    (content : ByteArray) :
    (fs.put place (.file content)).locate path = .ok target ∧
      (fs.put place (.file content)).get? target ≠ some .directory := by
  constructor
  · have hstands : ∀ other, fs.get? other = some .directory →
        (fs.put place (.file content)).get? other = some .directory := by
      intro other hother
      have hne : other ≠ place := by
        rintro rfl
        exact hentry hother
      rw [get?_put hplace, if_neg hne, hother]
    exact locate_of_directories hstands rfl hlocate
  · rw [get?_put hplace]
    split
    next => nofun
    next => exact hfree

/-- A file is moved to a place that can be reached and is not a directory. -/
theorem rename_eq_ok {fs moved : FileSystem} {source : Location} {target : Path}
    (hmoved : fs.rename source target = .ok moved) :
    ∃ entry, fs.get? source = some entry ∧ fs.locate target = .ok (fs.placeOf target) ∧
      fs.get? (fs.placeOf target) ≠ some .directory ∧
      moved = (fs.remove source).put (fs.placeOf target) entry := by
  unfold rename at hmoved
  split at hmoved
  next => cases hmoved
  next => cases hmoved
  next place entry hlocate hsource =>
    have hplace := locate_eq_ok hlocate
    subst hplace
    split at hmoved
    next => cases hmoved
    next hfree =>
      cases hmoved
      exact ⟨entry, hsource, hlocate, hfree, rfl⟩

theorem rename_of_locate {fs : FileSystem} {source place : Location} {target : Path} {entry : Entry}
    (hsource : fs.get? source = some entry) (hlocate : fs.locate target = .ok place)
    (hfree : fs.get? place ≠ some .directory) :
    fs.rename source target = .ok ((fs.remove source).put place entry) := by
  unfold rename
  rw [hlocate, hsource]
  dsimp only
  split
  next hdirectory => exact absurd hdirectory hfree
  next => rfl

theorem read_of_locate {fs : FileSystem} {path : Path} {place : Location} {content : ByteArray}
    (hlocate : fs.locate path = .ok place) (hget : fs.get? place = some (.file content))
    (hname : namesDirectory path = false) : fs.read path = .ok content := by
  have hstatus : fs.status path = .ok (.file content) := by
    unfold status
    rw [hlocate]
    dsimp only
    rw [hget]
    simp [hname]
  rw [read, hstatus]

end FileSystem

end RobotDescription
