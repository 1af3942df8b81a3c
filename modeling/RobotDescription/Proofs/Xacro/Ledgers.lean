import RobotDescription.Proofs.Xacro.Sessions

/-!
# What a ledger tells

The ledger of a session tells the state of every sink and, at every place, the bytes that stand
there: at the temporary place of a sink that is open some file of its own, elsewhere what was
published last, or what was there in the beginning. Each way in which a sink or the file system goes
on keeps the ledger true.
-/

namespace RobotDescription.Xacro

/-- The bytes that stand at a place when descriptions have been published over what was there. -/
def contentAfter (fs : FileSystem) (here : Location) : List Record → Location → Option ByteArray
  | [], place => fs.content? place
  | record :: earlier, place =>
    if place = record.target here then some record.wholeText.toUTF8
    else contentAfter fs here earlier place

section Content

variable {fs : FileSystem} {here : Location} {published : List Record}

theorem contentAfter_of_not_target {place : Location}
    (hplace : ∀ record ∈ published, place ≠ record.target here) :
    contentAfter fs here published place = fs.content? place := by
  induction published with
  | nil => rfl
  | cons record earlier ih =>
      rw [contentAfter, if_neg (hplace record List.mem_cons_self)]
      exact ih fun other hother => hplace other (List.mem_cons_of_mem _ hother)

/-- The last description of a serial number is what stands at its target. -/
theorem contentAfter_target (serial : String) :
    contentAfter fs here published (here ++ [serial ++ "." ++ fileExtension]) =
      match published.find? (·.serial = serial) with
      | some record => some record.wholeText.toUTF8
      | none => fs.content? (here ++ [serial ++ "." ++ fileExtension]) := by
  induction published with
  | nil => rfl
  | cons record earlier ih =>
      rw [contentAfter]
      by_cases hserial : record.serial = serial
      · simp [hserial, Record.target]
      · have htarget : here ++ [serial ++ "." ++ fileExtension] ≠ record.target here := by
          intro hsame
          apply hserial
          simpa [Record.target, String.append_left_inj, eq_comm] using hsame
        rw [if_neg htarget, ih, List.find?_cons_of_neg (by simpa using hserial)]

end Content

theorem Record.place_ne_target {here : Location} {record : Record}
    (hname : ¬ IsDescriptionName record.name) (other : Record) :
    record.place here ≠ other.target here := by
  intro hsame
  apply hname
  refine ⟨other.serial, ?_⟩
  simpa [Record.place, Record.target] using hsame

theorem Record.place_eq_iff {here : Location} {first second : Record} :
    first.place here = second.place here ↔ first.name = second.name := by
  simp [Record.place]

theorem getElem?_concat_cases {α : Type} {items : List α} {last item : α} {index : Nat}
    (hitem : (items ++ [last])[index]? = some item) :
    items[index]? = some item ∨ index = items.length ∧ item = last := by
  rw [List.getElem?_append] at hitem
  split at hitem
  next => exact .inl hitem
  next hlong =>
    rw [List.getElem?_singleton] at hitem
    split at hitem
    next hzero =>
      cases hitem
      exact .inr ⟨by omega, rfl⟩
    next => cases hitem

section Modify

variable {α : Type} {items : List α} {index : Nat} {changed : α}
  (hchanged : items[index]? = some changed) {change : α → α} {item : α}
include hchanged

theorem getElem?_modify_cases {other : Nat}
    (hitem : (items.modify index change)[other]? = some item) :
    (other ≠ index ∧ items[other]? = some item) ∨ other = index ∧ item = change changed := by
  by_cases hindex : other = index
  · subst hindex
    rw [List.getElem?_modify_eq, hchanged] at hitem
    cases hitem
    exact .inr ⟨rfl, rfl⟩
  · rw [List.getElem?_modify_ne _ _ (Ne.symm hindex)] at hitem
    exact .inl ⟨hindex, hitem⟩

theorem mem_modify_of_mem (hmem : item ∈ items) (change : α → α) :
    item ∈ items.modify index change ∨
      item = changed ∧ change changed ∈ items.modify index change := by
  obtain ⟨position, hposition⟩ := List.mem_iff_getElem?.mp hmem
  by_cases hindex : index = position
  · subst hindex
    refine .inr ⟨Option.some.inj (hposition.symm.trans hchanged),
      List.mem_of_getElem? (i := index) ?_⟩
    rw [List.getElem?_modify_eq, hchanged]
    rfl
  · refine .inl (List.mem_of_getElem? (i := position) ?_)
    rw [List.getElem?_modify_ne _ _ hindex, hposition]

end Modify

theorem modify_of_unchanged {α : Type} {items : List α} {index : Nat} {change : α → α}
    (hsame : ∀ item, items[index]? = some item → change item = item) :
    items.modify index change = items := by
  apply List.ext_getElem?
  intro other
  rw [List.getElem?_modify]
  by_cases hindex : index = other
  · subst hindex
    cases hitem : items[index]? with
    | none => rfl
    | some item => simp [hsame item hitem]
  · simp [hindex]

/-- The description file is in the state that the record tells. -/
structure Record.Tracks (here : Location) (directory : Path) (record : Record)
    (file : DescriptionFile) : Prop where
  target_eq : file.target = outputPath directory record.serial
  draft_eq : record.ended = true → file.draft = none
  drafts : record.ended = false → file.Drafts (record.place here) record.text

/-- The record could be made: what was there in the beginning is no temporary file of its. -/
structure Record.IsSound (fs : FileSystem) (here : Location) (record : Record) : Prop where
  serial : IsAccepted record.serial
  name : ¬ IsDescriptionName record.name
  content?_eq : fs.content? (record.place here) = none

/-- The place belongs to no sink that is still open. -/
def Ledger.Leaves (here : Location) (ledger : Ledger) (place : Location) : Prop :=
  ∀ record ∈ ledger.records, record.ended = false → place ≠ record.place here

theorem Ledger.ended_or_open (ledger : Ledger) (index : Nat) :
    (∀ record, ledger.records[index]? = some record → record.ended = true) ∨
      ∃ record, ledger.records[index]? = some record ∧ record.ended = false := by
  cases hrecord : ledger.records[index]? with
  | none => exact .inl nofun
  | some record =>
      cases hended : record.ended with
      | false => exact .inr ⟨record, rfl, hended⟩
      | true =>
          left
          rintro other ⟨⟩
          exact hended

/-- The records tell of the sinks, one of each, and no two sinks that are open share a temporary
file. -/
structure Describes (fs : FileSystem) (directory : Path) (records : List Record)
    (sinks : List DescriptionFile) : Prop where
  length_eq : sinks.length = records.length
  tracks : ∀ (index : Nat) (record : Record) (file : DescriptionFile),
    records[index]? = some record → sinks[index]? = some file →
      record.Tracks (fs.placeOf directory) directory file
  sound : ∀ record ∈ records, record.IsSound fs (fs.placeOf directory)
  distinct : ∀ (first second : Nat) (a b : Record), first ≠ second →
    records[first]? = some a → records[second]? = some b →
      a.ended = false → b.ended = false → a.name ≠ b.name

namespace Describes

variable {fs : FileSystem} {directory : Path} {records : List Record}
  {sinks : List DescriptionFile} (hdescribes : Describes fs directory records sinks)
include hdescribes

theorem exists_sink {index : Nat} {record : Record} (hrecord : records[index]? = some record) :
    ∃ file, sinks[index]? = some file ∧ record.Tracks (fs.placeOf directory) directory file := by
  obtain ⟨hlt, _⟩ := List.getElem?_eq_some_iff.mp hrecord
  rw [← hdescribes.length_eq] at hlt
  exact ⟨_, List.getElem?_eq_getElem hlt,
    hdescribes.tracks index record _ hrecord (List.getElem?_eq_getElem hlt)⟩

theorem exists_record {index : Nat} {file : DescriptionFile} (hsink : sinks[index]? = some file) :
    ∃ record, records[index]? = some record ∧
      record.Tracks (fs.placeOf directory) directory file := by
  obtain ⟨hlt, _⟩ := List.getElem?_eq_some_iff.mp hsink
  rw [hdescribes.length_eq] at hlt
  exact ⟨_, List.getElem?_eq_getElem hlt,
    hdescribes.tracks index _ file (List.getElem?_eq_getElem hlt) hsink⟩

theorem concat {record : Record} {file : DescriptionFile}
    (hsound : record.IsSound fs (fs.placeOf directory))
    (htracks : record.Tracks (fs.placeOf directory) directory file)
    (hother : ∀ other ∈ records, other.ended = false → other.name ≠ record.name) :
    Describes fs directory (records ++ [record]) (sinks ++ [file]) := by
  refine ⟨by simp [hdescribes.length_eq], ?_, ?_, ?_⟩
  · intro index current sink hcurrent hsink
    rcases getElem?_concat_cases hcurrent with hold | ⟨hindex, rfl⟩
    · rcases getElem?_concat_cases hsink with hsink | ⟨hlast, _⟩
      · exact hdescribes.tracks index current sink hold hsink
      · obtain ⟨hlt, _⟩ := List.getElem?_eq_some_iff.mp hold
        rw [hlast, hdescribes.length_eq] at hlt
        exact absurd hlt (Nat.lt_irrefl _)
    · rcases getElem?_concat_cases hsink with hold | ⟨_, rfl⟩
      · obtain ⟨hlt, _⟩ := List.getElem?_eq_some_iff.mp hold
        rw [hindex, hdescribes.length_eq] at hlt
        exact absurd hlt (Nat.lt_irrefl _)
      · exact htracks
  · intro current hmem
    rcases List.mem_append.mp hmem with hmem | hmem
    · exact hdescribes.sound current hmem
    · rw [List.mem_singleton.mp hmem]
      exact hsound
  · intro first second a b hne ha hb haopen hbopen
    rcases getElem?_concat_cases ha with hold | ⟨hfirst, rfl⟩
    · rcases getElem?_concat_cases hb with hsecond | ⟨_, rfl⟩
      · exact hdescribes.distinct first second a b hne hold hsecond haopen hbopen
      · exact hother a (List.mem_of_getElem? hold) haopen
    · rcases getElem?_concat_cases hb with hold | ⟨hsecond, _⟩
      · exact (hother b (List.mem_of_getElem? hold) hbopen).symm
      · exact absurd (hfirst.trans hsecond.symm) hne

/-- A sink that is open goes into another state, which its record tells. -/
theorem modify {index : Nat} {record : Record} {file : DescriptionFile} {change : Record → Record}
    (hrecord : records[index]? = some record) (hopen : record.ended = false)
    (hserial : (change record).serial = record.serial)
    (hname : (change record).name = record.name)
    (htracks : (change record).Tracks (fs.placeOf directory) directory file) :
    Describes fs directory (records.modify index change) (sinks.set index file) := by
  refine ⟨by simp [hdescribes.length_eq], ?_, ?_, ?_⟩
  · intro other current sink hcurrent hsink
    rcases getElem?_modify_cases hrecord hcurrent with ⟨hne, hold⟩ | ⟨rfl, rfl⟩
    · rw [List.getElem?_set_ne (Ne.symm hne)] at hsink
      exact hdescribes.tracks other current sink hold hsink
    · obtain ⟨hlt, _⟩ := List.getElem?_eq_some_iff.mp hrecord
      rw [← hdescribes.length_eq] at hlt
      rw [List.getElem?_set_self hlt] at hsink
      cases hsink
      exact htracks
  · intro current hmem
    obtain ⟨other, hother⟩ := List.mem_iff_getElem?.mp hmem
    rcases getElem?_modify_cases hrecord hother with ⟨_, hold⟩ | ⟨rfl, rfl⟩
    · exact hdescribes.sound current (List.mem_of_getElem? hold)
    · have hsound := hdescribes.sound record (List.mem_of_getElem? hrecord)
      refine ⟨by rw [hserial]; exact hsound.serial, by rw [hname]; exact hsound.name, ?_⟩
      rw [Record.place_eq_iff.mpr hname]
      exact hsound.content?_eq
  · -- the changed record stands for the one before it, which was open and had its name
    have hbefore : ∀ (other : Nat) (current : Record),
        (records.modify index change)[other]? = some current → current.ended = false →
          ∃ old, records[other]? = some old ∧ old.ended = false ∧ old.name = current.name := by
      intro other current hcurrent hcurrentOpen
      rcases getElem?_modify_cases hrecord hcurrent with ⟨_, hold⟩ | ⟨rfl, rfl⟩
      · exact ⟨current, hold, hcurrentOpen, rfl⟩
      · exact ⟨record, hrecord, hopen, hname.symm⟩
    intro first second a b hne ha hb haopen hbopen
    obtain ⟨oldA, holdA, hopenA, hnameA⟩ := hbefore first a ha haopen
    obtain ⟨oldB, holdB, hopenB, hnameB⟩ := hbefore second b hb hbopen
    rw [← hnameA, ← hnameB]
    exact hdescribes.distinct first second oldA oldB hne holdA holdB hopenA hopenB

end Describes

/-- What the ledger tells of the file system: the open sinks have their temporary files there, and
apart from these there is what was there in the beginning and what has been published. -/
structure Accounts (fs : FileSystem) (here : Location) (ledger : Ledger) (files : FileSystem) :
    Prop where
  workingDirectory_eq : files.workingDirectory = fs.workingDirectory
  present : ∀ record ∈ ledger.records, record.ended = false →
    files.content? (record.place here) ≠ none
  published : ∀ record ∈ ledger.published, record ∈ ledger.records ∧ record.ended = true
  content?_eq : ∀ place, ledger.Leaves here place →
    files.content? place = contentAfter fs here ledger.published place

namespace Accounts

variable {fs files : FileSystem} {here : Location} {ledger : Ledger}
  (haccounts : Accounts fs here ledger files)
include haccounts

/-- Directories do not matter. -/
theorem of_sameFiles {after : FileSystem} (hsame : files.SameFiles after) :
    Accounts fs here ledger after where
  workingDirectory_eq := hsame.workingDirectory_eq.trans haccounts.workingDirectory_eq
  present record hmem hopen := by
    rw [hsame.content?_eq]
    exact haccounts.present record hmem hopen
  published := haccounts.published
  content?_eq place hplace := by
    rw [hsame.content?_eq]
    exact haccounts.content?_eq place hplace

/-- An open sink has a file at its place, so a name that is free is not that of an open sink. -/
theorem name_ne_of_free {record : Record} (hfree : files.content? (record.place here) = none)
    {other : Record} (hmem : other ∈ ledger.records) (hopen : other.ended = false) :
    other.name ≠ record.name := by
  intro hsame
  apply haccounts.present other hmem hopen
  rw [Record.place_eq_iff.mpr hsame, hfree]

/-- What is free for a temporary file was free in the beginning. -/
theorem isSound_of_free {record : Record} (hserial : IsAccepted record.serial)
    (hname : ¬ IsDescriptionName record.name)
    (hfree : files.content? (record.place here) = none) : record.IsSound fs here := by
  refine ⟨hserial, hname, ?_⟩
  rw [← hfree, haccounts.content?_eq, contentAfter_of_not_target]
  · exact fun other _ => Record.place_ne_target hname other
  · intro other hmem hopen hsame
    exact haccounts.name_ne_of_free hfree hmem hopen (Record.place_eq_iff.mp hsame.symm)

theorem concat {record : Record} (hopen : record.ended = false) :
    Accounts fs here { ledger with records := ledger.records ++ [record] }
      (files.put (record.place here) (.file .empty)) := by
  have hroot : record.place here ≠ [] := by simp [Record.place]
  have hput := fun place => @FileSystem.content?_put_file files _ hroot .empty place
  refine ⟨haccounts.workingDirectory_eq, ?_, ?_, ?_⟩
  · intro current hmem hcurrent
    rw [hput]
    split
    next => nofun
    next hne =>
      rcases List.mem_append.mp hmem with hmem | hmem
      · exact haccounts.present current hmem hcurrent
      · rw [List.mem_singleton.mp hmem] at hne
        exact absurd rfl hne
  · intro current hmem
    obtain ⟨hmem, hended⟩ := haccounts.published current hmem
    exact ⟨List.mem_append_left _ hmem, hended⟩
  · intro place hplace
    rw [hput, if_neg (hplace record (by simp) hopen)]
    apply haccounts.content?_eq
    exact fun other hmem hother => hplace other (List.mem_append_left _ hmem) hother

/-- What has been published is not changed with a record that is open. -/
theorem published_modify {index : Nat} {record : Record} {change : Record → Record}
    (hrecord : ledger.records[index]? = some record) (hopen : record.ended = false) :
    ∀ other ∈ ledger.published,
      other ∈ ledger.records.modify index change ∧ other.ended = true := by
  intro other hmem
  obtain ⟨hmem, hended⟩ := haccounts.published other hmem
  rcases mem_modify_of_mem hrecord hmem change with hkept | ⟨rfl, _⟩
  · exact ⟨hkept, hended⟩
  · rw [hopen] at hended
    cases hended

theorem take {index : Nat} {record : Record} (hrecord : ledger.records[index]? = some record)
    (hopen : record.ended = false) (directive : Directive) :
    Accounts fs here
      { ledger with records := ledger.records.modify index (Record.take directive) } files := by
  refine ⟨haccounts.workingDirectory_eq, ?_, haccounts.published_modify hrecord hopen, ?_⟩
  · intro current hmem hcurrent
    obtain ⟨other, hother⟩ := List.mem_iff_getElem?.mp hmem
    rcases getElem?_modify_cases hrecord hother with ⟨_, hold⟩ | ⟨_, rfl⟩
    · exact haccounts.present current (List.mem_of_getElem? hold) hcurrent
    · exact haccounts.present record (List.mem_of_getElem? hrecord) hcurrent
  · intro place hplace
    apply haccounts.content?_eq
    intro current hmem hcurrent
    rcases mem_modify_of_mem hrecord hmem (Record.take directive) with hkept | ⟨rfl, htaken⟩
    · exact hplace current hkept hcurrent
    · have hne := hplace _ htaken hcurrent
      exact hne

/-- The temporary file of a sink that ends is removed. -/
theorem finish {index : Nat} {record : Record} (hrecord : ledger.records[index]? = some record)
    (hopen : record.ended = false) (hsound : record.IsSound fs here)
    (hdistinct : ∀ (other : Nat) (current : Record), index ≠ other →
      ledger.records[other]? = some current → current.ended = false →
        current.name ≠ record.name) :
    Accounts fs here
      { ledger with records := ledger.records.modify index Record.finish }
      (files.remove (record.place here)) := by
  have hroot : record.place here ≠ [] := by simp [Record.place]
  have hremove := fun place => @FileSystem.content?_remove files _ hroot place
  refine ⟨haccounts.workingDirectory_eq, ?_, haccounts.published_modify hrecord hopen, ?_⟩
  · intro current hmem hcurrent
    obtain ⟨other, hother⟩ := List.mem_iff_getElem?.mp hmem
    rcases getElem?_modify_cases hrecord hother with ⟨hne, hold⟩ | ⟨_, rfl⟩
    · have hname := hdistinct other current (Ne.symm hne) hold hcurrent
      rw [hremove, if_neg fun hsame => hname (Record.place_eq_iff.mp hsame)]
      exact haccounts.present current (List.mem_of_getElem? hold) hcurrent
    · cases hcurrent
  · intro place hplace
    rw [hremove]
    split
    next hsame =>
      -- nothing has been published there, since it is no description's name
      rw [hsame, contentAfter_of_not_target, hsound.content?_eq]
      exact fun other _ => Record.place_ne_target hsound.name other
    next hne =>
      apply haccounts.content?_eq
      intro current hmem hcurrent
      rcases mem_modify_of_mem hrecord hmem Record.finish with hkept | ⟨rfl, _⟩
      · exact hplace current hkept hcurrent
      · exact hne

/-- The whole text of a sink that has ended is put at its target. -/
theorem publish {record : Record} (hmem : record ∈ ledger.records) (hended : record.ended = true)
    (hsound : ∀ other ∈ ledger.records, other.IsSound fs here) :
    Accounts fs here { ledger with published := record :: ledger.published }
      (files.put (record.target here) (.file record.wholeText.toUTF8)) := by
  have hroot : record.target here ≠ [] := by simp [Record.target]
  have hput := fun place =>
    @FileSystem.content?_put_file files _ hroot record.wholeText.toUTF8 place
  refine ⟨haccounts.workingDirectory_eq, ?_, ?_, ?_⟩
  · intro other hother hopen
    rw [hput, if_neg (Record.place_ne_target (hsound other hother).name record)]
    exact haccounts.present other hother hopen
  · intro other hother
    rcases List.mem_cons.mp hother with rfl | hother
    · exact ⟨hmem, hended⟩
    · exact haccounts.published other hother
  · intro place hplace
    rw [hput, contentAfter]
    split
    next => rfl
    next => exact haccounts.content?_eq place hplace

end Accounts

end RobotDescription.Xacro
