import Mathlib.Data.List.DropRight
import RobotDescription.Config.Load
import RobotDescription.Proofs.Generation.ParameterNames

/-!
# Which configurations are accepted

What a configuration has to satisfy, said of its texts and without the validator, and that it has
no issues exactly if it does.
-/

namespace RobotDescription

namespace Text

/-- Dropping blanks in front leaves nothing exactly if there is nothing else. -/
theorem dropWhile_isBlank_eq_nil_iff {text : List Char} :
    text.dropWhile isBlank = [] ↔ text.all isBlank = true := by
  induction text with
  | nil => simp
  | cons c rest ih =>
      by_cases hblank : isBlank c = true
      · simp [List.dropWhile_cons_of_pos hblank, ih, hblank]
      · simp [List.dropWhile_cons_of_neg hblank, hblank]

theorem trim_eq_empty_iff {s : String} : trim s = "" ↔ isAllBlank s = true := by
  -- what is left in front is blank only if it is nothing, since a second dropping changes nothing
  rw [trim, String.ofList_eq_empty_iff, trimmed, List.reverse_eq_nil_iff,
    dropWhile_isBlank_eq_nil_iff, List.all_reverse, ← dropWhile_isBlank_eq_nil_iff,
    List.dropWhile_idempotent, dropWhile_isBlank_eq_nil_iff, isAllBlank]

end Text

/-- The texts of the form `[A-Za-z_][A-Za-z0-9_.-]*`. -/
def IsAttributeName (name : String) : Prop :=
  ∃ first rest, name.toList = first :: rest ∧
    (('A' ≤ first ∧ first ≤ 'Z') ∨ ('a' ≤ first ∧ first ≤ 'z') ∨ first = '_') ∧
    ∀ c ∈ rest, ('A' ≤ c ∧ c ≤ 'Z') ∨ ('a' ≤ c ∧ c ≤ 'z') ∨ ('0' ≤ c ∧ c ≤ '9') ∨
      c = '_' ∨ c = '.' ∨ c = '-'

theorem isUpper_iff {c : Char} : c.isUpper = true ↔ 'A' ≤ c ∧ c ≤ 'Z' :=
  decide_eq_true_iff

theorem isLower_iff {c : Char} : c.isLower = true ↔ 'a' ≤ c ∧ c ≤ 'z' :=
  (Bool.and_eq_true _ _).to_iff.trans (and_congr decide_eq_true_iff decide_eq_true_iff)

theorem isAlpha_iff {c : Char} :
    c.isAlpha = true ↔ ('A' ≤ c ∧ c ≤ 'Z') ∨ ('a' ≤ c ∧ c ≤ 'z') :=
  (Bool.or_eq_true _ _).to_iff.trans (or_congr isUpper_iff isLower_iff)

theorem ParameterName.isStart_iff {c : Char} :
    isStart c = true ↔ ('A' ≤ c ∧ c ≤ 'Z') ∨ ('a' ≤ c ∧ c ≤ 'z') ∨ c = '_' := by
  simp [isStart, isAlpha_iff, or_assoc]

theorem ParameterName.isContinuation_iff {c : Char} :
    isContinuation c = true ↔ ('A' ≤ c ∧ c ≤ 'Z') ∨ ('a' ≤ c ∧ c ≤ 'z') ∨
      ('0' ≤ c ∧ c ≤ '9') ∨ c = '_' ∨ c = '.' ∨ c = '-' := by
  simp [isContinuation, Char.isAlphanum, isAlpha_iff, Char.isDigit, Char.le_def, or_assoc]

theorem ParameterName.isValid_iff {name : String} :
    isValid name = true ↔ IsAttributeName name := by
  unfold isValid
  split
  next hnone =>
    constructor
    · intro hfalse
      cases hfalse
    · rintro ⟨first, rest, hname, _⟩
      rw [hnone] at hname
      cases hname
  next first rest hname =>
    rw [Bool.and_eq_true, List.all_eq_true]
    constructor
    · rintro ⟨hfirst, hrest⟩
      exact ⟨first, rest, hname, isStart_iff.mp hfirst,
        fun c hmem => isContinuation_iff.mp (hrest c hmem)⟩
    · rintro ⟨first', rest', hname', hfirst, hrest⟩
      rw [hname] at hname'
      cases hname'
      exact ⟨isStart_iff.mpr hfirst, fun c hmem => isContinuation_iff.mpr (hrest c hmem)⟩

/-- A text that can be the stem of a file name: it is neither blank nor surrounded by blanks, has no
separator in it, and is none of the names that every directory has for itself and its parent. -/
structure IsSerialNumber (serial : String) : Prop where
  not_blank : Text.trim serial ≠ ""
  trimmed : Text.trim serial = serial
  slash : '/' ∉ serial.toList
  backslash : '\\' ∉ serial.toList
  ne_dot : serial ≠ "."
  ne_parent : serial ≠ ".."

namespace RobotConfig

/-- What is asked of a configuration, whether or not its models are supported. -/
structure IsSound (config : RobotConfig) : Prop where
  serial : IsSerialNumber config.serialNumber
  platform : Text.trim config.platform.model ≠ ""
  kinds : ∀ item ∈ config.platform.decorations, Text.trim item.kind ≠ ""
  names : ∀ item ∈ config.mounts, Text.trim item.name ≠ ""
  models : ∀ item ∈ config.mounts, Text.trim item.model ≠ ""
  distinct : (config.mounts.map (·.name)).Nodup
  decorationParameters : ∀ item ∈ config.platform.decorations, ∀ name ∈ item.parameters.names,
    IsAttributeName name
  mountParameters : ∀ item ∈ config.mounts, ∀ name ∈ item.parameters.names, IsAttributeName name

theorem isFileStem_iff {serial : String} :
    isFileStem serial = true ↔
      '/' ∉ serial.toList ∧ '\\' ∉ serial.toList ∧ serial ≠ "." ∧ serial ≠ ".." := by
  simp only [isFileStem, Bool.and_eq_true, List.all_eq_true, decide_eq_true_eq, ne_eq, and_assoc]
  constructor
  · rintro ⟨hall, hdot, hparent⟩
    exact ⟨fun hmem => (hall _ hmem).1 rfl, fun hmem => (hall _ hmem).2 rfl, hdot, hparent⟩
  · rintro ⟨hslash, hbackslash, hdot, hparent⟩
    refine ⟨fun c hmem => ⟨?_, ?_⟩, hdot, hparent⟩
    · rintro rfl
      exact hslash hmem
    · rintro rfl
      exact hbackslash hmem

theorem serialIssues_eq_nil_iff {serial : String} :
    serialIssues serial = [] ↔ IsSerialNumber serial := by
  unfold serialIssues
  split
  next hblank =>
    simp only [reduceCtorEq, false_iff]
    exact fun hserial => hserial.not_blank (Text.trim_eq_empty_iff.mpr hblank)
  next hblank =>
    have hblank : Text.trim serial ≠ "" := fun hempty => hblank (Text.trim_eq_empty_iff.mp hempty)
    split
    next hpadded =>
      simp only [reduceCtorEq, false_iff]
      exact fun hserial => hpadded hserial.trimmed
    next htrimmed =>
      have htrimmed : Text.trim serial = serial := Decidable.not_not.mp htrimmed
      split
      next hstem =>
        simp only [reduceCtorEq, false_iff]
        intro hserial
        have hgood := isFileStem_iff.mpr
          ⟨hserial.slash, hserial.backslash, hserial.ne_dot, hserial.ne_parent⟩
        simp [hgood] at hstem
      next hstem =>
        obtain ⟨hslash, hbackslash, hdot, hparent⟩ := isFileStem_iff.mp (by simpa using hstem)
        exact iff_of_true rfl ⟨hblank, htrimmed, hslash, hbackslash, hdot, hparent⟩

@[simp] theorem issueIf_eq_nil_iff {condition : Bool} {issue : Issue} :
    issueIf condition issue = [] ↔ condition = false := by
  cases condition <;> simp [issueIf]

theorem isAllBlank_eq_false_iff {s : String} :
    Text.isAllBlank s = false ↔ Text.trim s ≠ "" := by
  rw [ne_eq, Text.trim_eq_empty_iff, Bool.not_eq_true]

theorem parameterIssues_eq_nil_iff {owner : Owner} {parameters : Parameters} :
    parameterIssues owner parameters = [] ↔
      ∀ name ∈ parameters.names, IsAttributeName name := by
  simp [parameterIssues, List.filter_eq_nil_iff, ParameterName.isValid_iff]

theorem decorationIssues_eq_nil_iff {index : Nat} {item : Decoration} :
    decorationIssues index item = [] ↔
      Text.trim item.kind ≠ "" ∧ ∀ name ∈ item.parameters.names, IsAttributeName name := by
  rw [decorationIssues, List.append_eq_nil_iff, issueIf_eq_nil_iff, isAllBlank_eq_false_iff,
    parameterIssues_eq_nil_iff]

theorem mountIssues_eq_nil_iff {index : Nat} {earlier : List String} {item : Mount} :
    mountIssues index earlier item = [] ↔
      Text.trim item.name ≠ "" ∧ item.name ∉ earlier ∧ Text.trim item.model ≠ "" ∧
        ∀ name ∈ item.parameters.names, IsAttributeName name := by
  rw [mountIssues, List.append_eq_nil_iff, List.append_eq_nil_iff, issueIf_eq_nil_iff,
    isAllBlank_eq_false_iff, parameterIssues_eq_nil_iff, and_assoc,
    ← isAllBlank_eq_false_iff (s := item.name)]
  cases Text.isAllBlank item.name <;> simp

/-- The names of the mounts before a point of the list are all that the issues after it depend on.
-/
theorem mountListIssues_eq_nil_iff {index : Nat} {earlier : List String} {items : List Mount} :
    mountListIssues index earlier items = [] ↔
      (∀ item ∈ items, Text.trim item.name ≠ "" ∧ item.name ∉ earlier ∧
        Text.trim item.model ≠ "" ∧ ∀ name ∈ item.parameters.names, IsAttributeName name) ∧
      (items.map (·.name)).Nodup := by
  induction items generalizing index earlier with
  | nil => simp [mountListIssues]
  | cons item rest ih =>
      rw [mountListIssues, List.append_eq_nil_iff, mountIssues_eq_nil_iff, ih, List.forall_mem_cons,
        List.map_cons, List.nodup_cons]
      constructor
      · rintro ⟨hitem, hrest, hnodup⟩
        refine ⟨⟨hitem, fun other hmem => ?_⟩, fun hmem => ?_, hnodup⟩
        · obtain ⟨hname, hnew, hothers⟩ := hrest other hmem
          exact ⟨hname, fun hold => hnew (List.mem_append_left _ hold), hothers⟩
        · obtain ⟨other, hother, hsame⟩ := List.mem_map.mp hmem
          apply (hrest other hother).2.1
          rw [hsame]
          exact List.mem_append_right _ List.mem_cons_self
      · rintro ⟨⟨hitem, hrest⟩, hfresh, hnodup⟩
        refine ⟨hitem, fun other hmem => ?_, hnodup⟩
        obtain ⟨hname, hnew, hothers⟩ := hrest other hmem
        refine ⟨hname, fun hold => ?_, hothers⟩
        rcases List.mem_append.mp hold with hold | hsame
        · exact hnew hold
        · apply hfresh
          rw [← List.mem_singleton.mp hsame]
          exact List.mem_map_of_mem hmem

theorem decorationListIssues_eq_nil_iff {items : List Decoration} :
    (items.mapIdx decorationIssues).flatten = [] ↔
      ∀ item ∈ items, Text.trim item.kind ≠ "" ∧
        ∀ name ∈ item.parameters.names, IsAttributeName name := by
  simp only [List.flatten_eq_nil_iff, List.mem_mapIdx]
  constructor
  · intro hnone item hmem
    obtain ⟨index, hindex, rfl⟩ := List.getElem_of_mem hmem
    exact decorationIssues_eq_nil_iff.mp (hnone _ ⟨index, hindex, rfl⟩)
  · rintro hall reported ⟨index, hindex, rfl⟩
    exact decorationIssues_eq_nil_iff.mpr (hall _ (List.getElem_mem hindex))

/-- A configuration has no issues exactly if it is sound. -/
theorem isValid_iff_isSound {config : RobotConfig} : config.IsValid ↔ config.IsSound := by
  rw [IsValid, issues, List.append_eq_nil_iff, List.append_eq_nil_iff, List.append_eq_nil_iff,
    serialIssues_eq_nil_iff, issueIf_eq_nil_iff, isAllBlank_eq_false_iff,
    decorationListIssues_eq_nil_iff, mountListIssues_eq_nil_iff]
  constructor
  · rintro ⟨⟨⟨hserial, hplatform⟩, hdecorations⟩, hmounts, hdistinct⟩
    exact {
      serial := hserial
      platform := hplatform
      kinds := fun item hmem => (hdecorations item hmem).1
      names := fun item hmem => (hmounts item hmem).1
      models := fun item hmem => (hmounts item hmem).2.2.1
      distinct := hdistinct
      decorationParameters := fun item hmem => (hdecorations item hmem).2
      mountParameters := fun item hmem => (hmounts item hmem).2.2.2 }
  · intro hsound
    refine ⟨⟨⟨hsound.serial, hsound.platform⟩, fun item hmem => ?_⟩, fun item hmem => ?_,
      hsound.distinct⟩
    · exact ⟨hsound.kinds item hmem, hsound.decorationParameters item hmem⟩
    · exact ⟨hsound.names item hmem, List.not_mem_nil, hsound.models item hmem,
        hsound.mountParameters item hmem⟩

/-- What is accepted can be written: all its parameters can be attributes. -/
theorem namesValid_of_isValid {config : RobotConfig} (hvalid : config.IsValid) :
    config.NamesValid := by
  have hsound := isValid_iff_isSound.mp hvalid
  constructor
  · intro item hmem name hname
    exact ParameterName.isValid_iff.mpr (hsound.decorationParameters item hmem name hname)
  · intro item hmem name hname
    exact ParameterName.isValid_iff.mpr (hsound.mountParameters item hmem name hname)

theorem validated_eq_ok_iff {config accepted : RobotConfig} :
    config.validated = .ok accepted ↔ config = accepted ∧ config.IsValid := by
  unfold validated
  split
  next hvalid => simp [hvalid]
  next hinvalid => simp [hinvalid]

/-- Only accepted configurations come out of documents. -/
theorem isValid_of_parse {format : Format} {content : String} {config : RobotConfig}
    (hparse : parse format content = .ok config) : config.IsValid := by
  unfold parse at hparse
  split at hparse
  next => cases hparse
  next =>
    obtain ⟨rfl, hvalid⟩ := validated_eq_ok_iff.mp hparse
    exact hvalid

theorem exists_parse_of_load {fs : FileSystem} {path : Path} {config : RobotConfig}
    (hload : load fs path = .ok config) :
    ∃ format content, parse format content = .ok config := by
  unfold load at hload
  split at hload
  next => cases hload
  next =>
    split at hload
    next => cases hload
    next format _ =>
      split at hload
      next => cases hload
      next =>
        split at hload
        next => cases hload
        next content _ => exact ⟨format, content, hload⟩

theorem isValid_of_load {fs : FileSystem} {path : Path} {config : RobotConfig}
    (hload : load fs path = .ok config) : config.IsValid := by
  obtain ⟨format, content, hparse⟩ := exists_parse_of_load hload
  exact isValid_of_parse hparse

end RobotConfig

end RobotDescription
