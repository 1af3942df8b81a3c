import RobotDescription.Proofs.Command.Modes
import RobotDescription.Proofs.Generation.MountNames
import RobotDescription.Proofs.Xacro.ReadBack

/-!
# Characters of a description

XML admits some characters only, and escaping brings none of the others in and takes none of them
out. So whether a description consists of admitted characters is decided by the texts of the
configuration that are written into it, and nothing that validation asks for decides it.
-/

namespace RobotDescription

namespace Xacro

/-- What holds of the characters of a list is decided along the list. -/
instance decidableForallMem (property : Char → Prop) [DecidablePred property]
    (characters : List Char) :
    Decidable (∀ c ∈ characters, property c) :=
  List.decidableBAll property characters

/-- The characters that a document of XML 1.0 can hold. -/
def isXmlCharacter (c : Char) : Bool :=
  let n := c.toNat
  n == 0x9 || n == 0xA || n == 0xD || (0x20 ≤ n && n ≤ 0xD7FF) || (0xE000 ≤ n && n ≤ 0xFFFD) ||
    (0x10000 ≤ n && n ≤ 0x10FFFF)

def IsXmlText (text : String) : Prop :=
  ∀ c ∈ text.toList, isXmlCharacter c = true

instance (text : String) : Decidable (IsXmlText text) :=
  inferInstanceAs (Decidable (∀ c ∈ text.toList, isXmlCharacter c = true))

@[simp] theorem isXmlText_append (front back : String) :
    IsXmlText (front ++ back) ↔ IsXmlText front ∧ IsXmlText back := by
  simp only [IsXmlText, String.toList_append, List.forall_mem_append]

@[simp] theorem isXmlText_join (texts : List String) :
    IsXmlText (String.join texts) ↔ ∀ text ∈ texts, IsXmlText text := by
  induction texts with
  | nil => simp [IsXmlText]
  | cons text rest ih => rw [String.join_cons, isXmlText_append, ih, List.forall_mem_cons]

@[simp] theorem isXmlText_textOfLines (lines : List String) :
    IsXmlText (textOfLines lines) ↔ ∀ line ∈ lines, IsXmlText line := by
  have hend : IsXmlText "\n" := by decide
  simp [textOfLines, hend]

theorem forall_mem_escapeChar (c : Char) :
    (∀ d ∈ escapeChar c, isXmlCharacter d = true) ↔ isXmlCharacter c = true := by
  unfold escapeChar
  split
  next => exact iff_of_true (by decide : IsXmlText "&amp;") rfl
  next => exact iff_of_true (by decide : IsXmlText "&lt;") rfl
  next => exact iff_of_true (by decide : IsXmlText "&gt;") rfl
  next => exact iff_of_true (by decide : IsXmlText "&quot;") rfl
  next => exact List.forall_mem_singleton

/-- Escaping an attribute value neither adds nor removes a character that XML does not admit. -/
@[simp] theorem isXmlText_quotedValue (value : String) :
    IsXmlText (quotedValue value) ↔ IsXmlText value := by
  have hquote : IsXmlText "\"" := by decide
  have hescaped : IsXmlText (String.ofList (escapeAttribute value.toList)) ↔ IsXmlText value := by
    simp only [IsXmlText, String.toList_ofList, escapeAttribute, List.forall_mem_flatMap,
      forall_mem_escapeChar]
  simp only [quotedValue, isXmlText_append, hescaped, hquote, true_and, and_true]

theorem forall_mem_escapeComment (text : List Char) :
    (∀ c ∈ escapeComment text, isXmlCharacter c = true) ↔
      ∀ c ∈ text, isXmlCharacter c = true := by
  have hkept : ∀ characters : List Char, (∀ c ∈ characters, isXmlCharacter c = true) ↔
      ∀ c ∈ characters.filter (· ≠ ' '), isXmlCharacter c = true := by
    intro characters
    refine ⟨fun hall c hmem => hall c (List.mem_filter.mp hmem).1, fun hall c hmem => ?_⟩
    by_cases hspace : c = ' '
    · exact hspace ▸ by decide
    · exact hall c (List.mem_filter.mpr ⟨hmem, by simpa using hspace⟩)
  rw [hkept, filter_escapeComment, ← hkept]

@[simp] theorem isXmlText_escapedComment (text : String) :
    IsXmlText (String.ofList (escapeComment text.toList)) ↔ IsXmlText text := by
  simp only [IsXmlText, String.toList_ofList, forall_mem_escapeComment]

/-- The characters from the space to the tilde are admitted. -/
theorem isXmlCharacter_of_le {c : Char} (hspace : ' ' ≤ c) (htilde : c ≤ '~') :
    isXmlCharacter c = true := by
  have hlower : 0x20 ≤ c.toNat := hspace
  have hupper : c.toNat ≤ 0x7E := htilde
  simp only [isXmlCharacter, Bool.or_eq_true, Bool.and_eq_true, decide_eq_true_eq]
  omega

theorem isXmlCharacter_of_isContinuation {c : Char}
    (hcontinuation : ParameterName.isContinuation c = true) : isXmlCharacter c = true := by
  rcases ParameterName.isContinuation_iff.mp hcontinuation with
    ⟨hlower, hupper⟩ | ⟨hlower, hupper⟩ | ⟨hlower, hupper⟩ | rfl | rfl | rfl
  · exact isXmlCharacter_of_le (Char.le_trans (by decide) hlower) (Char.le_trans hupper (by decide))
  · exact isXmlCharacter_of_le (Char.le_trans (by decide) hlower) (Char.le_trans hupper (by decide))
  · exact isXmlCharacter_of_le (Char.le_trans (by decide) hlower) (Char.le_trans hupper (by decide))
  · decide
  · decide
  · decide

theorem isXmlCharacter_of_isDigit {c : Char} (hdigit : c.isDigit) : isXmlCharacter c = true :=
  isXmlCharacter_of_isContinuation (by simp [ParameterName.isContinuation, Char.isAlphanum, hdigit])

theorem isXmlText_toText (x : Binary64) : IsXmlText x.toText := by
  have hother : IsXmlText ".-NaNinf" := by decide
  exact forall_mem_toText (fun _ hdigit => isXmlCharacter_of_isDigit hdigit) hother x

theorem isXmlText_toString (n : Int) : IsXmlText (toString n) := by
  have hdigits : ∀ m : Nat, IsXmlText m.repr := by
    intro m c hmem
    rw [Nat.repr, String.toList_ofList] at hmem
    exact isXmlCharacter_of_isDigit (Nat.isDigit_of_mem_toDigits (by decide) (by decide) hmem)
  cases n with
  | ofNat m => exact hdigits m
  | negSucc m => exact (isXmlText_append "-" _).mpr ⟨by decide, hdigits (m + 1)⟩

theorem isXmlText_coordinates (v : Vector3) : IsXmlText (coordinates v) := by
  have hspace : IsXmlText " " := by decide
  simp only [coordinates, isXmlText_append, isXmlText_toText, hspace, and_self]

theorem isXmlText_renderBlock (block : Block) : IsXmlText (renderBlock block) := by
  obtain ⟨origin⟩ := block
  have hfront : IsXmlText "<origin xyz=\"" := by decide
  have hmiddle : IsXmlText "\" rpy=\"" := by decide
  have hback : IsXmlText "\"/>" := by decide
  unfold renderBlock renderOrigin
  simp only [isXmlText_append, isXmlText_coordinates, hfront, hmiddle, hback, and_self]

end Xacro

/-- Every string of a directive consists of admitted characters. -/
def Directive.IsXml : Directive → Prop
  | .inclusion package file path =>
    Xacro.IsXmlText package ∧ Xacro.IsXmlText file ∧ Xacro.IsXmlText path
  | .call name arguments _ => Xacro.IsXmlText name ∧
    ∀ entry ∈ arguments.entries, Xacro.IsXmlText entry.1 ∧ Xacro.IsXmlText entry.2
  | .comment text => Xacro.IsXmlText text
  | .blank => True

namespace Xacro

theorem isXmlText_startOfCall (name : String) (arguments : Arguments) :
    IsXmlText (startOfCall name arguments) ↔ (Directive.call name arguments []).IsXml := by
  have hattributes : (∀ text ∈ arguments.entries.map fun entry => attributeText entry.1 entry.2,
      IsXmlText text) ↔ ∀ entry ∈ arguments.entries, IsXmlText entry.1 ∧ IsXmlText entry.2 := by
    rw [List.forall_mem_map]
    simp +decide [attributeText]
  rw [startOfCall, isXmlText_append, isXmlText_join, hattributes]
  simp +decide [Directive.IsXml]

theorem isXmlText_directiveText (directive : Directive) :
    IsXmlText (directiveText directive) ↔ directive.IsXml := by
  unfold directiveText
  rw [isXmlText_textOfLines]
  cases directive with
  | inclusion package file path =>
      simp +decide [directiveLines, inclusionTarget, Directive.IsXml]
      tauto
  | call name arguments blocks =>
      cases blocks with
      | nil => simp +decide [directiveLines, isXmlText_startOfCall]
      | cons block rest =>
          have hblocks : ∀ line ∈ (block :: rest).map fun block => "    " ++ renderBlock block,
              IsXmlText line := by
            rw [List.forall_mem_map]
            simp +decide [isXmlText_renderBlock]
          have hend : IsXmlText ("  </xacro:" ++ name ++ ">") ↔ IsXmlText name := by simp +decide
          have hstart : IsXmlText ("  " ++ startOfCall name arguments ++ ">") ↔
              (Directive.call name arguments []).IsXml := by
            simp +decide [isXmlText_startOfCall]
          rw [directiveLines, List.forall_mem_append, List.forall_mem_cons,
            List.forall_mem_singleton, hend, hstart, and_iff_left hblocks]
          · exact and_iff_left_of_imp fun hcall => hcall.1
          · exact List.cons_ne_nil block rest
  | comment text => simp +decide [directiveLines, Directive.IsXml]
  | blank => simp +decide [Directive.IsXml]

theorem isXmlText_documentText (robotName : String) (document : Document) :
    IsXmlText (documentText robotName document) ↔
      IsXmlText robotName ∧ ∀ directive ∈ document.directives, directive.IsXml := by
  have hclosing : IsXmlText (if document.closed then closingText else "") := by
    split <;> decide
  simp +decide [documentText, openingText, hclosing, isXmlText_directiveText]

end Xacro

/-- The texts among the values of parameters. -/
def Parameters.texts (parameters : Parameters) : List String :=
  parameters.entries.filterMap fun entry =>
    match entry.2 with
    | .text s => some s
    | _ => none

/-- The texts of a mount that are written into a description. A parameter can take the place of the
parent; the name is written as a comment too, so that nothing takes its place. -/
def Mount.writtenTexts (mount : Mount) : List String :=
  mount.name :: (if "parent_link" ∈ mount.parameters.names then [] else [mount.parent]) ++
    mount.parameters.texts

/-- The texts of a configuration that are written into a description. -/
def RobotConfig.writtenTexts (config : RobotConfig) : List String :=
  config.serialNumber :: config.enabledDecorations.flatMap (·.parameters.texts) ++
    config.mounts.flatMap Mount.writtenTexts

theorem ParameterValue.isXmlText_toText_iff (value : ParameterValue) :
    Xacro.IsXmlText value.toText ↔ ∀ s, value = .text s → Xacro.IsXmlText s := by
  cases value with
  | bool b => exact iff_of_true (by cases b <;> decide) nofun
  | int n => exact iff_of_true (Xacro.isXmlText_toString n.toInt) nofun
  | float x => exact iff_of_true (Xacro.isXmlText_toText x) nofun
  | text s => simp [toText]

theorem Parameters.isXmlText_texts_iff (parameters : Parameters) :
    (∀ text ∈ parameters.texts, Xacro.IsXmlText text) ↔
      ∀ entry ∈ parameters.entries, Xacro.IsXmlText entry.2.toText := by
  simp only [ParameterValue.isXmlText_toText_iff]
  constructor
  · refine fun htexts entry hmem s hvalue => htexts s (List.mem_filterMap.mpr ⟨entry, hmem, ?_⟩)
    rw [hvalue]
  · intro hvalues s hmem
    obtain ⟨entry, hentry, hfound⟩ := List.mem_filterMap.mp hmem
    refine hvalues entry hentry s ?_
    split at hfound
    next t hvalue => rw [hvalue, Option.some.inj hfound]
    next => cases hfound

theorem ParameterName.isXmlText_of_isValid {name : String} (hvalid : isValid name = true) :
    Xacro.IsXmlText name := fun c hmem =>
  Xacro.isXmlCharacter_of_isContinuation (Xacro.isContinuation_of_isValid hvalid c hmem)

theorem DecorationKind.isXmlText_of_mem_defaults {platform : PlatformModel}
    {kind : DecorationKind} {defaults : List (String × String)}
    (hdefaults : defaults? platform kind = some defaults) :
    ∀ entry ∈ defaults, Xacro.IsXmlText entry.2 := by
  refine of_defaults? (∀ entry ∈ ·, Xacro.IsXmlText entry.2) ?_ hdefaults
  decide

theorem MountModel.isXmlText_of_mem_defaults (model : MountModel) :
    ∀ entry ∈ model.defaults, Xacro.IsXmlText entry.2 := by
  cases model <;> decide

namespace Layout

section References

variable {descriptor : Descriptor}

/-- In a reference to a template only the values of the arguments are not vouched for. -/
theorem isXml_reference_iff (hinclusion : descriptor.inclusion.IsXml)
    (hname : Xacro.IsXmlText descriptor.macroName)
    (hnames : ∀ name ∈ descriptor.arguments.names, ParameterName.isValid name = true)
    (nested : List Block) :
    (∀ directive ∈ reference descriptor nested, directive.IsXml) ↔
      ∀ entry ∈ descriptor.arguments.entries, Xacro.IsXmlText entry.2 := by
  rw [reference, List.forall_mem_cons, List.forall_mem_singleton]
  refine (and_iff_right hinclusion).trans ?_
  constructor
  · exact fun hcall entry hmem => (hcall.2 entry hmem).2
  · refine fun hvalues => ⟨hname, fun entry hmem => ⟨?_, hvalues entry hmem⟩⟩
    exact ParameterName.isXmlText_of_isValid (hnames entry.1 (List.mem_map_of_mem hmem))

end References

theorem isXml_decoration_iff {platform : PlatformModel} {item : Decoration}
    (henabled : item.enabled = true) (hfits : item.Fits platform)
    (hnames : ∀ name ∈ item.parameters.names, ParameterName.isValid name = true) :
    (∀ directive ∈ decoration platform item, directive.IsXml) ↔
      ∀ text ∈ item.parameters.texts, Xacro.IsXmlText text := by
  obtain ⟨descriptor, hdescribe, hpart⟩ := decoration_eq_reference henabled hfits
  obtain ⟨kind, defaults, hdefaults, hcalled, harguments⟩ :=
    Decoration.exists_kind_of_describe hdescribe
  have hmacro := ParameterName.isXmlText_of_isValid kind.isValid_id
  rw [hpart, isXml_reference_iff ?_ (hcalled ▸ hmacro)
    (Decoration.forall_names_describe hdescribe hnames), harguments,
    Arguments.forall_values_overlay_iff (DecorationKind.nodup_defaults hdefaults),
    Parameters.isXmlText_texts_iff]
  · exact and_iff_right fun entry hmem _ =>
      DecorationKind.isXmlText_of_mem_defaults hdefaults entry hmem
  · obtain ⟨other, hinclusion⟩ := Decoration.exists_inclusion_of_describe hdescribe
    rw [hinclusion]
    exact ⟨by decide, ParameterName.isXmlText_of_isValid other.isValid_file, by decide⟩

theorem isXml_mount_iff {item : Mount} (hregistered : item.Registered)
    (hnames : ∀ name ∈ item.parameters.names, ParameterName.isValid name = true) :
    (∀ directive ∈ mount item, directive.IsXml) ↔
      ∀ text ∈ item.writtenTexts, Xacro.IsXmlText text := by
  obtain ⟨descriptor, hdescribe, hpart⟩ := mount_eq_reference hregistered
  obtain ⟨model, hcalled, harguments⟩ := Mount.exists_model_of_describe hdescribe
  have hinclusion : descriptor.inclusion.IsXml := by
    obtain ⟨other, hinclusion⟩ := Mount.exists_inclusion_of_describe hdescribe
    rw [hinclusion]
    exact ⟨by decide, ParameterName.isXmlText_of_isValid other.isValid_id, by decide⟩
  have hmacro := ParameterName.isXmlText_of_isValid model.isValid_id
  have hreference := isXml_reference_iff hinclusion (hcalled ▸ hmacro)
    (Mount.forall_names_describe hdescribe hnames) [.origin (.ofPose item.xyz item.rpy)]
  have hparent : (∀ text ∈ if "parent_link" ∈ item.parameters.names then [] else [item.parent],
      Xacro.IsXmlText text) ↔
        ("parent_link" ∉ item.parameters.names → Xacro.IsXmlText item.parent) := by
    split <;> simp_all
  have hdefaults : ∀ entry ∈ model.defaults, entry.1 ∉ item.parameters.names →
      Xacro.IsXmlText entry.2 := fun entry hmem _ => model.isXmlText_of_mem_defaults entry hmem
  rw [harguments, Arguments.forall_values_overlay_iff (item.nodup_baseArguments model),
    ← Parameters.isXmlText_texts_iff, Mount.baseArguments, List.forall_mem_cons,
    List.forall_mem_cons, and_iff_left hdefaults] at hreference
  have hblank : ∀ directive ∈ [Directive.blank], directive.IsXml := by simp [Directive.IsXml]
  rw [hpart, List.forall_mem_append, List.forall_mem_cons, hreference, and_iff_left hblank,
    Mount.writtenTexts, List.forall_mem_append, List.forall_mem_cons, hparent]
  -- the name is in the comment, whether or not it is also an argument
  change Xacro.IsXmlText item.name ∧ _ ↔ _
  tauto

theorem isXml_beforeDecorations (platform : PlatformModel) :
    ∀ directive ∈ beforeDecorations platform, directive.IsXml := by
  have hid := ParameterName.isXmlText_of_isValid platform.isValid_id
  have hpath : Xacro.IsXmlText platform.descriptor.path := by cases platform <;> decide
  have hpackage : Xacro.IsXmlText platformPackage := by decide
  have hinclusion : platform.descriptor.inclusion.IsXml := ⟨hpackage, hid, hpath⟩
  have hcall : ∀ entry ∈ platform.descriptor.arguments.entries, Xacro.IsXmlText entry.2 :=
    List.forall_mem_nil _
  refine List.forall_mem_append.mpr ⟨List.forall_mem_append.mpr ⟨?_, ?_⟩, ?_⟩
  · simp +decide [opening, Directive.IsXml]
  · exact (isXml_reference_iff hinclusion hid (List.forall_mem_nil _) []).mpr hcall
  · simp +decide [Directive.IsXml]

/-- Of a whole layout only the texts that the configuration brings in are not vouched for. -/
theorem isXml_whole_iff {config : RobotConfig} {platform : PlatformModel}
    (hresolves : config.Resolves platform) (hnames : config.NamesValid) :
    Xacro.IsXmlText config.serialNumber ∧ (∀ directive ∈ whole config platform, directive.IsXml) ↔
      ∀ text ∈ config.writtenTexts, Xacro.IsXmlText text := by
  have hdecorations : (∀ directive ∈ config.enabledDecorations.flatMap (decoration platform),
      directive.IsXml) ↔
      ∀ text ∈ config.enabledDecorations.flatMap (·.parameters.texts), Xacro.IsXmlText text := by
    rw [List.forall_mem_flatMap, List.forall_mem_flatMap]
    refine forall₂_congr fun item hmem => ?_
    exact isXml_decoration_iff (RobotConfig.enabled_of_mem hmem)
      (hresolves.decorations item hmem)
      (hnames.decorations item (List.mem_filter.mp hmem).1)
  have hmounts : (∀ directive ∈ config.mounts.flatMap mount, directive.IsXml) ↔
      ∀ text ∈ config.mounts.flatMap Mount.writtenTexts, Xacro.IsXmlText text := by
    rw [List.forall_mem_flatMap, List.forall_mem_flatMap]
    exact forall₂_congr fun item hmem =>
      isXml_mount_iff (hresolves.mounts item hmem) (hnames.mounts item hmem)
  have hheading : ∀ directive ∈ [Directive.blank, .comment "Mounts", .blank], directive.IsXml := by
    simp +decide [Directive.IsXml]
  have hblank : ∀ directive ∈ [Directive.blank], directive.IsXml := by simp [Directive.IsXml]
  rw [whole, beforeMounts, List.forall_mem_append, List.forall_mem_append, List.forall_mem_append,
    List.forall_mem_append, and_iff_left hblank, and_iff_left hheading,
    and_iff_right (isXml_beforeDecorations platform), hdecorations, hmounts,
    RobotConfig.writtenTexts, List.forall_mem_append, List.forall_mem_cons, and_assoc]

end Layout

namespace Xacro

variable {config : RobotConfig} {summary : Summary} {destination : Destination}

/-- What a stream has received of a description that succeeds is the text of the whole layout. -/
theorem exists_stored_of_generate (hreliable : destination.NeverFails) (hvalid : config.IsValid)
    (hdone : (generate config Document.empty).result = .ok summary) :
    ∃ platform, config.Resolves platform ∧
      (stream config destination).destination.stored = destination.stored ++
        (documentText config.serialNumber ⟨Layout.whole config platform, true⟩).toUTF8 := by
  obtain ⟨platform, hresolves, _⟩ := Document.exists_resolves_of_generate hdone
  obtain ⟨hdirectives, houtcome⟩ := Generation.plan_yields_of_resolves hresolves
  obtain ⟨hstored, _⟩ :=
    stream_of_written hreliable (RobotConfig.namesValid_of_isValid hvalid) houtcome
  rw [hdirectives] at hstored
  exact ⟨platform, hresolves, hstored⟩

theorem isXmlText_whole_iff {platform : PlatformModel} (hvalid : config.IsValid)
    (hresolves : config.Resolves platform) :
    IsXmlText (documentText config.serialNumber ⟨Layout.whole config platform, true⟩) ↔
      ∀ text ∈ config.writtenTexts, IsXmlText text :=
  (isXmlText_documentText config.serialNumber _).trans
    (Layout.isXml_whole_iff hresolves (RobotConfig.namesValid_of_isValid hvalid))

/-- The description of an accepted configuration consists of characters that XML admits exactly if
the texts do that the configuration brings into it: the serial number, the names of the mounts, the
parents that are arguments, and the texts among the parameters of what is generated. -/
theorem isXmlText_stream_iff (hreliable : destination.NeverFails) (hvalid : config.IsValid)
    (hdone : (generate config Document.empty).result = .ok summary) :
    ∃ text, (stream config destination).destination.stored =
        destination.stored ++ text.toUTF8 ∧
      (IsXmlText text ↔ ∀ written ∈ config.writtenTexts, IsXmlText written) := by
  obtain ⟨platform, hresolves, hstored⟩ := exists_stored_of_generate hreliable hvalid hdone
  exact ⟨_, hstored, isXmlText_whole_iff hvalid hresolves⟩

/-- A robot with a bracket that is named and labelled beyond ASCII and over two lines; its parent is
not written. -/
def signpost : RobotConfig where
  serialNumber := "a200-🤖"
  platform := { model := "a200" }
  mounts := [{
    name := "Wegweiser \u00fc"
    model := "bracket"
    parent := "\x00"
    parameters := .ofList [("label", .text "first\nsecond"), ("parent_link", .text "mast")] }]

theorem isXmlText_stream_signpost :
    signpost.IsValid ∧ (generate signpost Document.empty).result = .ok ⟨0, 0, 1⟩ ∧
      ∃ text, (stream signpost {}).destination.stored = .empty ++ text.toUTF8 ∧
        IsXmlText text := by
  have hvalid : signpost.IsValid := by decide
  have hdone : (generate signpost Document.empty).result = .ok ⟨0, 0, 1⟩ := rfl
  have hreliable : Destination.NeverFails {} := ⟨rfl, rfl, rfl⟩
  obtain ⟨text, hstored, htext⟩ := isXmlText_stream_iff hreliable hvalid hdone
  exact ⟨hvalid, hdone, text, hstored, htext.mpr (by decide)⟩

/-- A robot with a bracket whose label rings a bell. -/
def bell : RobotConfig where
  serialNumber := "a200-0001"
  platform := { model := "a200" }
  mounts := [{
    name := "sign", model := "bracket", parameters := .ofList [("label", .text "ding\x07dong")] }]

/-- An accepted configuration whose description is no XML. -/
theorem not_isXmlText_bell :
    bell.IsValid ∧ (generate bell Document.empty).result = .ok ⟨0, 0, 1⟩ ∧
      ∃ text, (stream bell {}).destination.stored = .empty ++ text.toUTF8 ∧
        ¬ IsXmlText text := by
  have hvalid : bell.IsValid := by decide
  have hdone : (generate bell Document.empty).result = .ok ⟨0, 0, 1⟩ := rfl
  have hreliable : Destination.NeverFails {} := ⟨rfl, rfl, rfl⟩
  obtain ⟨platform, hresolves, hstored⟩ := exists_stored_of_generate hreliable hvalid hdone
  refine ⟨hvalid, hdone, _, hstored, fun htext => ?_⟩
  exact absurd ((isXmlText_whole_iff hvalid hresolves).mp htext) (by decide)

end Xacro

end RobotDescription
