import RobotDescription.Proofs.Generation.Descriptors
import RobotDescription.Proofs.Xacro.Characters
import RobotDescription.Proofs.Xacro.Passes

/-!
# Values through a reader of XML

A reader of XML unifies line ends and turns the white space in attribute values into spaces before it
decodes a value. Escaping leaves that white space as it is. So of a description such a reader gets
the texts of the configuration with their tabs and line ends as spaces, and the texts themselves
exactly where there are none.
-/

namespace RobotDescription

/-- A text without tabs and line ends. -/
def Xacro.IsUnbroken (text : String) : Prop :=
  ∀ c ∈ text.toList, isBreak c = false

instance (text : String) : Decidable (Xacro.IsUnbroken text) :=
  inferInstanceAs (Decidable (∀ c ∈ text.toList, Xacro.isBreak c = false))

namespace Arguments

/-- The arguments with other values. -/
def mapValues (convert : String → String) (arguments : Arguments) : Arguments where
  entries := arguments.entries.map fun entry => (entry.1, convert entry.2)
  distinct := by
    rw [List.map_map]
    exact arguments.distinct

@[simp] theorem names_mapValues (convert : String → String) (arguments : Arguments) :
    (arguments.mapValues convert).names = arguments.names := by
  rw [names, mapValues, List.map_map]
  rfl

theorem mapValues_mapValues (first second : String → String) (arguments : Arguments) :
    (arguments.mapValues first).mapValues second = arguments.mapValues (second ∘ first) := by
  simp [mapValues, Function.comp_def]

theorem mapValues_eq_self_iff {convert : String → String} {arguments : Arguments} :
    arguments.mapValues convert = arguments ↔
      ∀ entry ∈ arguments.entries, convert entry.2 = entry.2 := by
  constructor
  · intro hsame entry hmem
    have hentries := (congrArg entries hsame).trans (List.map_id arguments.entries).symm
    exact congrArg Prod.snd (List.map_inj_left.mp hentries entry hmem)
  · intro hvalues
    obtain ⟨entries, hdistinct⟩ := arguments
    rw [mapValues, Arguments.mk.injEq]
    refine (List.map_congr_left fun entry hmem => ?_).trans (List.map_id entries)
    exact congrArg (Prod.mk entry.1) (hvalues entry hmem)

end Arguments

/-- The directive with other values and another comment. -/
def Directive.rewrite (value comment : String → String) : Directive → Directive
  | .call name arguments blocks => .call name (arguments.mapValues value) blocks
  | .comment text => .comment (comment text)
  | other => other

theorem Directive.arguments_rewrite (value comment : String → String)
    (directives : List Directive) :
    (directives.map (·.rewrite value comment)).filterMap arguments? =
      (directives.filterMap arguments?).map (·.mapValues value) := by
  rw [List.filterMap_map, List.map_filterMap]
  refine List.filterMap_congr fun directive _ => ?_
  cases directive <;> rfl

namespace Xacro

/-- What is not a value in the directive can stand in a tag. -/
def IsRewritable : Directive → Prop
  | .inclusion package file path => IsUnbroken (inclusionTarget package file path)
  | .call name arguments _ => ParameterName.isValid name = true ∧
      ∀ other ∈ arguments.names, ParameterName.isValid other = true
  | _ => True

theorem IsRewritable.rewrite {directive : Directive} (hrewritable : IsRewritable directive)
    (value comment : String → String) : IsRewritable (directive.rewrite value comment) := by
  cases directive with
  | call => simpa [Directive.rewrite, IsRewritable] using hrewritable
  | _ => exact hrewritable

theorem Readable.rewrite {directive : Directive} (hreadable : Readable directive)
    (value comment : String → String) : Readable (directive.rewrite value comment) := by
  cases directive with
  | call => simpa [Directive.rewrite, Readable] using hreadable
  | _ => exact hreadable

@[simp] theorem isUnbroken_append (front back : String) :
    IsUnbroken (front ++ back) ↔ IsUnbroken front ∧ IsUnbroken back := by
  simp only [IsUnbroken, String.toList_append, List.forall_mem_append]

theorem isUnbroken_inclusionTarget {package file path : String} (hpackage : IsUnbroken package)
    (hfile : IsUnbroken file) (hpath : IsUnbroken path) :
    IsUnbroken (inclusionTarget package file path) := by
  simp +decide [inclusionTarget, hpackage, hfile, hpath]

theorem isUnbroken_coordinates (v : Vector3) : IsUnbroken (coordinates v) := by
  have htext : ∀ x : Binary64, IsUnbroken x.toText := by
    have hother : IsUnbroken ".-NaNinf" := by decide
    refine forall_mem_toText (fun c hdigit => ?_) hother
    have hbreaks : ∀ other ∈ ['\t', '\n', '\r'], ¬ other.isDigit = true := by decide
    have hplain : ∀ other ∈ ['\t', '\n', '\r'], c ≠ other :=
      fun other hmem hsame => hbreaks other hmem (hsame ▸ hdigit)
    simpa [isBreak, and_assoc] using hplain
  have hspace : IsUnbroken " " := by decide
  unfold coordinates
  simp only [isUnbroken_append]
  exact ⟨⟨⟨⟨htext v.x, hspace⟩, htext v.y⟩, hspace⟩, htext v.z⟩

/-- A character that can stand in a tag outside of values. -/
def IsTagCharacter (c : Char) : Prop :=
  ParameterName.isContinuation c = true ∨ c ∈ " =:".toList

instance : DecidablePred IsTagCharacter := fun c =>
  inferInstanceAs (Decidable (ParameterName.isContinuation c = true ∨ c ∈ " =:".toList))

open Reader in
/-- A pass that changes nothing in a description but values and comments. -/
structure Pass.Rewrites {σ : Type} (pass : Pass σ) (content tag : σ)
    (value comment : String → String) : Prop where
  start : ∀ front ∈ ["<?xml version=\"1.0\"?>\n<robot", "  <xacro:", "    <origin", "  </xacro:"],
    pass.Turns content front front tag
  name : ∀ text, (∀ c ∈ text.toList, IsTagCharacter c) → pass.Turns tag text text tag
  quoted : ∀ text, pass.Turns tag (quotedValue text) (quotedValue (value text)) tag
  ending : ∀ complete, pass.Turns tag (tagEnding complete) (tagEnding complete) content
  comment : ∀ text, pass.Turns content (directiveText (.comment text))
    (directiveText (.comment (comment text))) content
  lineEnd : pass.Turns content "\n" "\n" content
  closing : pass.Turns content "</robot>\n" "</robot>\n" content
  unbroken : ∀ text, IsUnbroken text → value text = text

namespace Pass.Rewrites

open Reader

variable {σ : Type} {pass : Pass σ} {content tag : σ} {value comment : String → String}
  (hpass : pass.Rewrites content tag value comment)
include hpass

theorem namedValue {key : String} (hkey : ∀ c ∈ key.toList, IsTagCharacter c) (text : String) :
    pass.Turns tag (attributeText key text) (attributeText key (value text)) tag := by
  have hname : pass.Turns tag (" " ++ key ++ "=") (" " ++ key ++ "=") tag := by
    refine hpass.name _ ?_
    simp only [String.toList_append, List.forall_mem_append]
    exact ⟨⟨by simp [IsTagCharacter], hkey⟩, by simp [IsTagCharacter]⟩
  exact hname.append (hpass.quoted text)

theorem namedValues (entries : List (String × String))
    (hkeys : ∀ entry ∈ entries, ∀ c ∈ entry.1.toList, IsTagCharacter c) :
    pass.Turns tag (attributesText entries)
      (attributesText (entries.map fun entry => (entry.1, value entry.2))) tag := by
  rw [attributesText, attributesText, List.map_map]
  exact turns_join fun entry hmem => hpass.namedValue (hkeys entry hmem) entry.2

theorem block (block : Block) :
    pass.Turns content ("    " ++ renderBlock block ++ "\n") ("    " ++ renderBlock block ++ "\n")
      content := by
  obtain ⟨placement⟩ := block
  have hcoordinates : ∀ v, value (coordinates v) = coordinates v :=
    fun v => hpass.unbroken _ (isUnbroken_coordinates v)
  have hxyz : ∀ c ∈ "xyz".toList, IsTagCharacter c := by decide
  have hrpy : ∀ c ∈ "rpy".toList, IsTagCharacter c := by decide
  have hentries := hpass.namedValues
    [("xyz", coordinates placement.xyz), ("rpy", coordinates placement.rpy)]
    (List.forall_mem_cons.mpr ⟨hxyz, List.forall_mem_singleton.mpr hrpy⟩)
  rw [List.map_cons, List.map_cons, List.map_nil, hcoordinates, hcoordinates] at hentries
  rw [renderBlock_eq]
  exact (hpass.start "    <origin" (by simp)).append
    ((hentries.append (hpass.ending true)).append hpass.lineEnd)

theorem element {name : String} (hname : ParameterName.isValid name = true)
    (entries : List (String × String))
    (hkeys : ∀ entry ∈ entries, ParameterName.isValid entry.1 = true) (complete : Bool)
    {inner : String} (hinner : pass.Turns content inner inner content) :
    pass.Turns content (elementText name entries complete inner)
      (elementText name (entries.map fun entry => (entry.1, value entry.2)) complete inner)
      content := by
  have hvalid : ∀ {key : String}, ParameterName.isValid key = true →
      ∀ c ∈ key.toList, IsTagCharacter c :=
    fun hvalid c hmem => .inl (isContinuation_of_isValid hvalid c hmem)
  have hentries := hpass.namedValues entries fun entry hmem => hvalid (hkeys entry hmem)
  rw [elementText_eq, elementText_eq]
  exact (hpass.start "  <xacro:" (by simp)).append ((hpass.name name (hvalid hname)).append
    ((hentries.append (hpass.ending complete)).append (hpass.lineEnd.append hinner)))

theorem directive {directive : Directive} (hrewritable : IsRewritable directive) :
    pass.Turns content (directiveText directive)
      (directiveText (directive.rewrite value comment)) content := by
  cases directive with
  | inclusion package file path =>
      have htarget := hpass.element (by decide : ParameterName.isValid "include" = true)
        [("filename", inclusionTarget package file path)] (by simp +decide) true
        (turns_empty content)
      rw [List.map_cons, List.map_nil, hpass.unbroken _ hrewritable] at htarget
      change pass.Turns content (directiveText (.inclusion package file path))
        (directiveText (.inclusion package file path)) content
      rw [directiveText_inclusion]
      exact htarget
  | call name arguments blocks =>
      obtain ⟨hname, hnames⟩ := hrewritable
      have hkeys : ∀ entry ∈ arguments.entries, ParameterName.isValid entry.1 = true :=
        fun entry hmem => hnames entry.1 (List.mem_map_of_mem hmem)
      cases blocks with
      | nil =>
          rw [Directive.rewrite, directiveText_call_nil, directiveText_call_nil]
          exact hpass.element hname _ hkeys true (turns_empty content)
      | cons block rest =>
          have hblocks := turns_join fun other (_ : other ∈ block :: rest) => hpass.block other
          have hend : pass.Turns content ("  </xacro:" ++ name ++ ">\n")
              ("  </xacro:" ++ name ++ ">\n") content := by
            have htag := (hpass.start "  </xacro:" (by simp)).append (hpass.name name
              fun c hmem => .inl (isContinuation_of_isValid hname c hmem))
            exact htag.append ((hpass.ending false).append hpass.lineEnd)
          rw [Directive.rewrite, directiveText_call_cons, directiveText_call_cons]
          exact hpass.element hname _ hkeys false (hblocks.append hend)
  | comment text => exact hpass.comment text
  | blank => exact hpass.lineEnd

/-- Of a whole description a pass makes the description of the rewritten directives. -/
theorem document (robotName : String) {directives : List Directive}
    (hrewritable : ∀ directive ∈ directives, IsRewritable directive) :
    pass.Turns content (documentText robotName ⟨directives, true⟩)
      (documentText (value robotName) ⟨directives.map (·.rewrite value comment), true⟩)
      content := by
  have hrobot : ∀ c ∈ "name".toList, IsTagCharacter c := by decide
  have hnamespace : ∀ c ∈ "xmlns:xacro".toList, IsTagCharacter c := by decide
  have hattributes := hpass.namedValues (robotAttributes robotName)
    (List.forall_mem_cons.mpr ⟨hrobot, List.forall_mem_singleton.mpr hnamespace⟩)
  rw [robotAttributes, List.map_cons, List.map_cons, List.map_nil,
    hpass.unbroken "http://ros.org/wiki/xacro" (by decide)] at hattributes
  have hdirectives := turns_join fun directive hmem => hpass.directive (hrewritable directive hmem)
  rw [documentText_eq, documentText_eq, List.map_map]
  exact (hpass.start _ (by simp)).append ((hattributes.append (hpass.ending false)).append
    (hpass.lineEnd.append (hdirectives.append hpass.closing)))

end Pass.Rewrites

section Instances

open Reader

theorem ne_of_isTagCharacter {c : Char} (hname : IsTagCharacter c) :
    ∀ other ∈ "\t\n\r\"'>".toList, c ≠ other := by
  have hmarks : ∀ other ∈ "\t\n\r\"'>".toList, ¬ IsTagCharacter other := by decide
  exact fun other hmem hsame => hmarks other hmem (hsame ▸ hname)

theorem isUnbroken_of_isValid {name : String} (hvalid : ParameterName.isValid name = true) :
    IsUnbroken name := by
  intro c hmem
  have hne := ne_of_isTagCharacter (.inl (isContinuation_of_isValid hvalid c hmem))
  simp [isBreak, hne '\t' (by decide), hne '\n' (by decide), hne '\r' (by decide)]

theorem unified_of_isUnbroken {text : String} (hunbroken : IsUnbroken text) :
    unified text = text := by
  have hplain : ∀ c ∈ text.toList, c ≠ '\r' ∧ c ≠ '\n' := by
    intro c hmem
    have hbreak := hunbroken c hmem
    simp only [isBreak, Bool.or_eq_false_iff, beq_eq_false_iff_ne] at hbreak
    exact ⟨hbreak.2, hbreak.1.2⟩
  rw [unified, (lineEnds_turns_self hplain).run_eq, String.ofList_toList]

theorem spaced_of_isUnbroken {text : String} (hunbroken : IsUnbroken text) :
    spaced text = text := by
  have hsame : text.toList.map toSpace = text.toList.map id :=
    List.map_congr_left fun c hmem => by simp [toSpace, hunbroken c hmem]
  rw [spaced, hsame, List.map_id, String.ofList_toList]

theorem lineEnds_rewrites : lineEnds.Rewrites false false unified unified where
  start front hmem := by
    simp only [List.mem_cons, List.not_mem_nil, or_false] at hmem
    rcases hmem with rfl | rfl | rfl | rfl <;> exact ⟨rfl, rfl⟩
  name text hname := lineEnds_turns_self fun c hmem =>
    ⟨ne_of_isTagCharacter (hname c hmem) _ (by decide),
      ne_of_isTagCharacter (hname c hmem) _ (by decide)⟩
  quoted := lineEnds_turns_quotedValue
  ending complete := by cases complete <;> exact ⟨rfl, rfl⟩
  comment text := by
    have hfront : lineEnds.Turns false "  <!--" "  <!--" false := ⟨rfl, rfl⟩
    have hback : lineEnds.Turns false "-->" "-->" false := ⟨rfl, rfl⟩
    rw [directiveText_comment, directiveText_comment]
    exact hfront.append (((lineEnds_turns_comment text).append hback).append ⟨rfl, rfl⟩)
  lineEnd := ⟨rfl, rfl⟩
  closing := ⟨rfl, rfl⟩
  unbroken _ := unified_of_isUnbroken

theorem values_rewrites : values.Rewrites .content .tag spaced id where
  start front hmem := by
    simp only [List.mem_cons, List.not_mem_nil, or_false] at hmem
    rcases hmem with rfl | rfl | rfl | rfl <;> exact ⟨rfl, rfl⟩
  name text hname := values_turns_self fun c hmem =>
    have hne := ne_of_isTagCharacter (hname c hmem)
    ⟨hne _ (by decide), hne _ (by decide), hne _ (by decide)⟩
  quoted := values_turns_quotedValue
  ending complete := by cases complete <;> exact ⟨rfl, rfl⟩
  comment text := by
    have hfront : values.Turns .content "  <!--" "  <!--" (.comment 0) := ⟨rfl, rfl⟩
    rw [id, directiveText_comment]
    exact hfront.append ((values_turns_comment text).append ⟨rfl, rfl⟩)
  lineEnd := ⟨rfl, rfl⟩
  closing := ⟨rfl, rfl⟩
  unbroken _ := spaced_of_isUnbroken

end Instances

end Xacro

namespace Layout

theorem isRewritable_descriptor {config : RobotConfig} {platform : PlatformModel}
    (hnames : config.NamesValid) {descriptor : Descriptor}
    (hmem : descriptor ∈ config.descriptors platform) :
    Xacro.IsRewritable descriptor.inclusion ∧
      ParameterName.isValid descriptor.macroName = true ∧ descriptor.macroName ≠ "include" ∧
      ∀ name ∈ descriptor.arguments.names, ParameterName.isValid name = true := by
  have hplatforms : Xacro.IsUnbroken platformPackage := by decide
  have hmounts : Xacro.IsUnbroken mountsPackage := by decide
  rcases RobotConfig.mem_descriptors hmem with rfl | ⟨item, hitem, hdescribe⟩ |
    ⟨item, hitem, hdescribe⟩
  · have hid := Xacro.isUnbroken_of_isValid platform.isValid_id
    have hpath : Xacro.IsUnbroken platform.descriptor.path := by cases platform <;> decide
    have hother : platform.id ≠ "include" := by cases platform <;> decide
    exact ⟨Xacro.isUnbroken_inclusionTarget hplatforms hid hpath, platform.isValid_id, hother,
      List.forall_mem_nil _⟩
  · obtain ⟨kind, _, _, hcalled, _⟩ := Decoration.exists_kind_of_describe hdescribe
    obtain ⟨other, hinclusion⟩ := Decoration.exists_inclusion_of_describe hdescribe
    have hfile := Xacro.isUnbroken_of_isValid other.isValid_file
    have hother : kind.id ≠ "include" := by cases kind <;> decide
    rw [hcalled, hinclusion]
    exact ⟨Xacro.isUnbroken_inclusionTarget hplatforms hfile (by decide), kind.isValid_id, hother,
      Decoration.forall_names_describe hdescribe
        (hnames.decorations item (List.mem_filter.mp hitem).1)⟩
  · obtain ⟨model, hcalled, _⟩ := Mount.exists_model_of_describe hdescribe
    obtain ⟨other, hinclusion⟩ := Mount.exists_inclusion_of_describe hdescribe
    have hfile := Xacro.isUnbroken_of_isValid other.isValid_id
    have hother : model.id ≠ "include" := by cases model <;> decide
    rw [hcalled, hinclusion]
    exact ⟨Xacro.isUnbroken_inclusionTarget hmounts hfile (by decide), model.isValid_id, hother,
      Mount.forall_names_describe hdescribe (hnames.mounts item hitem)⟩

/-- Every directive of a layout can be read back, and a pass can rewrite it. -/
theorem readable_whole {config : RobotConfig} (hnames : config.NamesValid)
    (platform : PlatformModel) :
    ∀ directive ∈ whole config platform,
      Xacro.IsRewritable directive ∧ Xacro.Readable directive := by
  have hcommon : Xacro.IsUnbroken
      (Xacro.inclusionTarget "clearpath_platform_description" "common" "urdf/") := by decide
  refine forall_mem_whole ⟨trivial, trivial⟩ (fun _ => ⟨trivial, trivial⟩) ⟨hcommon, trivial⟩ ?_
  intro descriptor hmem
  obtain ⟨hinclusion, hcalled, hother, harguments⟩ := isRewritable_descriptor hnames hmem
  exact ⟨⟨hinclusion, trivial⟩, fun nested => ⟨⟨hcalled, harguments⟩, hcalled, hother, harguments⟩⟩

end Layout

namespace Xacro

/-- What a reader of XML makes of the white space in a value. -/
def normalized (text : String) : String :=
  spaced (unified text)

/-- Reads a description as XML. A text with other characters is none. -/
def readXml? (text : String) : Option (String × List Item) :=
  if IsXmlText text then
    read? (String.ofList (values.run .content (lineEnds.run false text.toList)))
  else
    none

/-- The arguments of an item that is a call. -/
def Item.arguments? : Item → Option Arguments
  | .call _ arguments _ => some arguments
  | _ => none

theorem normalized_eq_self_iff {text : String} : normalized text = text ↔ IsUnbroken text := by
  constructor
  · intro hsame c hmem
    rw [← hsame, normalized, spaced, String.toList_ofList] at hmem
    obtain ⟨d, _, rfl⟩ := List.mem_map.mp hmem
    unfold toSpace
    split
    next => rfl
    next hplain => exact Bool.eq_false_iff.mpr hplain
  · intro hunbroken
    rw [normalized, unified_of_isUnbroken hunbroken, spaced_of_isUnbroken hunbroken]

theorem Item.arguments_ofDirective (directives : List Directive) :
    (directives.map Item.ofDirective).filterMap arguments? =
      directives.filterMap Directive.arguments? := by
  rw [List.filterMap_map]
  refine List.filterMap_congr fun directive _ => ?_
  cases directive <;> rfl

/-- A description of admitted characters is read with its values normalized. -/
theorem readXml?_documentText {robotName : String} {directives : List Directive}
    (hcharacters : IsXmlText (documentText robotName ⟨directives, true⟩))
    (hdirectives : ∀ directive ∈ directives, IsRewritable directive ∧ Readable directive) :
    ∃ items, readXml? (documentText robotName ⟨directives, true⟩) =
        some (normalized robotName, items) ∧
      items.filterMap Item.arguments? =
        (directives.filterMap Directive.arguments?).map (·.mapValues normalized) := by
  have hlines := lineEnds_rewrites.document robotName fun directive hmem =>
    (hdirectives directive hmem).1
  -- the second pass goes over the description that the first one has made
  generalize hunified : directives.map (·.rewrite unified unified) = unifiedDirectives at hlines
  have hboth : ∀ directive ∈ unifiedDirectives, IsRewritable directive ∧ Readable directive := by
    rw [← hunified]
    refine List.forall_mem_map.mpr fun directive hmem => ?_
    exact ⟨(hdirectives directive hmem).1.rewrite _ _, (hdirectives directive hmem).2.rewrite _ _⟩
  have hvalues := values_rewrites.document (unified robotName) fun directive hmem =>
    (hboth directive hmem).1
  have hreadable : ∀ directive ∈ unifiedDirectives.map (·.rewrite spaced id),
      Readable directive :=
    List.forall_mem_map.mpr fun directive hmem => (hboth directive hmem).2.rewrite _ _
  have hread := Reader.reads_description (normalized robotName) hreadable []
  rw [List.append_nil] at hread
  refine ⟨(unifiedDirectives.map (·.rewrite spaced id)).map Item.ofDirective, ?_, ?_⟩
  · rw [readXml?, if_pos hcharacters, hlines.run_eq, hvalues.run_eq, String.ofList_toList, read?,
      ← normalized, hread]
  · rw [Item.arguments_ofDirective, Directive.arguments_rewrite, ← hunified,
      Directive.arguments_rewrite, List.map_map]
    refine List.map_congr_left fun arguments _ => ?_
    exact Arguments.mapValues_mapValues unified spaced arguments

variable {config : RobotConfig} {summary : Summary} {destination : Destination}

/-- What a reader of XML reads of the whole layout. -/
theorem readXml?_whole {platform : PlatformModel} (hvalid : config.IsValid)
    (hresolves : config.Resolves platform)
    (hcharacters : ∀ text ∈ config.writtenTexts, IsXmlText text) :
    ∃ items, readXml?
        (documentText config.serialNumber ⟨Layout.whole config platform, true⟩) =
        some (normalized config.serialNumber, items) ∧
      items.filterMap Item.arguments? =
        (config.descriptors platform).map (·.arguments.mapValues normalized) := by
  have hnames := RobotConfig.namesValid_of_isValid hvalid
  obtain ⟨items, hread, hitems⟩ := readXml?_documentText
    ((isXmlText_whole_iff hvalid hresolves).mpr hcharacters) (Layout.readable_whole hnames platform)
  rw [Layout.arguments_whole, List.map_map] at hitems
  exact ⟨items, hread, hitems⟩

theorem map_normalized_eq_iff {descriptors : List Descriptor} :
    descriptors.map (·.arguments.mapValues normalized) = descriptors.map (·.arguments) ↔
      ∀ descriptor ∈ descriptors, ∀ entry ∈ descriptor.arguments.entries,
        IsUnbroken entry.2 := by
  simp only [List.map_inj_left, Arguments.mapValues_eq_self_iff, normalized_eq_self_iff]

/-- Of the description of an accepted configuration, if the texts in it can be in XML at all, a
reader of XML gets the serial number and, call by call, the arguments of the descriptors, each value
with its tabs and line ends as spaces. So it gets back what was written exactly if nothing written
has any. -/
theorem readXml?_stream (hreliable : destination.NeverFails) (hvalid : config.IsValid)
    (hcharacters : ∀ text ∈ config.writtenTexts, IsXmlText text)
    (hdone : (generate config Document.empty).result = .ok summary) :
    ∃ platform text robotName items, config.Resolves platform ∧
      (stream config destination).destination.stored = destination.stored ++ text.toUTF8 ∧
      readXml? text = some (robotName, items) ∧
      robotName = normalized config.serialNumber ∧
      items.filterMap Item.arguments? =
        (config.descriptors platform).map (·.arguments.mapValues normalized) ∧
      (robotName = config.serialNumber ∧
          items.filterMap Item.arguments? = (config.descriptors platform).map (·.arguments) ↔
        IsUnbroken config.serialNumber ∧
          ∀ descriptor ∈ config.descriptors platform, ∀ entry ∈ descriptor.arguments.entries,
            IsUnbroken entry.2) := by
  obtain ⟨platform, hresolves, hstored⟩ := exists_stored_of_generate hreliable hvalid hdone
  obtain ⟨items, hread, hitems⟩ := readXml?_whole hvalid hresolves hcharacters
  refine ⟨platform, _, _, items, hresolves, hstored, hread, rfl, hitems, ?_⟩
  rw [hitems, map_normalized_eq_iff, normalized_eq_self_iff]

theorem readXml?_stream_signpost :
    signpost.IsValid ∧ (∀ text ∈ signpost.writtenTexts, IsXmlText text) ∧
      (generate signpost Document.empty).result = .ok ⟨0, 0, 1⟩ ∧
      ∃ text items, (stream signpost {}).destination.stored = .empty ++ text.toUTF8 ∧
        readXml? text = some (signpost.serialNumber, items) := by
  have hvalid : signpost.IsValid := by decide
  have hcharacters : ∀ text ∈ signpost.writtenTexts, IsXmlText text := by decide
  have hdone : (generate signpost Document.empty).result = .ok ⟨0, 0, 1⟩ := rfl
  have hreliable : Destination.NeverFails {} := ⟨rfl, rfl, rfl⟩
  obtain ⟨platform, text, robotName, items, _, hstored, hread, hname, _⟩ :=
    readXml?_stream hreliable hvalid hcharacters hdone
  have hserial : robotName = signpost.serialNumber := hname.trans (by decide)
  exact ⟨hvalid, hcharacters, hdone, text, items, hstored, hserial ▸ hread⟩

/-- The label of a sign over two lines is read as one over a single line. -/
theorem ne_of_readXml?_signpost :
    signpost.IsValid ∧ (∀ text ∈ signpost.writtenTexts, IsXmlText text) ∧
      (generate signpost Document.empty).result = .ok ⟨0, 0, 1⟩ ∧
      ∃ platform text items, signpost.Resolves platform ∧
        (stream signpost {}).destination.stored = .empty ++ text.toUTF8 ∧
        readXml? text = some (signpost.serialNumber, items) ∧
        items.filterMap Item.arguments? ≠
          (signpost.descriptors platform).map (·.arguments) := by
  have hvalid : signpost.IsValid := by decide
  have hcharacters : ∀ text ∈ signpost.writtenTexts, IsXmlText text := by decide
  have hdone : (generate signpost Document.empty).result = .ok ⟨0, 0, 1⟩ := rfl
  have hreliable : Destination.NeverFails {} := ⟨rfl, rfl, rfl⟩
  obtain ⟨platform, hresolves, hstored⟩ := exists_stored_of_generate hreliable hvalid hdone
  obtain ⟨items, hread, hitems⟩ := readXml?_whole hvalid hresolves hcharacters
  have hserial : normalized signpost.serialNumber = signpost.serialNumber := by decide
  rw [hserial] at hread
  refine ⟨hvalid, hcharacters, hdone, platform, _, items, hresolves, hstored, hread, ?_⟩
  rw [hitems, Ne, map_normalized_eq_iff]
  cases platform <;> decide

end Xacro

end RobotDescription
