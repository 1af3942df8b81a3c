import RobotDescription.Proofs.Xacro.Escaping
import RobotDescription.Proofs.Xacro.Images

/-!
# Descriptions can be read back

Whatever strings a description is made of, the reader finds the robot's name and one item for every
directive in its text. No string breaks out of its place.
-/

namespace RobotDescription.Xacro

/-- The names in a directive can stand in a tag, and no macro takes the place of the inclusion.
Every other string is arbitrary. -/
def Readable : Directive → Prop
  | .call name arguments _ => ParameterName.isValid name = true ∧ name ≠ "include" ∧
      ∀ other ∈ arguments.names, ParameterName.isValid other = true
  | _ => True

def originItem : Block → String × String
  | .origin origin => (coordinates origin.xyz, coordinates origin.rpy)

/-- What a directive is read as. -/
def Item.ofDirective : Directive → Item
  | .inclusion package file path =>
    .inclusion ("$(find " ++ package ++ ")/" ++ path ++ file ++ ".urdf.xacro")
  | .call name arguments blocks => .call name arguments (blocks.map originItem)
  | .comment text => .comment (" " ++ String.ofList (escapeComment text.toList) ++ " ")
  | .blank => .blank

theorem namesValid_of_readable {directive : Directive} (hreadable : Readable directive) :
    directive.NamesValid := by
  cases directive with
  | call => exact hreadable.2.2
  | _ => trivial

/-- A valid name is made of characters that names go on with. -/
theorem isContinuation_of_isValid {name : String} (hvalid : ParameterName.isValid name = true) :
    ∀ c ∈ name.toList, ParameterName.isContinuation c = true := by
  intro c hmem
  unfold ParameterName.isValid at hvalid
  split at hvalid
  next => cases hvalid
  next first rest hname =>
    rw [hname] at hmem
    obtain ⟨hfirst, hrest⟩ := Bool.and_eq_true_iff.mp hvalid
    rcases List.mem_cons.mp hmem with rfl | htail
    · unfold ParameterName.isStart at hfirst
      unfold ParameterName.isContinuation Char.isAlphanum
      grind
    · exact List.all_eq_true.mp hrest c htail

theorem equals_not_mem_of_isValid {name : String} (hvalid : ParameterName.isValid name = true) :
    '=' ∉ name.toList := by
  intro hmem
  exact absurd (isContinuation_of_isValid hvalid '=' hmem) (by decide)

namespace Reader

/-- The attributes of a tag. -/
def attributesText (entries : List (String × String)) : String :=
  String.join (entries.map fun entry => attributeText entry.1 entry.2)

/-- The end of a tag, which may be that of its element. -/
def tagEnding (complete : Bool) : String :=
  if complete then "/>" else ">"

theorem reads_tagEnd (complete : Bool) : Reads tagEnd (tagEnding complete) complete := by
  cases complete with
  | true => exact reads_orElse_left ((reads_word "/>").map fun _ => true)
  | false =>
      exact reads_orElse_right ((refuses_word 0 rfl rfl (by decide)).bind _)
        ((reads_word ">").map fun _ => false)

theorem refuses_tagEnd (name value : String) : Refuses tagEnd (attributeText name value) := by
  have hspace : Refuses tagEnd " " :=
    ((refuses_word 0 rfl rfl (by decide)).bind _).orElse
      ((refuses_word 0 rfl rfl (by decide)).bind _)
  have htext : attributeText name value = " " ++ (name ++ "=" ++ quotedValue value) := by
    simp [attributeText, String.append_assoc]
  rw [htext]
  exact hspace.append _

theorem reads_namedValues {entries : List (String × String)}
    (hnames : ∀ entry ∈ entries, '=' ∉ entry.1.toList) (complete : Bool) :
    Reads namedValues (attributesText entries ++ tagEnding complete) (entries, complete) := by
  have hreads := reads_untilEnd (fun entry hmem => reads_namedValue (hnames entry hmem) entry.2)
    (fun entry _ => refuses_tagEnd entry.1 entry.2) (reads_tagEnd complete)
  have hsame : entries.map (fun entry => (entry.1, entry.2)) = entries := List.map_id entries
  rwa [hsame] at hreads

/-- A name is read up to a character that no name goes on with. -/
theorem reads_name_bind {α : Type} {tag back : String} {next : String → Reader α} {value : α}
    (htag : ∀ c ∈ tag.toList, ParameterName.isContinuation c = true)
    (hback : ∃ c rest, back.toList = c :: rest ∧ ParameterName.isContinuation c = false)
    (hnext : Reads (next tag) back value) : Reads (name >>= next) (tag ++ back) value := by
  intro rest
  obtain ⟨c, tail, hcons, hstop⟩ := hback
  have hname : name ((tag ++ back).toList ++ rest) = some (tag, back.toList ++ rest) := by
    rw [String.toList_append, List.append_assoc]
    simp [name, List.takeWhile_append_of_pos htag, List.dropWhile_append_of_pos htag, hcons, hstop]
  rw [bind_eq_of_eq_some hname]
  exact hnext rest

/-- The line of an origin as a tag. -/
theorem renderBlock_eq (placement : Origin) :
    "    " ++ renderBlock (.origin placement) ++ "\n" = "    <origin" ++
      (attributesText [("xyz", coordinates placement.xyz), ("rpy", coordinates placement.rpy)] ++
        tagEnding true ++ "\n") := by
  have hxyz := quotedValue_coordinates placement.xyz
  have hrpy := quotedValue_coordinates placement.rpy
  change "    " ++ renderOrigin placement ++ "\n" = _
  unfold renderOrigin
  -- from here on the coordinates may be any texts that need no escaping
  generalize coordinates placement.xyz = xyz at hxyz ⊢
  generalize coordinates placement.rpy = rpy at hrpy ⊢
  simp [← String.toList_inj, tagEnding, attributesText, attributeText, hxyz, hrpy]

theorem reads_origin (block : Block) :
    Reads origin ("    " ++ renderBlock block ++ "\n") (originItem block) := by
  obtain ⟨placement⟩ := block
  have hnames : ∀ entry ∈ [("xyz", coordinates placement.xyz), ("rpy", coordinates placement.rpy)],
      '=' ∉ entry.1.toList := by
    simp
  rw [renderBlock_eq]
  apply reads_bind (reads_word "    <origin")
  apply reads_bind (reads_namedValues hnames true)
  exact (reads_word "\n").map _

theorem refuses_endTag (tag : String) (block : Block) :
    Refuses (word ("  </xacro:" ++ tag ++ ">\n")) ("    " ++ renderBlock block ++ "\n") := by
  refine refuses_word 2 (c := '<') (d := ' ') ?_ ?_ (by decide) <;> simp

theorem reads_nested (tag : String) (blocks : List Block) :
    Reads (nested tag false)
      (String.join (blocks.map fun block => "    " ++ renderBlock block ++ "\n") ++
        ("  </xacro:" ++ tag ++ ">\n")) (blocks.map originItem) :=
  (reads_untilEnd (fun block _ => reads_origin block) (fun block _ => refuses_endTag tag block)
    (reads_word _)).map _

/-- After the name of an element comes something that no name goes on with. -/
theorem exists_stop (entries : List (String × String)) (complete : Bool) (more : String) :
    ∃ c rest, (attributesText entries ++ tagEnding complete ++ more).toList = c :: rest ∧
      ParameterName.isContinuation c = false := by
  cases entries with
  | nil =>
      cases complete with
      | true => exact ⟨'/', _, by simp [attributesText, tagEnding]; rfl, by decide⟩
      | false => exact ⟨'>', _, by simp [attributesText, tagEnding]; rfl, by decide⟩
  | cons entry tail => exact ⟨' ', _, by simp [attributesText, attributeText]; rfl, by decide⟩

/-- An element with the lines inside it. -/
def elementText (tag : String) (entries : List (String × String)) (complete : Bool)
    (inner : String) : String :=
  "  <xacro:" ++ tag ++ attributesText entries ++ tagEnding complete ++ "\n" ++ inner

theorem elementText_eq (tag : String) (entries : List (String × String)) (complete : Bool)
    (inner : String) : elementText tag entries complete inner =
      "  <xacro:" ++
        (tag ++ (attributesText entries ++ tagEnding complete ++ ("\n" ++ inner))) := by
  unfold elementText
  generalize "  <xacro:" = opening
  generalize "\n" = lineEnd
  simp only [String.append_assoc]

theorem Refuses.elementText {α : Type} {reader : Reader α}
    (hrefuses : Refuses reader "  <xacro:") (tag : String) (entries : List (String × String))
    (complete : Bool) (inner : String) :
    Refuses reader (elementText tag entries complete inner) := by
  rw [elementText_eq]
  exact hrefuses.append _

theorem reads_element {tag : String} {entries : List (String × String)} {complete : Bool}
    {inner : String} {origins : List (String × String)} {found : Item}
    (htag : ∀ c ∈ tag.toList, ParameterName.isContinuation c = true)
    (hnames : ∀ entry ∈ entries, '=' ∉ entry.1.toList)
    (hinner : Reads (nested tag complete) inner origins)
    (hfound : element? tag entries origins = some found) :
    Reads item (elementText tag entries complete inner) found := by
  have hblank : Refuses blank "  <xacro:" := (refuses_word 0 rfl rfl (by decide)).bind _
  have hcomment : Refuses comment "  <xacro:" := (refuses_word 3 rfl rfl (by decide)).bind _
  apply reads_orElse_right (hblank.elementText _ _ _ _)
  apply reads_orElse_right (hcomment.elementText _ _ _ _)
  rw [elementText_eq, ← String.append_empty (s := inner)]
  apply reads_bind (reads_word "  <xacro:")
  apply reads_name_bind htag (exists_stop entries complete _)
  apply reads_bind (reads_namedValues hnames complete)
  apply reads_bind (reads_word "\n")
  exact reads_bind hinner (reads_lift hfound)

theorem directiveText_inclusion (package file path : String) :
    directiveText (.inclusion package file path) =
      elementText "include" [("filename", inclusionTarget package file path)] true "" := by
  unfold elementText attributesText tagEnding
  simp [← String.toList_inj, directiveText, directiveLines, textOfLines, attributeText]

theorem directiveText_call_nil (name : String) (arguments : Arguments) :
    directiveText (.call name arguments []) = elementText name arguments.entries true "" := by
  unfold elementText attributesText tagEnding
  simp [← String.toList_inj, directiveText, directiveLines, textOfLines, startOfCall]

theorem directiveText_call_cons (name : String) (arguments : Arguments) (block : Block)
    (blocks : List Block) :
    directiveText (.call name arguments (block :: blocks)) =
      elementText name arguments.entries false
        (String.join ((block :: blocks).map fun block => "    " ++ renderBlock block ++ "\n") ++
          ("  </xacro:" ++ name ++ ">\n")) := by
  unfold elementText attributesText tagEnding
  simp [← String.toList_inj, directiveText, directiveLines, textOfLines, startOfCall,
    Function.comp_def]

theorem reads_inclusion (package file path : String) :
    Reads item (directiveText (.inclusion package file path))
      (.ofDirective (.inclusion package file path)) := by
  have htarget : inclusionTarget package file path =
      "$(find " ++ package ++ ")/" ++ path ++ file ++ ".urdf.xacro" := by
    unfold inclusionTarget fileExtension
    simp [← String.toList_inj]
  rw [directiveText_inclusion, htarget]
  have htag := isContinuation_of_isValid (by decide : ParameterName.isValid "include" = true)
  exact reads_element htag (by simp) (reads_pure []) rfl

theorem reads_call {name : String} {arguments : Arguments} {blocks : List Block}
    (hreadable : Readable (.call name arguments blocks)) :
    Reads item (directiveText (.call name arguments blocks))
      (.ofDirective (.call name arguments blocks)) := by
  obtain ⟨hname, hother, harguments⟩ := hreadable
  have htag := isContinuation_of_isValid hname
  have hnames : ∀ entry ∈ arguments.entries, '=' ∉ entry.1.toList := fun entry hmem =>
    equals_not_mem_of_isValid (harguments entry.1 (List.mem_map_of_mem hmem))
  have hfound : element? name arguments.entries (blocks.map originItem) =
      some (.ofDirective (.call name arguments blocks)) := by
    simp [element?, hother, arguments.distinct, Item.ofDirective]
  cases blocks with
  | nil =>
      rw [directiveText_call_nil]
      exact reads_element htag hnames (reads_pure []) hfound
  | cons block rest =>
      rw [directiveText_call_cons]
      exact reads_element htag hnames (reads_nested name (block :: rest)) hfound

theorem directiveText_comment (text : String) :
    directiveText (.comment text) = "  <!--" ++
      ((" " ++ String.ofList (escapeComment text.toList) ++ " " ++ "-->") ++ "\n") := by
  simp [← String.toList_inj, directiveText, directiveLines, textOfLines]

theorem reads_commentLine (text : String) :
    Reads item (directiveText (.comment text)) (.ofDirective (.comment text)) := by
  have hblank : Refuses blank (directiveText (.comment text)) := by
    rw [directiveText_comment]
    exact ((refuses_word 0 rfl rfl (by decide)).bind _).append _
  have hcontent : Item.ofDirective (.comment text) =
      .comment (String.ofList (' ' :: (escapeComment text.toList ++ [' ']))) := by
    simp [Item.ofDirective, ← String.toList_inj]
  refine reads_orElse_right hblank (reads_orElse_left ?_)
  rw [directiveText_comment, hcontent]
  apply reads_bind (reads_word "  <!--")
  exact reads_bind (reads_comment text.toList) ((reads_word "\n").map _)

/-- The text of a directive is read as the directive's item, whatever follows. -/
theorem reads_item {directive : Directive} (hreadable : Readable directive) :
    Reads item (directiveText directive) (.ofDirective directive) := by
  cases directive with
  | inclusion package file path => exact reads_inclusion package file path
  | call name arguments blocks => exact reads_call hreadable
  | comment text => exact reads_commentLine text
  | blank => exact reads_orElse_left ((reads_word "\n").map _)

/-- No directive begins like the end of the description. -/
theorem refuses_closing (directive : Directive) :
    Refuses (word "</robot>\n") (directiveText directive) := by
  have helement : Refuses (word "</robot>\n") "  <xacro:" := refuses_word 0 rfl rfl (by decide)
  cases directive with
  | inclusion package file path =>
      rw [directiveText_inclusion]
      exact helement.elementText _ _ _ _
  | call name arguments blocks =>
      cases blocks with
      | nil =>
          rw [directiveText_call_nil]
          exact helement.elementText _ _ _ _
      | cons block rest =>
          rw [directiveText_call_cons]
          exact helement.elementText _ _ _ _
  | comment text =>
      refine refuses_word (c := '<') (d := ' ') 0 rfl ?_ (by decide)
      simp [directiveText, directiveLines, textOfLines]
  | blank => exact refuses_word 0 rfl rfl (by decide)

/-- The attributes of the element around a description. -/
def robotAttributes (robotName : String) : List (String × String) :=
  [("name", robotName), ("xmlns:xacro", "http://ros.org/wiki/xacro")]

theorem documentText_eq (robotName : String) (directives : List Directive) :
    documentText robotName ⟨directives, true⟩ = "<?xml version=\"1.0\"?>\n<robot" ++
      (attributesText (robotAttributes robotName) ++ tagEnding false ++
        ("\n" ++ (String.join (directives.map directiveText) ++ "</robot>\n"))) := by
  have hlast : quotedValue "http://ros.org/wiki/xacro" = "\"http://ros.org/wiki/xacro\"" := by
    decide
  simp [← String.toList_inj, documentText, openingText, closingText, textOfLines, robotAttributes,
    attributesText, attributeText, tagEnding, hlast]

/-- The text of a closed document is read as the robot's name and the items of its directives. -/
theorem reads_description (robotName : String) {directives : List Directive}
    (hreadable : ∀ directive ∈ directives, Readable directive) :
    Reads description (documentText robotName ⟨directives, true⟩)
      (robotName, directives.map Item.ofDirective) := by
  have hnames : ∀ entry ∈ robotAttributes robotName, '=' ∉ entry.1.toList := by
    simp [robotAttributes]
  rw [documentText_eq]
  apply reads_bind (reads_word _)
  apply reads_bind (reads_namedValues hnames false)
  apply reads_bind (reads_word "\n")
  exact (reads_untilEnd (fun directive hmem => reads_item (hreadable directive hmem))
    (fun directive _ => refuses_closing directive) (reads_word "</robot>\n")).map _

end Reader

/-- What a writer has written from its opening to its close is read back as the robot's name and
one item for every directive, in order. A comment is read back up to spaces. -/
theorem reads_back (robotName : String) {destination : Destination}
    (hreliable : destination.NeverFails) {directives : List Directive}
    (hreadable : ∀ directive ∈ directives, Readable directive) :
    ∃ writer text, Writer.create destination robotName = .ok writer ∧
      (Sink.writeAll directives writer).result = .ok () ∧
      (Sink.close (Sink.writeAll directives writer).sink).result = .ok () ∧
      (Sink.close (Sink.writeAll directives writer).sink).sink.destination.stored =
        destination.stored ++ text.toUTF8 ∧
      read? text = some (robotName, directives.map Item.ofDirective) ∧
      ∀ written content, Item.ofDirective (.comment written) = .comment content →
        content.toList.filter (· ≠ ' ') = written.toList.filter (· ≠ ' ') := by
  have hwriter := Writer.mirrors_ofDocument hreliable robotName
  have hvalid : ∀ directive ∈ directives, directive.NamesValid :=
    fun directive hmem => namesValid_of_readable (hreadable directive hmem)
  obtain ⟨hsink, hresult⟩ := hwriter.writeAll directives .empty hvalid
  have hopen : Document.empty.closed = false := rfl
  obtain ⟨hfull, hwritten⟩ := Document.writeAll_of_open hopen directives
  rw [hfull] at hsink
  obtain ⟨hend, hclosing⟩ := hwriter.close ⟨directives, false⟩
  refine ⟨_, documentText robotName ⟨directives, true⟩,
    Writer.create_eq_ofDocument hreliable robotName, hresult.trans hwritten, ?_, ?_, ?_, ?_⟩
  · rw [hsink]
    exact hclosing
  · rw [hsink]
    exact congrArg (·.destination.stored) hend
  · have hread := Reader.reads_description robotName hreadable []
    rw [List.append_nil] at hread
    simp [read?, hread]
  · rintro written content ⟨⟩
    simpa using filter_escapeComment written.toList

/-- Directives with marks of the text itself in every string. -/
def hostile : List Directive := [
  .inclusion "a\"/>" "<!--" "&quot;",
  .comment "--> <xacro:include filename=\"x\"/>\n--",
  .call "gps.v-2" (.ofList [("name", "\"/>\n</robot>"), ("parent_link", "&amp;")]) [.origin .zero],
  .blank,
  .call "gps" .empty []]

theorem reads_back_hostile :
    (∀ directive ∈ hostile, Readable directive) ∧
      ∃ writer text, Writer.create {} "<robot name=\"" = .ok writer ∧
        (Sink.close (Sink.writeAll hostile writer).sink).sink.destination.stored =
          .empty ++ text.toUTF8 ∧
        read? text = some ("<robot name=\"", hostile.map Item.ofDirective) := by
  have hreliable : Destination.NeverFails {} := ⟨rfl, rfl, rfl⟩
  have hreadable : ∀ directive ∈ hostile, Readable directive := by
    intro directive hmem
    simp only [hostile, List.mem_cons, List.not_mem_nil, or_false] at hmem
    rcases hmem with rfl | rfl | rfl | rfl | rfl
    · trivial
    · trivial
    · exact ⟨by decide, by decide,
        (by decide : ∀ name ∈ ["name", "parent_link"], ParameterName.isValid name = true)⟩
    · trivial
    · exact ⟨by decide, by decide, nofun⟩
  obtain ⟨writer, text, hcreate, _, _, hstored, hread, _⟩ :=
    reads_back "<robot name=\"" hreliable hreadable
  exact ⟨hreadable, writer, text, hcreate, hstored, hread⟩

end RobotDescription.Xacro
