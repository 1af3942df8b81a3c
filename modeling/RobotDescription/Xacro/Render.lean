import RobotDescription.Description.Document
import RobotDescription.Xacro.Escape

/-!
# Xacro text

How a description is written: the opening lines with the robot's name, the lines of every
directive, the closing line.
-/

namespace RobotDescription.Xacro

def fileExtension : String := "urdf.xacro"

def quotedValue (value : String) : String :=
  "\"" ++ String.ofList (escapeAttribute value.toList) ++ "\""

def attributeText (name value : String) : String :=
  " " ++ name ++ "=" ++ quotedValue value

def coordinates (v : Vector3) : String :=
  v.x.toText ++ " " ++ v.y.toText ++ " " ++ v.z.toText

def renderOrigin (origin : Origin) : String :=
  "<origin xyz=\"" ++ coordinates origin.xyz ++ "\" rpy=\"" ++ coordinates origin.rpy ++ "\"/>"

def renderBlock : Block → String
  | .origin origin => renderOrigin origin

def inclusionTarget (package file path : String) : String :=
  "$(find " ++ package ++ ")/" ++ path ++ file ++ "." ++ fileExtension

/-- The start tag of a macro call up to its last attribute. -/
def startOfCall (name : String) (arguments : Arguments) : String :=
  "<xacro:" ++ name ++
    String.join (arguments.entries.map fun entry => attributeText entry.1 entry.2)

/-- The lines of a directive, without their ends. -/
def directiveLines : Directive → List String
  | .inclusion package file path =>
    ["  <xacro:include filename=" ++ quotedValue (inclusionTarget package file path) ++ "/>"]
  | .call name arguments [] => ["  " ++ startOfCall name arguments ++ "/>"]
  | .call name arguments blocks =>
    ("  " ++ startOfCall name arguments ++ ">") ::
      (blocks.map fun block => "    " ++ renderBlock block) ++
      ["  </xacro:" ++ name ++ ">"]
  | .comment text => ["  <!-- " ++ String.ofList (escapeComment text.toList) ++ " -->"]
  | .blank => [""]

def textOfLines (lines : List String) : String :=
  String.join (lines.map (· ++ "\n"))

def directiveText (directive : Directive) : String :=
  textOfLines (directiveLines directive)

def openingText (robotName : String) : String :=
  textOfLines [
    "<?xml version=\"1.0\"?>",
    "<robot name=" ++ quotedValue robotName ++ " xmlns:xacro=\"http://ros.org/wiki/xacro\">"]

def closingText : String :=
  textOfLines ["</robot>"]

/-- The text of a document about a robot; an open one lacks the closing line. -/
def documentText (robotName : String) (document : Document) : String :=
  openingText robotName ++ String.join (document.directives.map directiveText) ++
    (if document.closed then closingText else "")

end RobotDescription.Xacro
