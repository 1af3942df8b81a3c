/-!
# Escaping

Texts inside an attribute and inside a comment. An attribute value cannot leave its quotes; a
comment cannot hold two hyphens in a row or end in one.
-/

namespace RobotDescription.Xacro

/-- A character inside an attribute value in double quotes. -/
def escapeChar : Char → List Char
  | '&' => "&amp;".toList
  | '<' => "&lt;".toList
  | '>' => "&gt;".toList
  | '"' => "&quot;".toList
  | c => [c]

/-- A text inside an attribute value in double quotes. -/
def escapeAttribute (value : List Char) : List Char :=
  value.flatMap escapeChar

/-- A text inside a comment: a space between every two adjacent hyphens, and one after a hyphen at
the end. -/
def escapeComment : List Char → List Char
  | [] => []
  | [c] => if c = '-' then ['-', ' '] else [c]
  | a :: b :: rest =>
    if a = '-' && b = '-' then '-' :: ' ' :: escapeComment (b :: rest)
    else a :: escapeComment (b :: rest)

end RobotDescription.Xacro
