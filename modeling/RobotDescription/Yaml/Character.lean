/-!
# Characters of a YAML text

The classes by which a text is taken apart. The end of the text counts as a blank where a class
says so.
-/

namespace RobotDescription.Yaml

/-- A character that may occur in a text: everything printable, tabs and line breaks. -/
def isAllowed (c : Char) : Bool :=
  let n := c.toNat
  n == 0x09 || n == 0x0A || n == 0x0D || (0x20 ≤ n && n ≤ 0x7E) || n == 0x85 ||
    (0xA0 ≤ n && n ≤ 0xD7FF) || (0xE000 ≤ n && n ≤ 0xFFFD) || 0x10000 ≤ n

/-- The mark that may open a text or a line and stands for nothing. -/
def byteOrderMark : Char := '\ufeff'

/-- A space or a tab. -/
def isGap (c : Char) : Bool :=
  c == ' ' || c == '\t'

/-- A character that ends a line: line feed, carriage return, next line, line or paragraph
separator. -/
def isLineEnd (c : Char) : Bool :=
  c == '\n' || c == '\r' || c == '\u0085' || c == '\u2028' || c == '\u2029'

/-- The end of the text, or a character that ends a line. -/
def endsLine : Option Char → Bool
  | none => true
  | some c => isLineEnd c

/-- The end of the text, a gap or the end of a line: what must follow an indicator. -/
def isApart : Option Char → Bool
  | none => true
  | some c => isGap c || isLineEnd c

/-- The characters of anchor names and tag handles. -/
def isWord (c : Char) : Bool :=
  c.isAlphanum || c == '_' || c == '-'

/-- The characters of a tag's address, apart from words and escapes. -/
def isAddressMark (c : Char) : Bool :=
  ";/?:@&=+$.!~*'()".toList.contains c

/-- The brackets and the comma of a collection written in brackets. -/
def isFlowMark (c : Char) : Bool :=
  c == ',' || c == '[' || c == ']' || c == '\x7b' || c == '\x7d'

/-- The characters that cannot begin a plain scalar on their own. -/
def isIndicator (c : Char) : Bool :=
  "-?:,[]\x7b\x7d#&*!|>'\"%@\x60".toList.contains c

end RobotDescription.Yaml
