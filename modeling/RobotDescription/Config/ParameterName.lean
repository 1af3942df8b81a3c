/-!
# Parameter names

Parameters become attributes of a macro call, so their names are restricted to ASCII attribute
names.
-/

namespace RobotDescription

namespace ParameterName

/-- A name begins with an ASCII letter or an underscore. -/
def isStart (c : Char) : Bool :=
  c.isAlpha || c == '_'

/-- Further characters may also be ASCII digits, points and hyphens. -/
def isContinuation (c : Char) : Bool :=
  c.isAlphanum || c == '_' || c == '.' || c == '-'

def isValid (name : String) : Bool :=
  match name.toList with
  | [] => false
  | first :: rest => isStart first && rest.all isContinuation

end ParameterName

end RobotDescription
