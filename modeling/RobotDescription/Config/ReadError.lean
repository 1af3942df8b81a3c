/-!
# Why a document is no configuration

A text that is not well-formed, and the ways in which a well-formed document does not fit the model.
-/

namespace RobotDescription

/-- The reason why a document cannot be read. -/
inductive ReadError where
  /-- The text is not well-formed, or a value contradicts its own tag. -/
  | malformed
  | missingField (name : String)
  | duplicateField (name : String)
  /-- A value of another kind than the model has in its place. -/
  | invalidType
  /-- A list with too few or too many items. -/
  | invalidLength
  /-- The value of a parameter is none of the kinds that a parameter can have. -/
  | noVariant
deriving DecidableEq, Repr

/-- What a user is told. What is wrong with a text that is not well-formed is not told. -/
def ReadError.message? : ReadError → Option String
  | .malformed => none
  | .missingField name => some ("missing field \x60" ++ name ++ "\x60")
  | .duplicateField name => some ("duplicate field \x60" ++ name ++ "\x60")
  | .invalidType => some "invalid type"
  | .invalidLength => some "invalid length"
  | .noVariant => some "data did not match any variant of untagged enum ParameterValue"

end RobotDescription
