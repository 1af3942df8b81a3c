import RobotDescription.Decimal.Binary

/-!
# The values of a TOML document

A document is a table. Its entries stand in the order in which they were defined.
-/

namespace RobotDescription.Toml

/-- A value. -/
inductive Value where
  | bool (value : Bool)
  | int (value : Int64)
  | float (value : Binary64)
  | text (value : String)
  /-- A date, a time or both, as it is written. -/
  | moment (text : String)
  | array (items : List Value)
  | table (entries : List (String × Value))
deriving Repr

end RobotDescription.Toml
