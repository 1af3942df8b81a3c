import RobotDescription.Description.Arguments
import RobotDescription.Description.Origin

/-!
# Directives

A description is a sequence of directives: inclusions of templates, calls of the macros they
define, comments and blank lines.
-/

namespace RobotDescription

/-- An element nested in a macro call. -/
inductive Block where
  | origin (origin : Origin)
deriving DecidableEq, Repr

/-- One unit of a description. -/
inductive Directive where
  | inclusion (package file path : String)
  | call (macroName : String) (arguments : Arguments) (blocks : List Block)
  | comment (text : String)
  | blank
deriving DecidableEq

def Block.sameValue : Block → Block → Bool
  | .origin a, .origin b => a.sameValue b

/-- Comparison of two lists item by item. -/
def allMatch {α : Type} (same : α → α → Bool) : List α → List α → Bool
  | [], [] => true
  | a :: as, b :: bs => same a b && allMatch same as bs
  | _, _ => false

namespace Directive

/-- Comparison of directives, coordinates as numbers. -/
def sameValue : Directive → Directive → Bool
  | .inclusion package file path, .inclusion package' file' path' =>
    package == package' && file == file' && path == path'
  | .call name arguments blocks, .call name' arguments' blocks' =>
    name == name' && arguments == arguments' && allMatch Block.sameValue blocks blocks'
  | .comment text, .comment text' => text == text'
  | .blank, .blank => true
  | _, _ => false

def isInclusion : Directive → Bool
  | .inclusion .. => true
  | _ => false

def macroName? : Directive → Option String
  | .call name .. => some name
  | _ => none

end Directive

end RobotDescription
