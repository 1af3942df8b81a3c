/-!
# Paths

Paths as they are written: names separated by slashes. Joining never normalises; the extension is
that of the last name.
-/

namespace RobotDescription

/-- A path, kept exactly as it is written. -/
structure Path where
  text : String
deriving DecidableEq, Repr

namespace Path

/-- The pieces of a text between slashes; there is always at least one. -/
def pieces : List Char → List (List Char)
  | [] => [[]]
  | c :: rest =>
    if c = '/' then [] :: pieces rest
    else
      match pieces rest with
      | [] => [[c]]
      | piece :: more => (c :: piece) :: more

/-- The pieces that name a step: empty ones and single dots lead nowhere. -/
def steps (p : Path) : List String :=
  ((pieces p.text.toList).filter fun piece => piece ≠ [] && piece ≠ ['.']).map String.ofList

def isAbsolute (p : Path) : Bool :=
  p.text.toList.head? = some '/'

/-- What a path names inside a base directory. A separator is added unless the base is empty or
ends in one, and an absolute path replaces the base. -/
def join (base added : Path) : Path :=
  if added.isAbsolute then added
  else if base.text.isEmpty || base.text.toList.getLast? = some '/' then ⟨base.text ++ added.text⟩
  else ⟨base.text ++ "/" ++ added.text⟩

/-- The last step, if it is a name and not the parent. -/
def fileName? (p : Path) : Option String :=
  p.steps.getLast?.filter (· ≠ "..")

/-- The part of a name after its last dot, if something stands before that dot. -/
def extensionOf? (name : List Char) : Option (List Char) :=
  let reversed := name.reverse
  let after := reversed.takeWhile (· ≠ '.')
  match reversed.dropWhile (· ≠ '.') with
  | '.' :: before => if before = [] then none else some after.reverse
  | _ => none

def extension? (p : Path) : Option String :=
  p.fileName?.bind fun name => (extensionOf? name.toList).map String.ofList

end Path

end RobotDescription
