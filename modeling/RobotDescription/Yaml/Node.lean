import RobotDescription.Yaml.Token

/-!
# The tree of a YAML document

A tree may be incomplete: where its text stops being well-formed it has a cut, so that what stands
before that place can still be read.
-/

namespace RobotDescription.Yaml

/-- A text with the way it is written and its tag. -/
structure Scalar where
  text : String
  style : Style
  tag : Option String := none
deriving DecidableEq, Repr

/-- The plain scalar without characters, which stands where nothing is written. -/
def Scalar.empty : Scalar := ⟨"", .plain, none⟩

/-- A node of a tree. -/
inductive Node where
  | scalar (content : Scalar)
  | sequence (tag : Option String) (items : List Node)
  | mapping (tag : Option String) (entries : List (Node × Node))
  /-- The node with an anchor of this number. -/
  | alias (anchor : Nat)
  /-- The text stops being well-formed here. -/
  | cut
deriving Repr

namespace Node

/-- The node that stands where nothing is written. -/
def empty : Node := .scalar .empty

mutual
/-- The node has no cut. -/
def isComplete : Node → Bool
  | .scalar _ => true
  | .sequence _ items => areComplete items
  | .mapping _ entries => entriesComplete entries
  | .alias _ => true
  | .cut => false

def areComplete : List Node → Bool
  | [] => true
  | node :: rest => isComplete node && areComplete rest

/-- No key and no value has a cut. -/
def entriesComplete : List (Node × Node) → Bool
  | [] => true
  | entry :: rest => entryComplete entry && entriesComplete rest

/-- Neither the key nor the value has a cut. -/
def entryComplete : Node × Node → Bool
  | (key, value) => isComplete key && isComplete value
end

end Node

/-- A document: its tree and the nodes that aliases stand for. -/
structure Document where
  root : Node
  /-- The nodes with anchors, by number. -/
  anchored : List (Nat × Node) := []
  /-- The size of the tree: one for a scalar or an alias, two for a collection and its end. -/
  size : Nat := 0
  /-- Nothing but the end of the text follows the tree. -/
  isLast : Bool := true
deriving Repr

def Document.node (document : Document) (anchor : Nat) : Node :=
  (document.anchored.lookup anchor).getD .cut

end RobotDescription.Yaml
