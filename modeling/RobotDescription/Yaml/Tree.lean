import RobotDescription.Yaml.Lexer
import RobotDescription.Yaml.Node

/-!
# From tokens to trees

The tree is built from the front of the token list. Where a token does not fit, or the tokens end,
the tree gets a cut and building stops. An anchor's number is the number of distinct names that
had anchors before it, so a name that is bound again can share its number with a later one; the
anchor that begins last then holds it.
-/

namespace RobotDescription.Yaml

/-- The addresses of the handles that need no directive. -/
def defaultHandles : List (String × String) :=
  [("!", "!"), ("!!", "tag:yaml.org,2002:")]

/-- The state of building. -/
structure Builder where
  tokens : List Token
  /-- The addresses of the handles. -/
  handles : List (String × String) := defaultHandles
  /-- The names of anchors with their numbers, the latest first. -/
  names : List (String × Nat) := []
  /-- The numbers of anchors, where each begins, and the node. -/
  anchored : List (Nat × Nat × Node) := []
  /-- The size of the tree so far. -/
  size : Nat := 0
  /-- A cut was made. -/
  broken : Bool := false

abbrev Build := StateM Builder

namespace Build

/-- Where a node stands decides which tokens can begin it. -/
inductive Place where
  /-- Between brackets. -/
  | flow
  /-- In a block. -/
  | block
  /-- In a block mapping, where dashes need no indentation of their own. -/
  | blockEntry
deriving DecidableEq

def peek : Build (Option Token) := return (← get).tokens.head?

def advance : Build Unit := modify fun b => { b with tokens := b.tokens.tail }

def isBroken : Build Bool := return (← get).broken

def grow : Build Unit := modify fun b => { b with size := b.size + 1 }

def cut : Build Node := do
  modify fun b => { b with broken := true }
  return .cut

/-- The node that stands where nothing is written. -/
def absent : Build Node := do
  grow
  return .empty

/-- Gives a name to the node that begins here, and tells its number. -/
def bindName (name : String) : Build Nat := do
  let b ← get
  let number := ((b.names.map (·.1)).eraseDups).length
  set { b with names := (name, number) :: b.names }
  return number

/-- Keeps a node for the aliases of its anchor. -/
def register (number start : Nat) (node : Node) : Build Unit :=
  modify fun b =>
    match b.anchored.lookup number with
    | some (other, _) =>
      if start < other then b
      else { b with anchored := (number, start, node) :: b.anchored }
    | none => { b with anchored := (number, start, node) :: b.anchored }

/-- The address of a tag as it is written before a node: none where there is no tag. There is no
result for a handle that is not known. -/
def address? (written : Option (String × String)) : Build (Option (Option String)) := do
  match written with
  | none => return some none
  | some (handle, suffix) =>
    if handle.isEmpty then return some (some suffix)
    else return ((← get).handles.lookup handle).map fun address => some (address ++ suffix)

/-- What stands before a node: a name for it and a tag, in either order. -/
structure Properties where
  anchor : Option String := none
  tag : Option (String × String) := none

/-- Some property is there. -/
def Properties.isPresent (properties : Properties) : Bool :=
  properties.anchor.isSome || properties.tag.isSome

def properties : Build Properties := do
  match ← peek with
  | some (.anchor name) =>
    advance
    match ← peek with
    | some (.tag handle suffix) =>
      advance
      return ⟨some name, some (handle, suffix)⟩
    | _ => return ⟨some name, none⟩
  | some (.tag handle suffix) =>
    advance
    match ← peek with
    | some (.anchor name) =>
      advance
      return ⟨some name, some (handle, suffix)⟩
    | _ => return ⟨none, some (handle, suffix)⟩
  | _ => return {}

def close : Build Unit := do
  advance
  grow

/-- Reads a node, unless the next token shows that there is none. -/
def unlessAt (stops : List Token) (read : Build Node) : Build Node := do
  match ← peek with
  | none => cut
  | some token => if stops.contains token then absent else read

/-- Reads the value of an entry, which is absent without a colon. -/
def valueUnlessAt (stops : List Token) (read : Build Node) : Build Node := do
  match ← peek with
  | none => cut
  | some .value =>
    advance
    unlessAt stops read
  | some _ => absent

/-- Goes on after an item of a list, unless it was cut. -/
def itemThen (item : Node) (rest : Build (List Node)) : Build (List Node) := do
  if ← isBroken then return [item] else return item :: (← rest)

/-- Reads the value of a key and goes on, unless one of them is cut. -/
def entryThen (key : Node) (value : Build Node) (rest : Build (List (Node × Node))) :
    Build (List (Node × Node)) := do
  if ← isBroken then return [(key, .cut)]
  let value ← value
  if ← isBroken then return [(key, value)] else return (key, value) :: (← rest)

/-- The value of a key without a colon. -/
def noValue : Build Node := do
  match ← peek with
  | none => cut
  | some _ => absent

/-- The key that a question mark announces without writing it. The token after the mark is lost. -/
def lostKey : Build Node := do
  advance
  absent

/-- Ends a list where its text breaks off. -/
def cutItems : Build (List Node) := return [← cut]

/-- Ends a list of entries where its text breaks off. -/
def cutEntries : Build (List (Node × Node)) := return [(← cut, .cut)]

/-- Ends a mapping of one entry, which has no token of its own for that but needs one to follow. -/
def endOfEntry : Build (List (Node × Node)) := do
  match ← peek with
  | none => cutEntries
  | some _ => return []

/-- Moves over the comma that stands before every item between brackets but the first, and tells
the next token. -/
def separator (first : Bool) (last : Token) : Build (Option Token) := do
  match ← peek with
  | none => return none
  | some token =>
    if first || token == last then return some token
    else if token == .flowEntry then
      advance
      peek
    else return none

mutual
def node : Nat → Place → Build Node
  | 0, _ => cut
  | fuel + 1, place => do
    match ← peek with
    | some (.alias name) =>
      match (← get).names.lookup name with
      | none => cut
      | some number =>
        advance
        grow
        return .alias number
    | _ =>
      let found ← properties
      match ← address? found.tag with
      | none => cut
      | some tag =>
        match found.anchor with
        | none => content fuel place found.isPresent tag
        | some name =>
          let start := (← get).size
          let number ← bindName name
          let result ← content fuel place true tag
          register number start result
          return result

/-- Reads a node after its properties. With properties it may be without text. -/
def content : Nat → Place → Bool → Option String → Build Node
  | 0, _, _, _ => cut
  | fuel + 1, place, hasProperties, tag => do
    match ← peek with
    | none => cut
    | some token =>
      -- A dash where a key could stand begins a list that no token opens or closes.
      if place == .blockEntry && token == .blockEntry then
        grow
        return .sequence tag (← indentlessItems fuel)
      else
        match token with
        | .scalar text style =>
          advance
          grow
          return .scalar ⟨text, style, tag⟩
        | .flowSequenceStart =>
          close
          return .sequence tag (← flowItems fuel true)
        | .flowMappingStart =>
          close
          return .mapping tag (← flowEntries fuel true)
        | _ =>
          if place != .flow && token == .blockSequenceStart then
            close
            return .sequence tag (← blockItems fuel)
          else if place != .flow && token == .blockMappingStart then
            close
            return .mapping tag (← blockEntries fuel)
          else if hasProperties then
            grow
            return .scalar ⟨"", .plain, tag⟩
          else cut

/-- Reads the items of a sequence in a block of its own. -/
def blockItems : Nat → Build (List Node)
  | 0 => cutItems
  | fuel + 1 => do
    match ← peek with
    | some .blockEntry =>
      advance
      let item ← unlessAt [.blockEntry, .blockEnd] (node fuel .block)
      itemThen item (blockItems fuel)
    | some .blockEnd =>
      close
      return []
    | _ => cutItems

/-- Reads the items of a sequence that is indented like the mapping around it. -/
def indentlessItems : Nat → Build (List Node)
  | 0 => cutItems
  | fuel + 1 => do
    match ← peek with
    | none => cutItems
    | some .blockEntry =>
      advance
      let item ← unlessAt [.blockEntry, .key, .value, .blockEnd] (node fuel .block)
      itemThen item (indentlessItems fuel)
    | some _ =>
      grow
      return []

/-- Reads the entries of a mapping in a block. -/
def blockEntries : Nat → Build (List (Node × Node))
  | 0 => cutEntries
  | fuel + 1 => do
    match ← peek with
    | some .key =>
      advance
      let key ← unlessAt [.key, .value, .blockEnd] (node fuel .blockEntry)
      entryThen key (valueUnlessAt [.key, .value, .blockEnd] (node fuel .blockEntry))
        (blockEntries fuel)
    | some .blockEnd =>
      close
      return []
    | _ => cutEntries

/-- Reads the items of a sequence between brackets. An item can be a mapping of one entry. -/
def flowItems : Nat → Bool → Build (List Node)
  | 0, _ => cutItems
  | fuel + 1, first => do
    match ← separator first .flowSequenceEnd with
    | none => cutItems
    | some .flowSequenceEnd =>
      close
      return []
    | some .key =>
      -- The mapping of one entry begins here.
      close
      let item ← singleEntry fuel
      itemThen item (flowItems fuel false)
    | some _ =>
      let item ← node fuel .flow
      itemThen item (flowItems fuel false)

/-- Reads a mapping of one entry in a sequence between brackets. Where its key is absent, one
token is lost. -/
def singleEntry : Nat → Build Node
  | 0 => cut
  | fuel + 1 => do
    let key ←
      match ← peek with
      | none => cut
      | some .value | some .flowEntry | some .flowSequenceEnd => lostKey
      | some _ => node fuel .flow
    let entries ← entryThen key
      (valueUnlessAt [.flowEntry, .flowSequenceEnd] (node fuel .flow)) endOfEntry
    grow
    return .mapping none entries

/-- Reads the entries of a mapping between brackets. -/
def flowEntries : Nat → Bool → Build (List (Node × Node))
  | 0, _ => cutEntries
  | fuel + 1, first => do
    match ← separator first .flowMappingEnd with
    | none => cutEntries
    | some .flowMappingEnd =>
      close
      return []
    | some .key =>
      advance
      let key ← unlessAt [.value, .flowEntry, .flowMappingEnd] (node fuel .flow)
      entryThen key (valueUnlessAt [.flowEntry, .flowMappingEnd] (node fuel .flow))
        (flowEntries fuel false)
    | some _ =>
      let key ← node fuel .flow
      entryThen key noValue (flowEntries fuel false)
end

/-- The fuel that suffices for a number of tokens: each level of the tree and each item takes up
at least one token and at most four steps. -/
def fuelFor (tokens : List Token) : Nat := 4 * (tokens.length + 1)

end Build

/-- Reads the directives before a document: the addresses of handles, and the tokens that are
left. -/
def directives? (hasVersion : Bool) (handles : List (String × String)) :
    List Token → Option (List (String × String) × List Token)
  | .version major minor :: rest =>
    if hasVersion || major ≠ 1 || (minor ≠ 1 && minor ≠ 2) then none
    else directives? true handles rest
  | .tagShorthand handle address :: rest =>
    if handles.any (·.1 = handle) then none
    else directives? hasVersion (handles ++ [(handle, address)]) rest
  | rest => some (handles ++ defaultHandles, rest)

namespace Document

/-- A document whose text is not well-formed from its beginning. -/
def broken : Document := { root := .cut, isLast := false }

/-- Reads a tree from tokens, with handles for its tags. -/
def build (handles : List (String × String)) (tokens : List Token) (read : Build Node) : Document :=
  let (root, b) := read.run { tokens := tokens, handles := handles }
  { root := root
    anchored := b.anchored.map fun (number, _, node) => (number, node)
    size := b.size
    isLast := !b.broken && b.tokens.dropWhile (· == .documentEnd) == [.streamEnd] }

/-- Reads the first document of a text. Without any document the tree is an empty scalar. -/
def ofTokens (tokens : List Token) : Document :=
  match tokens with
  | [] => broken
  | [.streamEnd] => { root := .empty, size := 1 }
  | first :: _ =>
    if first matches .version .. | .tagShorthand .. | .documentStart then
      match directives? false [] tokens with
      | some (handles, .documentStart :: rest) =>
        -- Directives right after the marker leave the document empty.
        build handles rest
          (match rest.head? with
          | some (.version _ _) | some (.tagShorthand _ _) => Build.absent
          | _ =>
            Build.unlessAt [.documentStart, .documentEnd, .streamEnd]
              (Build.node (Build.fuelFor tokens) .block))
      | _ => broken
    else build defaultHandles tokens (Build.node (Build.fuelFor tokens) .block)

/-- Reads the first document of a text. A character that may not occur makes all of the text
malformed. -/
def ofText (text : String) : Document :=
  let chars := text.toList
  if chars.all isAllowed then ofTokens (Token.ofText chars) else broken

end Document

end RobotDescription.Yaml
