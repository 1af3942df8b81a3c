import RobotDescription.Toml.Value

/-!
# Building tables

A key with dots defines a value in a table inside the one at hand, and a header opens a table
anywhere below the root. Either makes the tables on its way. Such tables are open: later keys or
headers may add to them. A table that was written out is closed to keys with dots, and may be
opened by a header only once.
-/

namespace RobotDescription.Toml

/-- A key: the tables on the way, and the name in the last of them. -/
structure Key where
  parents : List String := []
  name : String
deriving DecidableEq, Repr

/-- How a table came about. -/
inductive Origin where
  /-- It stands on the way of a header. -/
  | headerPath
  /-- It stands on the way of a key with dots. -/
  | dottedPath
  /-- It has a header of its own. -/
  | header
deriving DecidableEq, Repr

/-- What a name stands for while tables are built. -/
inductive Item where
  | value (v : Value)
  | table (origin : Origin) (entries : List (String × Item))
  /-- An array of tables, each opened by a header. -/
  | tables (elements : List (List (String × Item)))

/-- The entries of a table that is built. -/
abbrev Entries := List (String × Item)

namespace Entries

/-- The entries with a name standing for something else, in its old place. -/
def replace (entries : Entries) (name : String) (item : Item) : Entries :=
  entries.map fun entry => if entry.1 = name then (name, item) else entry

def erase (entries : Entries) (name : String) : Entries :=
  entries.filter (·.1 ≠ name)

/-- Changes a table below this one. On the way, missing tables are made, and of an array of tables
the last one is entered. There is no way through a value. -/
def alterBelow (change : Entries → Option Entries) (entries : Entries) :
    List String → Option Entries
  | [] => change entries
  | name :: rest =>
    match entries.lookup name with
    | none => do return entries ++ [(name, .table .headerPath (← alterBelow change [] rest))]
    | some (.value _) => none
    | some (.table origin inner) => do
      return entries.replace name (.table origin (← alterBelow change inner rest))
    | some (.tables elements) => do
      let last ← elements.getLast?
      return entries.replace name (.tables (elements.dropLast ++ [← alterBelow change last rest]))

/-- Defines a value at a name that has no value yet. -/
def define (entries : Entries) (name : String) (v : Value) : Option Entries :=
  if (entries.lookup name).isSome then none else some (entries ++ [(name, .value v)])

/-- Defines a value below a table that a key with dots made. -/
def defineBelow (entries : Entries) (isDotted : Bool) (name : String) (v : Value) :
    List String → Option Entries
  | [] => if isDotted then entries.define name v else none
  | step :: rest =>
    match entries.lookup step with
    | none => do return entries ++ [(step, .table .dottedPath (← defineBelow [] true name v rest))]
    | some (.value _) => none
    | some (.table origin inner) =>
      if origin = .header then none
      else do
        let changed ← defineBelow inner (origin = .dottedPath) name v rest
        return entries.replace step (.table origin changed)
    | some (.tables elements) => do
      let last ← elements.getLast?
      return entries.replace step
        (.tables (elements.dropLast ++ [← defineBelow last false name v rest]))

def insert (entries : Entries) (key : Key) (v : Value) : Option Entries :=
  if key.parents.isEmpty then entries.define key.name v
  else entries.defineBelow false key.name v key.parents

def insertAll (entries : Entries) (pairs : List (Key × Value)) : Option Entries :=
  pairs.foldlM (fun entries (key, v) => entries.insert key v) entries

/-- Opens a table by its header and adds to it. A table that only stood on the way of other
headers moves to the end. -/
def openTable (entries : Entries) (name : String) (fill : Entries → Option Entries) :
    Option Entries :=
  match entries.lookup name with
  | none => do return entries ++ [(name, .table .header (← fill []))]
  | some (.table .headerPath inner) => do
    return entries.erase name ++ [(name, .table .header (← fill inner))]
  | some _ => none

/-- Opens one more table of an array and adds to it. -/
def openElement (entries : Entries) (name : String) (fill : Entries → Option Entries) :
    Option Entries :=
  match entries.lookup name with
  | none => do return entries ++ [(name, .tables [← fill []])]
  | some (.tables elements) => do return entries.replace name (.tables (elements ++ [← fill []]))
  | some _ => none

end Entries

mutual
/-- What an item stands for when nothing more is added. -/
def Item.toValue : Item → Value
  | .value v => v
  | .table _ entries => .table (entriesToValues entries)
  | .tables elements => .array (elementsToValues elements)

def entriesToValues : List (String × Item) → List (String × Value)
  | [] => []
  | entry :: rest => entryToValue entry :: entriesToValues rest

def entryToValue : String × Item → String × Value
  | (name, item) => (name, item.toValue)

def elementsToValues : List (List (String × Item)) → List Value
  | [] => []
  | entries :: rest => .table (entriesToValues entries) :: elementsToValues rest
end

/-- The table with the given entries. -/
def Entries.toValue (entries : Entries) : Value :=
  .table (entriesToValues entries)

end RobotDescription.Toml
