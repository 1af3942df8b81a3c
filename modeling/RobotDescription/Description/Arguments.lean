import RobotDescription.Config.Basic

/-!
# Macro arguments

The arguments of a macro call, in the order in which they are written. A name stands at the place
where it was first given, and setting it again changes only its value.
-/

namespace RobotDescription

/-- Named arguments in order, no name twice. -/
structure Arguments where
  entries : List (String × String)
  distinct : (entries.map (·.1)).Nodup
deriving DecidableEq

namespace Arguments

/-- No arguments. -/
def empty : Arguments := ⟨[], .nil⟩

/-- Gives a name a value: where the name stands, or at the end. -/
def assign (name value : String) : List (String × String) → List (String × String)
  | [] => [(name, value)]
  | entry :: rest =>
    if entry.1 = name then (name, value) :: rest else entry :: assign name value rest

/-- Giving a value to a name leaves the names as they are, or adds the name at the end. -/
theorem names_assign (name value : String) (entries : List (String × String)) :
    (assign name value entries).map (·.1) =
      if name ∈ entries.map (·.1) then entries.map (·.1) else entries.map (·.1) ++ [name] := by
  induction entries with
  | nil => simp [assign]
  | cons entry rest ih =>
    unfold assign
    split
    case isTrue same => simp [same]
    case isFalse other =>
      have : name ≠ entry.1 := Ne.symm other
      simp only [List.map_cons, ih, List.mem_cons, this, false_or]
      split <;> rfl

/-- Giving a value to a name lets no name stand twice. -/
theorem nodup_assign (name value : String) {entries : List (String × String)}
    (h : (entries.map (·.1)).Nodup) : ((assign name value entries).map (·.1)).Nodup := by
  rw [names_assign]
  split
  case isTrue => exact h
  case isFalse missing =>
    refine List.nodup_append.2 ⟨h, by simp, fun a ha b hb => ?_⟩
    rw [List.mem_singleton.1 hb]
    exact fun same => missing (same ▸ ha)

def set (arguments : Arguments) (name value : String) : Arguments :=
  ⟨assign name value arguments.entries, nodup_assign name value arguments.distinct⟩

def setAll (arguments : Arguments) (pairs : List (String × String)) : Arguments :=
  pairs.foldl (fun arguments pair => arguments.set pair.1 pair.2) arguments

/-- The arguments that arise when pairs are set one after the other. -/
def ofList (pairs : List (String × String)) : Arguments :=
  empty.setAll pairs

/-- Sets the text of every configured parameter, in ascending order of the names. -/
def overlay (arguments : Arguments) (parameters : Parameters) : Arguments :=
  arguments.setAll (parameters.entries.map fun entry => (entry.1, entry.2.toText))

def get? (arguments : Arguments) (name : String) : Option String :=
  arguments.entries.lookup name

def names (arguments : Arguments) : List String :=
  arguments.entries.map (·.1)

def size (arguments : Arguments) : Nat :=
  arguments.entries.length

end Arguments

end RobotDescription
