/-!
# Tables

A registry is a table of rows. A row is found by the identifier in it, or by the number of the
entry that it is for: nothing but the order of the rows ties the two together.
-/

namespace RobotDescription

/-- Rows of a registry with entries of one type. There is a row at the number of every entry. -/
structure Table (ε ρ : Type) where
  rows : List ρ
  entry : ρ → ε
  id : ρ → String
  number : ε → Nat
  number_lt : ∀ entry, number entry < rows.length

namespace Table

variable {ε ρ : Type}

/-- The entries, in the order of the rows. -/
def entries (table : Table ε ρ) : List ε :=
  table.rows.map table.entry

/-- The entry of the first row with an identifier. -/
def lookup? (table : Table ε ρ) (id : String) : Option ε :=
  (table.rows.find? (table.id · = id)).map table.entry

/-- The row at the number of an entry. -/
def row (table : Table ε ρ) (entry : ε) : ρ :=
  have := table.number_lt entry
  table.rows[table.number entry]

end Table

end RobotDescription
