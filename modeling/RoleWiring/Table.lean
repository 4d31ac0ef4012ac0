/-!
# Tables

Rows of cells under a header. Every column is as wide as its widest cell, a cell
has a space on either side, and a rule separates the header from the rows.
-/

namespace RoleWiring

/-- A table: all rows have as many cells as the header. -/
structure Table (columns : Nat) where
  /-- the titles of the columns -/
  header : Vector String columns
  /-- the rows below the header -/
  rows : List (Vector String columns)

namespace Table

/-- The width of a column. -/
def width (t : Table columns) (column : Fin columns) : Nat :=
  (t.header :: t.rows).foldl (fun w row => max w row[column].length) 0

/-- A cell in its column. -/
def cell (width : Nat) (text : String) : String :=
  " " ++ text ++ String.ofList (List.replicate (width - text.length) ' ') ++ " "

/-- A row as a line. -/
def line (t : Table columns) (row : Vector String columns) : String :=
  "|".intercalate ((List.finRange columns).map fun c => cell (t.width c) row[c])

/-- The rule between the header and the rows. -/
def rule (t : Table columns) : String :=
  "+".intercalate ((List.finRange columns).map fun c =>
    String.ofList (List.replicate (t.width c + 2) '-'))

/-- The lines of the table. -/
def lines (t : Table columns) : List String :=
  t.line t.header :: t.rule :: t.rows.map t.line

/-- The table as a text. -/
def text (t : Table columns) : String :=
  "\n".intercalate t.lines

end Table

end RoleWiring
