/-! # Schemas of table functions

A table function gives rows, cells or sheets as records. Its visible columns are what it gives, its
hidden columns are its arguments. -/

namespace Xlsx

/-- A column of a table. A hidden column is an argument, which may be required. -/
structure ColumnDef where
  name : String
  isHidden : Bool := false
  isRequired : Bool := false
deriving DecidableEq, Inhabited, Repr

/-- The columns of a table in order. -/
abbrev Schema := List ColumnDef

namespace Schema

/-- A column that a table gives. -/
def visible (name : String) : ColumnDef := { name }

/-- An argument. -/
def argument (name : String) (isRequired : Bool) : ColumnDef :=
  { name, isHidden := true, isRequired }

/-- The rows of a sheet. -/
def rows : Schema :=
  [visible "row_number", visible "row", argument "workbook" true, argument "sheet" false]

/-- The cells of a range that hold something. -/
def cells : Schema :=
  [visible "row", visible "column", visible "value", argument "workbook" true,
    argument "range" true, argument "sheet" false]

/-- The sheets of a workbook. -/
def sheets : Schema := [visible "name", visible "visible", argument "workbook" true]

/-- A column as it is declared. -/
def declaration (c : ColumnDef) : String := if c.isHidden then c.name ++ " hidden" else c.name

/-- The statement that declares a table. -/
def createSql (s : Schema) : String :=
  "CREATE TABLE x(" ++ String.intercalate ", " (s.map declaration) ++ ")"

/-- The arguments with their places among all columns. -/
def arguments (s : Schema) : List (ColumnDef × Nat) := s.zipIdx.filter fun p => p.1.isHidden

end Schema

end Xlsx
