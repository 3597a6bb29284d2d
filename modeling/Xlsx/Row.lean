import Xlsx.Cell.Basic

/-! # Rows

A row of a sheet. Without a projection the cell at place `c` is the cell of column `c`; with one
there is a cell for each projected column, in ascending order. -/

namespace Xlsx

/-- One row. -/
structure Row where
  index : Nat
  cells : Array Cell
  columns : Option (List Nat) := none
deriving DecidableEq, Inhabited

namespace Row

/-- How many cells a row has. -/
def size (r : Row) : Nat := r.cells.size

/-- A row without cells. -/
def isEmpty (r : Row) : Bool := r.cells.isEmpty

/-- The cell of a column. -/
def get? (r : Row) (column : Nat) : Option Cell :=
  match r.columns with
  | none => r.cells[column]?
  | some columns => (columns.idxOf? column).bind fun i => r.cells[i]?

/-- The cells with their columns, in order. -/
def toList (r : Row) : List (Nat × Cell) :=
  match r.columns with
  | none => (List.range r.cells.size).zip r.cells.toList
  | some columns => columns.zip r.cells.toList

/-- The cells that hold something, with their columns, in order. -/
def filled (r : Row) : List (Nat × Cell) := r.toList.filter fun p => !p.2.isEmpty

/-- A row in JSON, without its columns. -/
def toJson (r : Row) : Json :=
  .object [("index", .natural r.index), ("cells", .array (r.cells.toList.map Cell.toJson))]

end Row

end Xlsx
