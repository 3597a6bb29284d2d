import Xlsx.Sheet.Cursor
import Xlsx.Table.Arguments

/-! # Scans of tables

A table function opened with its arguments stands on its first record and moves on record by record;
behind the last one it has none, and every column is null. A move that fails leaves everything that
can be seen as it was. -/

namespace Xlsx

/-- A table function. Of rows only some columns may be read. -/
inductive Table
  | rows (columns : Option (List Nat))
  | cells
  | sheets
deriving DecidableEq, Repr

/-- The schema of a table function. -/
def Table.schema : Table → Schema
  | rows _ => .rows
  | cells => .cells
  | sheets => .sheets

/-- A scan of the rows of a sheet. -/
structure RowsScan where
  cursor : Cursor
  current : Option Row := none
  rowid : Int := -1

namespace RowsScan

/-- The scan moved to its next record. -/
def advance (s : RowsScan) : Except Error Unit × RowsScan :=
  match s.cursor.next with
  | (.ok current, cursor) => (.ok (), ⟨cursor, current, s.rowid + 1⟩)
  | (.error cause, cursor) => (.error (.stream cause), { s with cursor })

/-- The value of a column: the row's number from one, and the row itself. -/
def column (s : RowsScan) (i : Nat) : SqlValue :=
  match s.current, i with
  | some row, 0 => .integer (row.index + 1)
  | some row, 1 => .row row
  | _, _ => .null

end RowsScan

/-- A cell with its place. -/
structure PlacedCell where
  row : Nat
  column : Nat
  cell : Cell
deriving DecidableEq, Inhabited

/-- The cells of a row that hold something. -/
def Row.placedCells (r : Row) : List PlacedCell := r.filled.map fun p => ⟨r.index, p.1, p.2⟩

/-- The cells of the next row that holds something, or none at the end, and the cursor behind it. -/
def Cursor.nextCells (c : Cursor) : Except StreamError (List PlacedCell) × Cursor :=
  match h : c.next with
  | (.ok (some row), after) =>
    have := next_lt h
    if row.placedCells.isEmpty then after.nextCells else (.ok row.placedCells, after)
  | (.ok none, after) => (.ok [], after)
  | (.error cause, after) => (.error cause, after)
termination_by (c.distance, c.gap)
decreasing_by exact this

/-- A scan of the cells of a range that hold something. -/
structure CellsScan where
  cursor : Cursor
  waiting : List PlacedCell := []
  current : Option PlacedCell := none
  rowid : Int := -1

namespace CellsScan

/-- The scan moved to its next record. -/
def advance (s : CellsScan) : Except Error Unit × CellsScan :=
  match s.waiting with
  | cell :: waiting => (.ok (), { s with waiting, current := some cell, rowid := s.rowid + 1 })
  | [] =>
    match s.cursor.nextCells with
    | (.ok cells, cursor) => (.ok (), ⟨cursor, cells.tail, cells.head?, s.rowid + 1⟩)
    | (.error cause, cursor) => (.error (.stream cause), { s with cursor })

/-- The value of a column: the row's number from one, the column's from zero, and the cell. -/
def column (s : CellsScan) (i : Nat) : SqlValue :=
  match s.current, i with
  | some p, 0 => .integer (p.row + 1)
  | some p, 1 => .integer p.column
  | some p, 2 => .ofCell p.cell
  | _, _ => .null

end CellsScan

/-- A scan of the sheets of a workbook. -/
structure SheetsScan where
  sheets : List Sheet
  position : Nat := 0

namespace SheetsScan

/-- The scan moved to its next record. -/
def advance (s : SheetsScan) : SheetsScan := { s with position := s.position + 1 }

/-- The value of a column: the sheet's name, and whether it is shown. -/
def column (s : SheetsScan) (i : Nat) : SqlValue :=
  match s.sheets[s.position]?, i with
  | some sheet, 0 => .text sheet.name
  | some sheet, 1 => .ofBool sheet.isVisible
  | _, _ => .null

end SheetsScan

/-- A scan of a table. -/
inductive TableScan
  | rows (s : RowsScan)
  | cells (s : CellsScan)
  | sheets (s : SheetsScan)

namespace TableScan

/-- No record is left. -/
def isOver : TableScan → Bool
  | rows s => s.current.isNone
  | cells s => s.current.isNone
  | sheets s => decide (s.sheets.length ≤ s.position)

/-- The scan moved to its next record. -/
def advance : TableScan → Except Error Unit × TableScan
  | rows s => (s.advance.1, .rows s.advance.2)
  | cells s => (s.advance.1, .cells s.advance.2)
  | sheets s => (.ok (), .sheets s.advance)

/-- The value of a column of the record; hidden columns are null. -/
def column (s : TableScan) (i : Nat) : SqlValue :=
  match s with
  | rows s => s.column i
  | cells s => s.column i
  | sheets s => s.column i

/-- The number of the record, from zero. -/
def rowid : TableScan → Int
  | rows s => s.rowid
  | cells s => s.rowid
  | sheets s => s.position

end TableScan

/-- A scan of a table on its first record. The range of cells is looked at before the workbook. -/
def Table.open (t : Table) (a : Arguments) : Except Error TableScan :=
  match t with
  | .rows columns => do
    let w ← a.workbook
    let cursor ← w.openSheet (← a.sheet) { columns }
    let (result, scan) := RowsScan.advance { cursor }
    result.map fun () => .rows scan
  | .cells => do
    -- Its fault comes before one of the workbook.
    let range ← a.range
    let w ← a.workbook
    let cursor ← w.openSheet (← a.sheet) { range := some range }
    let (result, scan) := CellsScan.advance { cursor }
    result.map fun () => .cells scan
  | .sheets => do
    let w ← a.workbook
    return .sheets { sheets := w.sheets }

end Xlsx
