import Xlsx.Sheet.Cursor
import Xlsx.Sheet.Header
import Xlsx.Sheet.Reader

/-! # Rows below a header

The rows that a reader gives of a workbook. With a header row the first row that exists from there on
is the header, in all columns of the range; only behind it the selection of columns takes effect, and
the header itself is no row of data. -/

namespace Xlsx

/-- The rows of a sheet, behind the header if there is one. Whether all of them have been given, or one
could not be, is not noted apart: the cursor is at its end then, and gives no more. -/
structure Rows where
  cursor : Cursor
  header : Option Header := none

namespace Rows

/-- The next row, if there is one, and the rows behind it. -/
def next (r : Rows) : Except Error (Option Row) × Rows :=
  let (row, cursor) := r.cursor.next
  (row.mapError .stream, { r with cursor })

/-- The rows without a header. -/
def openPlain (w : Workbook) (o : ReadOptions) : Except Error Rows := do
  let columns ← resolveColumns none o.columns
  let cursor ← w.openSheet o.sheet { columns, dense := o.dense, range := o.range }
  return { cursor }

/-- The rows behind a header that starts at `headerRow` or later. -/
def openBelow (w : Workbook) (o : ReadOptions) (headerRow : Nat) : Except Error Rows := do
  -- The header is read in all columns of the range and never with rows filled in before it.
  let cursor ← w.openSheet o.sheet { range := o.range }
  let (row, cursor) := (cursor.startingAt headerRow).next
  let header := match ← row.mapError .stream with
    | some row => Header.ofRow row
    | none => { row := headerRow }
  let columns ← resolveColumns (some header) o.columns
  let cursor := { cursor.withColumns columns with dense := o.dense }
  let firstRow := max ((o.range.map (·.first.row)).getD 0) (Text.successor header.row)
  return { cursor := cursor.startingAt firstRow, header := some header }

end Rows

namespace SheetReader

/-- The rows that a reader gives of a workbook. -/
def rows (r : SheetReader) (w : Workbook) : Except Error Rows :=
  match r.options.headerRow with
  | none => Rows.openPlain w r.options
  | some headerRow => Rows.openBelow w r.options headerRow

/-- What a reader gives of each sheet of a workbook, in order, whatever sheet it asks for. -/
def scanSheets {α : Type} (r : SheetReader) (w : Workbook) (f : Sheet → Rows → Except Error α) :
    List (Except Error α) :=
  w.sheets.map fun sheet => do f sheet (← (r.onSheet (.index sheet.index)).rows w)

/-- How many rows a reader gives of each sheet. -/
def countRows (r : SheetReader) (w : Workbook) : List (Except Error Nat) :=
  r.scanSheets w fun _ rows =>
    let run := rows.cursor.run
    match run.error? with
    | some cause => .error (.stream cause)
    | none => .ok run.rows.length

end SheetReader

end Xlsx
