import Xlsx.Sheet.Rows

/-! # Records

A row below a header, whose cells are found by the names of their columns. -/

namespace Xlsx

/-- A row together with the header above it. -/
structure Record where
  header : Header
  row : Row
deriving DecidableEq, Inhabited

namespace Record

/-- The cell in the first column of some name; empty where the row has none. A column that is not
read is unknown. -/
def get (r : Record) (name : String) : Except Error Cell :=
  match r.header.columnOf? name with
  | none => .error (.unknownColumn name)
  | some column =>
    match r.row.columns with
    | none => .ok ((r.row.get? column).getD .empty)
    | some columns =>
      if column ∈ columns then .ok ((r.row.get? column).getD .empty)
      else .error (.unknownColumn name)

/-- The columns of a record: those that are read, or else those with a name and those in which the
row holds something. -/
def columns (r : Record) : List Nat :=
  match r.row.columns with
  | some columns => columns
  | none => (r.header.columns ++ r.row.filled.map Prod.fst).mergeSort.eraseReps

/-- The columns of a record by name, with their cells. -/
def fields (r : Record) : List (String × Cell) :=
  r.columns.map fun column => (r.header.nameOf column, (r.row.get? column).getD .empty)

/-- A record in JSON, by names in order; of fields with the same name the first one counts. -/
def toJson (r : Record) : Json :=
  .object (Json.sortedMembers (r.fields.map fun p => (p.1, p.2.toPlainJson)))

end Record

/-- Rows whose cells are found by name. -/
structure Records where
  rows : Rows
  header : Header

/-- The next record, if there is one, and the records behind it. -/
def Records.next (r : Records) : Except Error (Option Record) × Records :=
  let (row, rows) := r.rows.next
  (row.map fun row => row.map fun row => ⟨r.header, row⟩, { r with rows })

namespace SheetReader

/-- The records that a reader with a header row gives of a workbook. -/
def records (r : SheetReader) (w : Workbook) : Except Error Records := do
  if r.options.headerRow.isNone then throw (.configuration .recordsWithoutHeader)
  let rows ← r.rows w
  match rows.header with
  | some header => return { rows, header }
  | none => throw (.configuration .recordsWithoutHeader)

/-- The rows that a reader gives of a workbook at the start of a source. -/
def read (r : SheetReader) (data : ByteArray) : Except Error Rows := do
  r.rows (← Workbook.ofSource? r.options.limits data)

/-- The records that a reader gives of a workbook at the start of a source. -/
def readRecords (r : SheetReader) (data : ByteArray) : Except Error Records := do
  r.records (← Workbook.ofSource? r.options.limits data)

end SheetReader

end Xlsx
