import Xlsx.Archive.Limits
import Xlsx.Error
import Xlsx.Reference.Range
import Xlsx.Selection

/-! # Readers

What is to be read of a workbook: which sheet, from which header row on, which columns and which
range. A reader is such a request that has been found to make sense, whatever the workbook holds;
the sheet alone is looked up only when it is read. -/

namespace Xlsx

/-- What is to be read. -/
structure ReadOptions where
  sheet : SheetSelector := .index 0
  headerRow : Option Nat := none
  columns : Option (List ColumnKey) := none
  dense : Bool := false
  range : Option Range := none
  limits : Limits := {}
deriving DecidableEq, Inhabited, Repr

namespace ReadOptions

/-- The first row that exists is the header, or there is none. -/
def withHeaders (o : ReadOptions) (headers : Bool) : ReadOptions :=
  { o with headerRow := if headers then some 0 else none }

/-- A range runs forward and lies inside the sheet. There is no answer where it does not and there is no
reference to the corner that is to be named. -/
def checkRange (r : Range) : Option (Except ConfigurationError Unit) :=
  if r.last.row < r.first.row then some (.error (.rowsReversed r.first.row r.last.row))
  else if r.last.column < r.first.column then
    some (.error (.columnsReversed r.first.column r.last.column))
  else if maxRows ≤ r.last.row ∨ maxColumns ≤ r.last.column then
    r.last.label?.map fun label => .error (.rangeOutside label)
  else some (.ok ())

/-- A header row lies inside the sheet and not behind the range. -/
def checkHeaderRow (range : Option Range) (row : Nat) : Except ConfigurationError Unit :=
  if maxRows ≤ row then .error (.headerRowOutside row)
  else
    match range with
    | some r => if r.last.row < row then .error (.headerRowAfterRange row r.last.row) else .ok ()
    | none => .ok ()

/-- A column lies inside the sheet, and is selected by name only below a header row. -/
def checkColumn (headerRow : Option Nat) (key : ColumnKey) : Except ConfigurationError Unit :=
  match key with
  | .index column => if maxColumns ≤ column then .error (.columnOutside column) else .ok ()
  | .letter letters =>
    match Column.index? letters with
    | .ok _ => .ok ()
    | .error cause => .error (.badColumnLetter letters cause)
  | .header name => if headerRow.isNone then .error (.columnWithoutHeader name) else .ok ()

/-- Some columns are selected, and each one makes sense. -/
def checkColumns (headerRow : Option Nat) (columns : List ColumnKey) : Except ConfigurationError Unit :=
  if columns.isEmpty then .error .noColumns else columns.forM (checkColumn headerRow)

/-- A request makes sense: its range first, then its header row, then its columns. -/
def check (o : ReadOptions) : Option (Except ConfigurationError Unit) :=
  (o.range.elim (some (.ok ())) checkRange).map fun range => do
    range
    o.headerRow.forM (checkHeaderRow o.range)
    o.columns.forM (checkColumns o.headerRow)

end ReadOptions

/-- A request that makes sense. -/
structure SheetReader where
  options : ReadOptions
  check_options : options.check = some (.ok ())

/-- The reader for a request, or why there is none; no answer where there is none to the check. -/
def ReadOptions.build (o : ReadOptions) : Option (Except ConfigurationError SheetReader) :=
  match h : o.check with
  | some (.ok ()) => some (.ok ⟨o, h⟩)
  | some (.error cause) => some (.error cause)
  | none => none

/-- The same request for another sheet. -/
def SheetReader.onSheet (r : SheetReader) (sheet : SheetSelector) : SheetReader :=
  ⟨{ r.options with sheet }, r.check_options⟩

end Xlsx
