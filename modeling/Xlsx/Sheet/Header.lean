import Xlsx.Row
import Xlsx.Selection
import Xlsx.Error
import Xlsx.Text.Blank

/-! # Headers

A header row names the columns below it: by the text of its cells, or by their letters where a cell
is blank. Of columns with the same name the first one is meant. -/

namespace Xlsx

/-- The row that names the columns, with each column that it names, ascending. -/
structure Header where
  row : Nat
  fields : List (Nat × String) := []
deriving DecidableEq, Inhabited, Repr

namespace Header

/-- What a cell calls its column. -/
def fieldName (column : Nat) (cell : Cell) : String :=
  if Text.isAllBlank cell.display then Column.name column else cell.display

/-- The header that a row is. -/
def ofRow (r : Row) : Header := ⟨r.index, r.toList.map fun p => (p.1, fieldName p.1 p.2)⟩

/-- The columns with a name. -/
def columns (h : Header) : List Nat := h.fields.map Prod.fst

/-- The names, in the order of their columns. -/
def names (h : Header) : List String := h.fields.map Prod.snd

/-- How many columns have a name. -/
def size (h : Header) : Nat := h.fields.length

/-- A header without names. -/
def isEmpty (h : Header) : Bool := h.fields.isEmpty

/-- The first column of some name. -/
def columnOf? (h : Header) (name : String) : Option Nat :=
  (h.fields.find? (·.2 == name)).map Prod.fst

/-- The name of a column; its letters when the header does not name it. -/
def nameOf (h : Header) (column : Nat) : String :=
  (h.fields.lookup column).getD (Column.name column)

/-- A header in JSON. -/
def toJson (h : Header) : Json :=
  .object [("row", .natural h.row), ("columns", .array (h.columns.map .natural)),
    ("names", .array (h.names.map .string))]

end Header

/-- The column that a key means below a header. -/
def ColumnKey.resolve (header : Option Header) (key : ColumnKey) : Except Error Nat :=
  match key with
  | .index column => .ok column
  | .letter letters => (Column.index? letters).mapError .reference
  | .header name =>
    match header.bind fun h => h.columnOf? name with
    | some column => .ok column
    | none => .error (.unknownColumn name)

/-- The columns that keys mean below a header. -/
def resolveColumns (header : Option Header) (keys : Option (List ColumnKey)) :
    Except Error (Option (List Nat)) :=
  keys.mapM fun keys => keys.mapM (ColumnKey.resolve header)

end Xlsx
