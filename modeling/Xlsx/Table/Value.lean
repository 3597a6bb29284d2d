import Xlsx.Error
import Xlsx.Row

/-! # Values of queries

What a query gets for a column, or hands over as an argument. -/

namespace Xlsx

/-- A value in a query. -/
inductive SqlValue
  | null
  | integer (i : Int)
  | real (x : Double)
  | text (s : String)
  | blob (data : ByteArray)
  | row (r : Row)
deriving Inhabited

namespace SqlValue

/-- The kind of a value. -/
def kind : SqlValue → ValueKind
  | null => .null
  | integer _ => .integer
  | real _ => .real
  | text _ => .text
  | blob _ => .blob
  | row _ => .row

/-- A truth value as an integer. -/
def ofBool (b : Bool) : SqlValue := .integer (if b then 1 else 0)

/-- The value of a cell: a date is its serial, an error its text. -/
def ofCell : Cell → SqlValue
  | .empty => null
  | .number x => real x
  | .boolean b => ofBool b
  | .text t => text t.content
  | .date serial _ => real serial
  | .error e => text e.display

/-- An empty cell is null. -/
@[simp] theorem ofCell_empty : ofCell .empty = null := rfl

end SqlValue

end Xlsx
