import Xlsx.Reference.Range
import Xlsx.Table.Schema
import Xlsx.Table.Value
import Xlsx.Workbook

/-! # Arguments of table functions

The values that a plan hands over, by the names of the arguments. -/

namespace Xlsx

/-- The arguments that have a value. -/
structure Arguments where
  values : List (String × SqlValue) := []

namespace Arguments

/-- The arguments of which the mask has a bit, the first being number `i`, each with the next value. -/
def bindFrom (mask : BitVec 32) (i : Nat) :
    List (ColumnDef × Nat) → List SqlValue → Except ConfigurationError (List (String × SqlValue))
  | [], _ => .ok []
  | (column, _) :: rest, values =>
    if mask.getLsbD i then
      match values with
      | [] => .error (.missingArgumentValue column.name)
      | value :: values => do return (column.name, value) :: (← bindFrom mask (i + 1) rest values)
    else bindFrom mask (i + 1) rest values

/-- The arguments of a plan with a given mask, from their values in order. -/
def bind (schema : Schema) (mask : BitVec 32) (values : List SqlValue) :
    Except ConfigurationError Arguments :=
  (bindFrom mask 0 schema.arguments values).map fun values => ⟨values⟩

/-- The value of an argument. -/
def get? (a : Arguments) (name : String) : Option SqlValue := a.values.lookup name

/-- The workbook that the arguments hold, within the usual limits. -/
def workbook (a : Arguments) : Except Error Workbook :=
  match a.get? "workbook" with
  | some (.blob data) => Workbook.ofOctets? {} data
  | some other => .error (.configuration (.workbookNotBlob other.kind))
  | none => .error (.configuration .missingWorkbook)

/-- The sheet that the arguments select, by name or place; the first one when they do not say. -/
def sheet (a : Arguments) : Except Error SheetSelector :=
  match a.get? "sheet" with
  | none | some .null => .ok (.index 0)
  | some (.text name) => .ok (.name name)
  | some (.integer (.ofNat i)) => .ok (.index i)
  | some (.integer i) => .error (.sheetNotFound ("#" ++ Text.decimalInt i))
  | some other => .error (.configuration (.badSheet other.kind))

/-- The range that the arguments give. -/
def range (a : Arguments) : Except Error Range :=
  match a.get? "range" with
  | some (.text text) => (Range.ofText? text).mapError .reference
  | _ => .error (.configuration .rangeNotText)

end Arguments

end Xlsx
