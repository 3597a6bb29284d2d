import Xlsx.Reference.Column

/-! # Selecting sheets and columns

A sheet is selected by its place or its name; a column by its number, its letters, or the name that
a header row gives it. -/

namespace Xlsx

/-- Which sheet is meant. -/
inductive SheetSelector
  | index (i : Nat)
  | name (s : String)
deriving DecidableEq, Repr

instance : Inhabited SheetSelector := ⟨.index 0⟩

/-- A selector as messages show it. -/
def SheetSelector.label : SheetSelector → String
  | .index i => "#" ++ Text.decimal i
  | .name s => "'" ++ s ++ "'"

/-- Which column is meant. -/
inductive ColumnKey
  | index (column : Nat)
  | letter (letters : String)
  | header (name : String)
deriving DecidableEq, Repr

/-- A column key as messages show it. -/
def ColumnKey.label : ColumnKey → String
  | .index column => "column #" ++ Text.decimal column
  | .letter letters => "column " ++ letters
  | .header name => "header '" ++ name ++ "'"

end Xlsx
