import Xlsx.Reference.Position

/-! # Ranges

A rectangle of cells between two corners, both included. A range reference `A1:C10` may name either
diagonal; it is read as the rectangle from the upper left to the lower right corner. -/

namespace Xlsx

/-- A rectangle of cells. -/
structure Range where
  first : Position
  last : Position
deriving DecidableEq, Inhabited, Repr

namespace Range

/-- The range of a single cell. -/
def single (p : Position) : Range := ⟨p, p⟩

/-- The smallest range with two given corners. -/
def spanning (a b : Position) : Range :=
  ⟨⟨min a.row b.row, min a.column b.column⟩, ⟨max a.row b.row, max a.column b.column⟩⟩

/-- Whether a position lies in the range. -/
def contains (r : Range) (p : Position) : Bool :=
  decide (r.first.row ≤ p.row) && decide (p.row ≤ r.last.row) &&
    decide (r.first.column ≤ p.column) && decide (p.column ≤ r.last.column)

/-- Whether a column is one of the range's. -/
def hasColumn (r : Range) (column : Nat) : Bool :=
  decide (r.first.column ≤ column) && decide (column ≤ r.last.column)

/-- The columns of the range, ascending. -/
def columns (r : Range) : List Nat := List.range' r.first.column (r.last.column + 1 - r.first.column)

/-- How many numbers lie from `a` to `b`; none where `b` lies before `a`, or where there are too many for
thirty-two bits. -/
def extent? (a b : Nat) : Option Nat := if b < a then none else Text.inWord? (b - a + 1)

/-- How many rows and columns the range has, if both can be counted. -/
def size? (r : Range) : Option (Nat × Nat) := do
  let rows ← extent? r.first.row r.last.row
  let columns ← extent? r.first.column r.last.column
  return (rows, columns)

/-- The reference to a range, if there is one to each of its corners. -/
def label? (r : Range) : Option String := do
  let first ← r.first.label?
  let last ← r.last.label?
  return first ++ ":" ++ last

/-- The range that a text refers to. -/
def ofText? (input : String) : Except ReferenceError Range := do
  let trimmed := Text.trimChars input.toList
  if trimmed.isEmpty then throw .empty
  match trimmed.dropWhile (· != ':') with
  | _ :: second =>
    let a ← Position.ofText? (String.ofList (trimmed.takeWhile (· != ':')))
    let b ← Position.ofText? (String.ofList second)
    return spanning a b
  | [] => throw (.syntaxError input .colon)

end Range

end Xlsx
