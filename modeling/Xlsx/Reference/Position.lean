import Xlsx.Reference.Column
import Xlsx.Text.Blank

/-! # Cell references

A position is a row and a column, both counted from zero. Its reference is the column's name and the
row's number: `B2`. A reference is read in either case, with `$` signs anywhere and white space
around it; inside a sheet a quicker reading of raw octets is used, which passes over `$` signs as
well but allows no white space. Rows and columns are 32-bit numbers, and so must be the number written
for a row, which is the one after it: behind the last number there is no reference. -/

namespace Xlsx

/-- A cell's place in a sheet. -/
structure Position where
  row : Nat
  column : Nat
deriving DecidableEq, Inhabited, Repr

namespace Position

/-- The reference to a position; none where the number of the row does not fit into thirty-two bits. -/
def label? (p : Position) : Option String :=
  (Text.inWord? (p.row + 1)).map fun number => Column.name p.column ++ Text.decimal number

/-- The position that a text refers to. -/
def ofText? (input : String) : Except ReferenceError Position := do
  let trimmed := Text.trimChars input.toList
  if trimmed.isEmpty then throw .empty
  let body := trimmed.filter (· != '$')
  let letters := body.takeWhile Char.isAlpha
  let digits := body.dropWhile Char.isAlpha
  if digits.isEmpty then throw (.syntaxError input .rowAfterColumn)
  if letters.isEmpty then throw (.syntaxError input .column)
  if !digits.all Char.isDigit then throw (.syntaxError input .rowNumber)
  let column ← Column.index? (String.ofList letters)
  match Text.natural? digits with
  | some n =>
    if 1 ≤ n ∧ n ≤ maxRows then return ⟨n - 1, column⟩
    else throw (.outOfBounds input)
  | none => throw (.outOfBounds input)

/-- What the quick reading has seen of a reference: the column and row numbers so far, from one, and
whether a digit was among them. -/
structure Progress where
  column : Nat := 0
  row : Nat := 0
  inRow : Bool := false
deriving DecidableEq, Repr

/-- One octet of a reference. -/
def Progress.step? (p : Progress) (b : UInt8) : Option Progress :=
  let c := Char.ofNat b.toNat
  match if p.inRow then none else Column.letterValue? c with
  | some d =>
    let column := p.column * 26 + d
    if column ≤ maxColumns then some { p with column } else none
  | none =>
    match Text.digit? c with
    | some d =>
      let row := p.row * 10 + d
      if row < Text.wordSize then some { p with row, inRow := true } else none
    | none => if c = '$' then some p else none

/-- All octets of a reference. -/
def Progress.run? : Progress → List UInt8 → Option Progress
  | p, [] => some p
  | p, b :: bs =>
    match p.step? b with
    | some q => q.run? bs
    | none => none

/-- The position that raw octets refer to. The row may lie below the last row of a sheet. -/
def ofOctets? (octets : List UInt8) : Option Position := do
  let p ← Progress.run? {} octets
  if p.column = 0 ∨ p.row = 0 then none else some ⟨p.row - 1, p.column - 1⟩

end Position

end Xlsx
