import Xlsx.Text.Digits

/-! # Column names

Columns are named with letters in bijective base twenty-six: `A` to `Z`, `AA` to `ZZ`, and so on.
Reading a name ignores case and stops with an error as soon as the columns of a sheet are exceeded. -/

namespace Xlsx

/-- How many rows a sheet has. -/
def maxRows : Nat := 1048576

/-- How many columns a sheet has; the last one is `XFD`. -/
def maxColumns : Nat := 16384

/-- What a reference should have had at the place where it cannot be read. -/
inductive Expectation
  | onlyLetters
  | rowAfterColumn
  | column
  | rowNumber
  | colon
deriving DecidableEq, Repr

/-- Why a text is no reference. -/
inductive ReferenceError
  | empty
  | syntaxError (input : String) (expected : Expectation)
  | outOfBounds (input : String)
deriving DecidableEq, Repr

/-- The wording of an expectation. -/
def Expectation.message : Expectation → String
  | .onlyLetters => "column names may only contain letters"
  | .rowAfterColumn => "expected a row number after the column name"
  | .column => "expected a column name"
  | .rowNumber => "expected a number for row value"
  | .colon => "expected ':' between the range corners"

/-- The wording of a reference error. -/
def ReferenceError.message : ReferenceError → String
  | .empty => "empty input"
  | .syntaxError input expected => "syntax error in '" ++ input ++ "': " ++ expected.message
  | .outOfBounds input => "reference '" ++ input ++ "' is outside the sheet bounds"

namespace Column

/-- The letter with a given position in the alphabet. -/
def letter (n : Nat) : Char := Char.ofNat ('A'.toNat + n)

/-- The place of a letter in the alphabet, from one, in either case. -/
def letterValue? (c : Char) : Option Nat :=
  if 'A' ≤ c ∧ c ≤ 'Z' then some (c.toNat - 'A'.toNat + 1)
  else if 'a' ≤ c ∧ c ≤ 'z' then some (c.toNat - 'a'.toNat + 1)
  else none

/-- The letters of column `n` in front of `rest`. -/
def nameOnto (n : Nat) (rest : List Char) : List Char :=
  if h : n < 26 then letter n :: rest
  else nameOnto (n / 26 - 1) (letter (n % 26) :: rest)
termination_by n
decreasing_by omega

/-- The letters that name a column. -/
def nameChars (n : Nat) : List Char := nameOnto n []

/-- The name of a column: `A` for the first, `AA` for the twenty-seventh. -/
def name (n : Nat) : String := String.ofList (nameChars n)

/-- The number of the column, from one, whose name goes on with `cs` after letters worth `value`. -/
def valueFrom (input : String) : Nat → List Char → Except ReferenceError Nat
  | value, [] => .ok value
  | value, c :: cs =>
    match letterValue? c with
    | none => .error (.syntaxError input .onlyLetters)
    | some d =>
      if value * 26 + d ≤ maxColumns then valueFrom input (value * 26 + d) cs
      else .error (.outOfBounds input)

/-- The column that a text names. -/
def index? (input : String) : Except ReferenceError Nat :=
  if input.toList.isEmpty then .error .empty
  else (valueFrom input 0 input.toList).map (· - 1)

end Column

end Xlsx
