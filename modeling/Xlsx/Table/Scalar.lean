import Xlsx.Table.Value

/-! # Scalar functions

Functions on single values: `xl_at` takes the value of a column out of a row, and `xl_version` names
the version of the library. -/

namespace Xlsx

/-- A scalar function. -/
inductive ScalarFunction
  | at
  | version
deriving DecidableEq, Repr

namespace ScalarFunction

/-- The version of the library. -/
def libraryVersion : String := "v0.1.0"

/-- The functions that are registered, by name, each with its number of arguments. -/
def registered : List (String × Nat × ScalarFunction) := [("xl_at", 2, .at), ("xl_version", 0, .version)]

/-- The function that an operator on a row stands for: `->>` takes out a column. -/
def ofOperator? (name : String) (arity : Nat) : Option ScalarFunction :=
  if name = "->>" ∧ arity = 2 then some .at else none

/-- The function of some name: a registered one, or else that of an operator. -/
def find? (name : String) (arity : Nat) : Option ScalarFunction :=
  match registered.lookup name with
  | some (_, f) => some f
  | none => ofOperator? name arity

/-- The column that a value means: by its number or its letters. -/
def columnOf? (v : SqlValue) : Except Error Nat :=
  match v with
  | .integer i =>
    if 0 ≤ i ∧ i < Text.wordSize then .ok i.toNat else .error (.configuration (.badColumnIndex i))
  | .text letters => (Column.index? letters).mapError .reference
  | other => .error (.configuration (.badColumn other.kind))

/-- The value of a column of a row, null where the row has none. -/
def valueAt (args : List SqlValue) : Except Error SqlValue :=
  match args with
  | [.row row, column] => (columnOf? column).map fun column =>
    match row.get? column with
    | some cell => .ofCell cell
    | none => .null
  | [other, _] => .error (.configuration (.notARow other.kind))
  | _ => .error (.configuration (.argumentCount args.length))

/-- The value of a function. -/
def apply (f : ScalarFunction) (args : List SqlValue) : Except Error SqlValue :=
  match f with
  | .at => valueAt args
  | .version => .ok (.text libraryVersion)

end ScalarFunction

end Xlsx
