import Xlsx.Decimal.Double
import Xlsx.Table.Schema

/-! # Plans

A query offers constraints on the columns of a table. A plan says which of them give the arguments
their values: for every argument the first one on its column. A constraint on an argument that is no
usable equality makes the query unplannable, and so does a required argument without any. -/

namespace Xlsx

/-- How a constraint compares a column with its value. -/
inductive Comparison
  | equal
  | other
deriving DecidableEq, Repr

/-- A constraint of a query on a column, given by its place. -/
structure Constraint where
  column : Nat
  comparison : Comparison
  isUsable : Bool
deriving DecidableEq, Repr

/-- Why a query cannot be planned. -/
inductive PlanError
  | missingArgument (name : String)
  | unusableConstraint (name : String)
deriving DecidableEq, Repr

/-- The wording of a plan error. -/
def PlanError.message : PlanError → String
  | .missingArgument name => "missing required argument '" ++ name ++ "'"
  | .unusableConstraint name =>
    "argument '" ++ name ++ "' only supports usable equality constraints"

/-- How a query is answered: which arguments have a value, one bit for each; for each constraint the
place of its value among the values of arguments, counting from one; and what that costs. -/
structure Plan where
  mask : BitVec 32
  places : List (Option Nat)
  cost : Double
  rows : Nat
deriving DecidableEq

namespace Plan

/-- A constraint that can give an argument its value. -/
def isUsableEquality (c : Constraint) : Bool := c.isUsable && c.comparison == .equal

/-- The constraint, by its number, that gives an argument its value. -/
def choose (constraints : List Constraint) (argument : ColumnDef × Nat) :
    Except PlanError (Option Nat) :=
  let own := constraints.zipIdx.filter fun p => p.1.column == argument.2
  if !own.all fun p => isUsableEquality p.1 then .error (.unusableConstraint argument.1.name)
  else
    match own with
    | (_, i) :: _ => .ok (some i)
    | [] => if argument.1.isRequired then .error (.missingArgument argument.1.name) else .ok none

/-- The bits of the arguments that have a value, the first being bit number `i`. -/
def maskFrom (i : Nat) : List (Option Nat) → BitVec 32
  | [] => 0
  | some _ :: rest => BitVec.twoPow 32 i ||| maskFrom (i + 1) rest
  | none :: rest => maskFrom (i + 1) rest

/-- The estimate of rows, and of the cost of reading them, for any query. -/
def estimate : Nat := 100000

/-- The plan of a query. -/
def ofConstraints? (schema : Schema) (constraints : List Constraint) : Except PlanError Plan := do
  let chosen ← schema.arguments.mapM (choose constraints)
  let given := chosen.filterMap id
  return {
    mask := maskFrom 0 chosen
    places := (List.range constraints.length).map fun i => (given.idxOf? i).map (· + 1)
    cost := .ofNat estimate
    rows := estimate }

end Plan

end Xlsx
