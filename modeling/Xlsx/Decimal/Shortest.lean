import Xlsx.Decimal.Double

/-! # Shortest decimals

The decimal that identifies a binary64 value with the fewest digits. Every real number between the
midpoints to the two neighbouring values reads back as the value, the midpoints included when its
mantissa is even. On each decimal grid, the coarsest first, the two grid points around the value are
tested; the first grid with a hit wins, and of two hits the nearer one. A value halfway between two
hits goes to the upper one or to the even one, as the notation that is written wants it. -/

namespace Xlsx

/-- The decimal `digits · 10 ^ exponent`. -/
structure Decimal where
  digits : Nat
  exponent : Int
deriving DecidableEq, Inhabited

namespace Decimal

/-- How many decimal digits a natural number has, none for zero. -/
def digitCount (n : Nat) : Nat := if n = 0 then 0 else (Nat.toDigits 10 n).length

/-- Trailing zeros of the digits moved into the exponent, at most `fuel` of them. -/
def stripZeros : Nat → Decimal → Decimal
  | 0, d => d
  | fuel + 1, d =>
    if d.digits ≠ 0 ∧ d.digits % 10 = 0 then stripZeros fuel ⟨d.digits / 10, d.exponent + 1⟩ else d

end Decimal

/-- Which of two equally near decimals is taken. -/
inductive Tie
  | upper
  | even
deriving DecidableEq, Repr

/-- Whether a tie between a grid point and the next one goes to the lower of them. -/
def Tie.takesLower (t : Tie) (below : Nat) : Bool :=
  match t with
  | upper => false
  | even => below % 2 == 0

namespace Double

/-- The reals that read back as a value, over the denominator `4 · unit`. -/
structure Interval where
  value : Nat
  lower : Nat
  upper : Nat
  closed : Bool
deriving DecidableEq

/-- The interval of a finite positive value. Below a power of two the gap is half as wide. -/
def interval (x : Double) : Interval where
  value := 4 * x.mantissa * Nat.pow 2 x.scale
  lower := (if x.fractionBits = 0 ∧ 1 < x.exponentBits then 4 * x.mantissa - 1 else 4 * x.mantissa - 2)
    * Nat.pow 2 x.scale
  upper := (4 * x.mantissa + 2) * Nat.pow 2 x.scale
  closed := x.mantissa % 2 == 0

/-- Whether `c · step` lies in the interval, once its ends are multiplied by `factor`. -/
def Interval.contains (v : Interval) (factor step c : Nat) : Bool :=
  let p := c * step
  let l := v.lower * factor
  let u := v.upper * factor
  decide (l < p ∧ p < u) || (v.closed && (p == l || p == u))

/-- The least `k` with `x < 10 ^ k`, for a finite positive value. -/
def decimalPoint (x : Double) : Int :=
  let n := x.magnitude
  if unit ≤ n then (Decimal.digitCount (n / unit) : Int)
  else 1 - (Decimal.digitCount ((unit + n - 1) / n - 1) : Int)

/-- The grid point at the value that reads back, if there is one, on the grid `10 ^ exponent`. -/
def gridPoint? (tie : Tie) (v : Interval) (exponent : Int) : Option Decimal :=
  -- Everything is multiplied by `factor`, so that negative powers of ten become natural numbers.
  let factor := Nat.pow 10 (-exponent).toNat
  let step := 4 * unit * Nat.pow 10 exponent.toNat
  let value := v.value * factor
  let below := value / step
  let above := below + 1
  match v.contains factor step below, v.contains factor step above with
  | true, true =>
    let midpoint := (below + above) * step
    if 2 * value < midpoint ∨ (2 * value = midpoint ∧ tie.takesLower below) then
      some ⟨below, exponent⟩
    else some ⟨above, exponent⟩
  | true, false => some ⟨below, exponent⟩
  | false, true => some ⟨above, exponent⟩
  | false, false => none

/-- The exact decimal expansion of a finite value. -/
def exactDecimal (x : Double) : Decimal := ⟨x.magnitude * Nat.pow 5 1074, -1074⟩

/-- The decimal with the fewest digits that reads back as a finite value, without its sign. No value
needs more than seventeen digits. -/
def shortest (x : Double) (tie : Tie) : Decimal :=
  if x.mantissa = 0 then ⟨0, 0⟩
  else
    let v := x.interval
    let k := x.decimalPoint
    -- The grid of `n + 1` digits has the exponent `k - (n + 1)`, since the value is below `10 ^ k`.
    let found := (List.range 17).findSome? fun n => gridPoint? tie v (k - (n + 1 : Nat))
    Decimal.stripZeros 20 (found.getD x.exactDecimal)

end Double

end Xlsx
