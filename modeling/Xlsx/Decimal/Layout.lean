import Xlsx.Decimal.Shortest

/-! # Number texts

The two spellings of a number. A cell is displayed positionally, whatever its size, and a whole
number without a point; of two equally near decimals the upper one is displayed. In JSON the even one is
written, a whole number keeps `.0`, values below `10 ^ -5` or from `10 ^ 16` on have a signed
exponent, and what is not finite is `null`. -/

namespace Xlsx

namespace Decimal

/-- The digits of a decimal. -/
def digitChars (d : Decimal) : List Char := Nat.toDigits 10 d.digits

/-- How many digits stand before the point when a decimal is written positionally; not positive for
a decimal that starts with `0.`. -/
def point (d : Decimal) : Int := d.digitChars.length + d.exponent

/-- Positional notation, a whole number followed by `whole`. -/
def positional (whole : List Char) (d : Decimal) : List Char :=
  let ds := d.digitChars
  if 0 ≤ d.exponent then ds ++ List.replicate d.exponent.toNat '0' ++ whole
  else
    let p := d.point
    if 0 < p then ds.take p.toNat ++ '.' :: ds.drop p.toNat
    else '0' :: '.' :: (List.replicate (-p).toNat '0' ++ ds)

/-- One digit before the point and an exponent with its sign. -/
def scientific (d : Decimal) : List Char :=
  let ds := d.digitChars
  let e := d.point - 1
  let fraction := ds.drop 1
  ds.take 1 ++ (if fraction.isEmpty then [] else '.' :: fraction) ++ 'e' ::
    (if e < 0 then '-' else '+') :: Nat.toDigits 10 e.natAbs

end Decimal

namespace Double

/-- The sign that stands in front of a number; a negative zero keeps it. -/
def signChars (x : Double) : List Char := if x.isNegative then ['-'] else []

/-- The text that displays a number: its shortest digits in positional notation. -/
def display (x : Double) : String :=
  if x.isNaN then "NaN"
  else if !x.isFinite then String.ofList (x.signChars ++ ['i', 'n', 'f'])
  else String.ofList (x.signChars ++ (x.shortest .upper).positional [])

/-- The first power of ten that JSON text writes with an exponent. -/
def jsonPointLimit : Int := 16

/-- The least position of the decimal point that JSON text writes positionally. -/
def jsonPointLeast : Int := -4

/-- The JSON text of a number. -/
def json (x : Double) : String :=
  if !x.isFinite then "null"
  else
    let d := x.shortest .even
    let body :=
      if d.digits = 0 ∨ (jsonPointLeast ≤ d.point ∧ d.point ≤ jsonPointLimit) then
        d.positional ['.', '0']
      else d.scientific
    String.ofList (x.signChars ++ body)

end Double

end Xlsx
