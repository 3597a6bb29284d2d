/-! # Binary64 values

A number in a sheet is a binary64 value, held as its 64 bits. A finite value is
`mantissa · 2 ^ scale / 2 ^ 1074` up to its sign, so that all arithmetic on values is arithmetic on
natural numbers over one denominator: reading rounds a quotient, printing looks for a decimal, and
dates split a value into days and the part of a day. -/

namespace Xlsx

/-- A binary64 value, given by its bits. -/
structure Double where
  bits : UInt64
deriving DecidableEq, Inhabited

namespace Double

/-- The sign bit. -/
def isNegative (x : Double) : Bool := decide (Nat.pow 2 63 ≤ x.bits.toNat)

/-- The eleven bits of the exponent. -/
def exponentBits (x : Double) : Nat := x.bits.toNat / Nat.pow 2 52 % Nat.pow 2 11

/-- The fifty-two bits of the fraction. -/
def fractionBits (x : Double) : Nat := x.bits.toNat % Nat.pow 2 52

/-- Neither infinite nor a NaN. -/
def isFinite (x : Double) : Bool := x.exponentBits != 2047

/-- Not a number. -/
def isNaN (x : Double) : Bool := x.exponentBits == 2047 && x.fractionBits != 0

/-- The mantissa: the fraction, with the implicit leading bit of a normal value. -/
def mantissa (x : Double) : Nat :=
  if x.exponentBits = 0 then x.fractionBits else Nat.pow 2 52 + x.fractionBits

/-- The power of two that the mantissa is multiplied with, counted from `2 ^ -1074`. -/
def scale (x : Double) : Nat := x.exponentBits - 1

/-- The common denominator of all finite values. -/
def unit : Nat := Nat.pow 2 1074

/-- The numerator of a finite value over `unit`, without its sign. -/
def magnitude (x : Double) : Nat := x.mantissa * Nat.pow 2 x.scale

/-- Positive or negative zero. -/
def isZero (x : Double) : Bool := x.bits.toNat % Nat.pow 2 63 == 0

/-- Equality of numbers: the zeros are equal and a NaN equals nothing. -/
def numEq (x y : Double) : Bool :=
  !x.isNaN && !y.isNaN && (x.bits == y.bits || (x.isZero && y.isZero))

/-- The nearest integer to `num / den`, a tie going to the even one. -/
def roundEven (num den : Nat) : Nat :=
  let q := num / den
  let r := num % den
  if 2 * r < den then q
  else if den < 2 * r then q + 1
  else if q % 2 = 0 then q else q + 1

/-- The nearest integer to `num / den`, a tie going up. -/
def roundUp (num den : Nat) : Nat := (2 * num + den) / (2 * den)

/-- The bits of positive infinity. -/
def infinityBits : Nat := 2047 * Nat.pow 2 52

/-- The bits, without the sign, of the value nearest to `num / den`: the mantissa is the quotient
rounded at the scale that leaves fifty-three bits, and the exponent is stacked on top of it, so that
a mantissa that rounds up to `2 ^ 53` carries into the exponent. -/
def nearestBits (num den : Nat) : Nat :=
  let n := num * unit
  let s := (n / den).log2 - 52
  min (s * Nat.pow 2 52 + roundEven n (den * Nat.pow 2 s)) infinityBits

/-- The value with a given sign whose other bits are `b`. -/
def ofSignBits (negative : Bool) (b : Nat) : Double :=
  ⟨UInt64.ofNat (if negative then Nat.pow 2 63 + b else b)⟩

/-- The value nearest to the quotient `num / den`, a tie going to the even mantissa. -/
def ofRatio (negative : Bool) (num den : Nat) : Double := ofSignBits negative (nearestBits num den)

/-- The value nearest to a natural number. -/
def ofNat (n : Nat) : Double := ofRatio false n 1

/-- Zero. -/
def zero : Double := ⟨0⟩

/-- The whole part of a finite value, without its sign. -/
def wholePart (x : Double) : Nat := x.magnitude / unit

/-- The numerator over `unit` of the part of a finite value after the point. -/
def fractionPart (x : Double) : Nat := x.magnitude % unit

/-- Nothing stands after the point. -/
def isWhole (x : Double) : Bool := x.fractionPart == 0

end Double

end Xlsx
