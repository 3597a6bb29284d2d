import Xlsx.Decimal.Double
import Xlsx.Text.Digits

/-! # Reading numbers

A number is an optional sign, decimal digits with at most one point among or around them, and an
optional exponent; at least one digit stands before the exponent and one in it. It denotes the
nearest binary64 value, which is infinite when the number is too large. An exponent is read until it
reaches `65536`; digits of it behind that are passed over, so that a number with as many zeros as its
exponent makes up for is read as zero or as infinite. -/

namespace Xlsx.Decimal

/-- A number as written: `digits · 10 ^ exponent`, with `count` digits from the first one that is not
zero. -/
structure Literal where
  negative : Bool
  digits : Nat
  count : Nat
  exponent : Int
deriving DecidableEq

/-- The sign in front of a number, and the rest. -/
def takeSign : List Char → Bool × List Char
  | '-' :: rest => (true, rest)
  | '+' :: rest => (false, rest)
  | cs => (false, cs)

/-- An exponent that has reached this size is read no further. -/
def exponentLimit : Nat := 65536

/-- The size of an exponent with these digits behind `value`: the digits that follow once the limit is
reached are not counted. -/
def exponentFrom (value : Nat) : List Char → Option Nat
  | [] => some value
  | c :: rest =>
    match Text.digit? c with
    | some d => exponentFrom (if value < exponentLimit then value * 10 + d else value) rest
    | none => none

/-- The size of an exponent, which has a digit at least. -/
def exponentSize? (cs : List Char) : Option Nat := if cs.isEmpty then none else exponentFrom 0 cs

/-- The exponent after a mantissa: nothing, or a mark, a sign and digits. -/
def exponent? : List Char → Option Int
  | [] => some 0
  | c :: rest =>
    if c = 'e' ∨ c = 'E' then
      let (negative, digits) := takeSign rest
      (exponentSize? digits).map fun (n : Nat) => if negative then -(n : Int) else (n : Int)
    else none

/-- The number that a text writes. -/
def literal? (cs : List Char) : Option Literal := do
  let (negative, rest) := takeSign cs
  let whole := rest.takeWhile Char.isDigit
  let rest := rest.dropWhile Char.isDigit
  let (fraction, rest) := match rest with
    | '.' :: more => (more.takeWhile Char.isDigit, more.dropWhile Char.isDigit)
    | _ => ([], rest)
  let written := whole ++ fraction
  let digits ← Text.natural? written
  let e ← exponent? rest
  return {
    negative, digits
    count := (written.dropWhile (· == '0')).length
    exponent := e - fraction.length }

/-- No finite value has a decimal point further than this from its digits. -/
def pointLimit : Int := 400

/-- The binary64 value nearest to a written number. Exponents that put it beyond every finite value,
or below the least positive one, are not expanded. -/
def Literal.toDouble (l : Literal) : Double :=
  if l.digits = 0 then Double.ofSignBits l.negative 0
  -- The decimal point stands `exponent + count` places behind the first digit that is not zero.
  else if pointLimit < l.exponent + l.count then Double.ofSignBits l.negative Double.infinityBits
  else if l.exponent + l.count < -pointLimit then Double.ofSignBits l.negative 0
  else if 0 ≤ l.exponent then Double.ofRatio l.negative (l.digits * Nat.pow 10 l.exponent.toNat) 1
  else Double.ofRatio l.negative l.digits (Nat.pow 10 (-l.exponent).toNat)

/-- The finite value that a text writes. -/
def finite? (s : String) : Option Double :=
  ((literal? s.toList).map Literal.toDouble).filter Double.isFinite

end Xlsx.Decimal
