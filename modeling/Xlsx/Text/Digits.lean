/-! # Decimal digits

Texts of ASCII digits and the natural numbers they denote, read with and without a bound, and counting
with one. -/

namespace Xlsx.Text

/-- The value of an ASCII decimal digit. -/
def digit? (c : Char) : Option Nat := if c.isDigit then some (c.toNat - '0'.toNat) else none

/-- The value of a hexadecimal digit, in either case. -/
def hexDigit? (c : Char) : Option Nat :=
  if c.isDigit then some (c.toNat - '0'.toNat)
  else if 'a' ≤ c ∧ c ≤ 'f' then some (c.toNat - 'a'.toNat + 10)
  else if 'A' ≤ c ∧ c ≤ 'F' then some (c.toNat - 'A'.toNat + 10)
  else none

/-- The number that `cs` writes after the digits of `value`, or `none` at a character that is no
digit in the given base. -/
def numeralFrom (digit : Char → Option Nat) (base : Nat) : Nat → List Char → Option Nat
  | value, [] => some value
  | value, c :: cs =>
    match digit c with
    | some d => numeralFrom digit base (value * base + d) cs
    | none => none

/-- The number with these digits, the greatest first. The digits are halved so often, and then taken one
by one, so that a long number is put together of numbers of half its length. -/
def ofDigits (base : Nat) : Nat → List Nat → Nat
  | 0, ds => ds.foldl (fun value d => value * base + d) 0
  | halvings + 1, ds =>
    let n := ds.length / 2
    ofDigits base halvings (ds.take n) * Nat.pow base (ds.length - n) +
      ofDigits base halvings (ds.drop n)

/-- How often so many digits are halved until few are left. -/
def halvings (n : Nat) : Nat := Nat.log2 (n / 64)

/-- The number written by a non-empty list of decimal digits. -/
def natural? : List Char → Option Nat
  | [] => none
  | cs => (cs.mapM digit?).map fun ds => ofDigits 10 (halvings ds.length) ds

/-- One more than the largest 32-bit number. -/
def wordSize : Nat := Nat.pow 2 32

/-- A number that is counted in thirty-two bits; none where it does not fit into them. -/
def inWord? (n : Nat) : Option Nat := if n < wordSize then some n else none

/-- The number behind another one on a counter of thirty-two bits, which stays at the last number. -/
def successor (n : Nat) : Nat := min (n + 1) (wordSize - 1)

/-- A 32-bit number: decimal digits after at most one plus sign, with a value below `2 ^ 32`. -/
def word? (cs : List Char) : Option Nat :=
  let digits := match cs with
    | '+' :: rest => rest
    | _ => cs
  (natural? digits).filter (· < wordSize)

/-- The digits of `n` in base ten. -/
def decimal (n : Nat) : String := String.ofList (Nat.toDigits 10 n)

/-- The digits of an integer in base ten, behind a minus sign when it is negative. -/
def decimalInt : Int → String
  | .ofNat n => decimal n
  | .negSucc n => "-" ++ decimal (n + 1)

/-- The digits of `n` in base ten, at least `width` of them, with zeros in front. -/
def paddedDecimal (width n : Nat) : List Char :=
  let ds := Nat.toDigits 10 n
  List.replicate (width - ds.length) '0' ++ ds

/-- A number below the bound fits into thirty-two bits. -/
theorem inWord?_of_lt {n : Nat} (h : n < wordSize) : inWord? n = some n := if_pos h

/-- And no other one does. -/
theorem inWord?_eq_none {n : Nat} : inWord? n = none ↔ wordSize ≤ n := by simp [inWord?]

/-- In front of the last number a counter counts. -/
theorem successor_of_lt {n : Nat} (h : n + 1 < wordSize) : successor n = n + 1 := by
  rw [successor]
  omega

/-- No text of digits is empty. -/
@[simp] theorem natural?_nil : natural? [] = none := rfl

/-- Without further characters the digits before them decide. -/
@[simp] theorem numeralFrom_nil (digit : Char → Option Nat) (base value : Nat) :
    numeralFrom digit base value [] = some value := rfl

/-- A value in front of digits is shifted by their number. -/
theorem foldl_digits (base value : Nat) (ds : List Nat) :
    ds.foldl (fun v d => v * base + d) value =
      value * Nat.pow base ds.length + ds.foldl (fun v d => v * base + d) 0 := by
  induction ds generalizing value with
  | nil => exact (Nat.mul_one value).symm
  | cons d ds ih =>
    have hpow : Nat.pow base (ds.length + 1) = Nat.pow base ds.length * base := rfl
    rw [List.foldl_cons, List.foldl_cons, ih, ih (0 * base + d), List.length_cons, hpow]
    simp only [Nat.zero_mul, Nat.zero_add, Nat.add_mul, Nat.mul_assoc, Nat.mul_comm base,
      Nat.add_assoc]

/-- It makes no difference how often the digits are halved. -/
theorem ofDigits_eq_foldl (base halvings : Nat) (ds : List Nat) :
    ofDigits base halvings ds = ds.foldl (fun v d => v * base + d) 0 := by
  induction halvings generalizing ds with
  | zero => rfl
  | succ halvings ih =>
    rw [ofDigits, ih, ih, ← List.length_drop, ← foldl_digits, ← List.foldl_append,
      List.take_append_drop]

/-- The value of digits is that of reading one after the other. -/
theorem numeralFrom_eq_foldl (digit : Char → Option Nat) (base value : Nat) (cs : List Char) :
    numeralFrom digit base value cs =
      (cs.mapM digit).map fun ds => ds.foldl (fun v d => v * base + d) value := by
  induction cs generalizing value with
  | nil => rfl
  | cons c cs ih =>
    rw [numeralFrom, List.mapM_cons]
    cases digit c with
    | none => rfl
    | some d =>
      simp only [ih]
      cases cs.mapM digit <;> rfl

/-- A number is what its digits write one after the other. -/
theorem natural?_eq_numeralFrom {cs : List Char} (h : cs ≠ []) :
    natural? cs = numeralFrom digit? 10 0 cs := by
  rw [numeralFrom_eq_foldl]
  cases cs with
  | nil => exact absurd rfl h
  | cons c cs => simp only [natural?, ofDigits_eq_foldl]

end Xlsx.Text
