/-! # Bits and prefix codes

Compressed octets are read bit by bit, the lowest bit of an octet first, as far as they have arrived.
A canonical prefix code is given by the lengths of the codes: shorter codes come before longer ones,
and those of one length are in the order of their symbols. -/

namespace Xlsx.Inflate

/-- Why reading stops: the octets that have arrived are used up, or what they say makes no sense. -/
inductive Halt
  | starved
  | corrupt
deriving DecidableEq, Repr

/-- Compressed octets, of which those before `stop` have arrived, and the next bit to read. -/
structure BitReader where
  data : ByteArray
  stop : Nat
  position : Nat := 0

namespace BitReader

/-- The next bit. -/
def bit (r : BitReader) : Except Halt (Nat × BitReader) :=
  if r.position / 8 < r.stop then
    match r.data[r.position / 8]? with
    | some b =>
      .ok ((b.toNat >>> (r.position % 8)) % 2, { r with position := r.position + 1 })
    | none => .error .starved
  else .error .starved

/-- The number that the next `n` bits write, the lowest first. -/
def bits (r : BitReader) : Nat → Except Halt (Nat × BitReader)
  | 0 => .ok (0, r)
  | n + 1 => do
    let (low, r) ← r.bit
    let (high, r) ← r.bits n
    return (low + 2 * high, r)

/-- How many octets have been begun. -/
def begun (r : BitReader) : Nat := (r.position + 7) / 8

/-- The reader at the next whole octet. -/
def align (r : BitReader) : BitReader := { r with position := 8 * r.begun }

/-- How many bits have arrived and remain. -/
def remaining (r : BitReader) : Nat := 8 * r.stop - r.position

end BitReader

/-- A canonical prefix code: how many codes there are of each length, and the symbols in the order of
their codes. -/
structure Code where
  counts : Array Nat
  symbols : Array Nat

namespace Code

/-- The longest code, in bits. -/
def maxLength : Nat := 15

/-- The code that gives symbol `i` a code of `lengths[i]` bits, none where that is zero. -/
def ofLengths (lengths : List Nat) : Code where
  counts := (List.range (maxLength + 1)).toArray.map fun n => if n = 0 then 0 else lengths.count n
  symbols := ((List.range (maxLength + 1)).flatMap fun n =>
    if n = 0 then [] else (lengths.zipIdx.filter (·.1 == n)).map (·.2)).toArray

/-- How many codes have `n` bits. -/
def count (c : Code) (n : Nat) : Nat := c.counts.getD n 0

/-- How much of the space of codes is used, in units of the longest one. -/
def used (c : Code) : Nat :=
  (List.range (maxLength + 1)).foldl (fun sum n => sum + c.count n * Nat.pow 2 (maxLength - n)) 0

/-- Every sequence of bits starts with a code. -/
def isComplete (c : Code) : Bool := c.used == Nat.pow 2 maxLength

/-- A code that may be used: a complete one, one without symbols, or one of a single symbol that is
written in one bit. -/
def isUsable (c : Code) : Bool :=
  c.isComplete || c.symbols.isEmpty || (c.symbols.size == 1 && c.count 1 == 1)

/-- The symbol whose code comes next, after `n - 1` bits that wrote `code`, when the codes of `n` bits
start at `first` and their symbols at `index`. -/
def symbolFrom (c : Code) : Nat → Nat → Nat → Nat → Nat → BitReader →
    Except Halt (Nat × BitReader)
  | 0, _, _, _, _, _ => .error .corrupt
  | fuel + 1, n, code, first, index, r => do
    let (b, r) ← r.bit
    let code := 2 * code + b
    -- Codes of one length are consecutive, and behind the last of them start the longer ones.
    let next := first + c.count n
    if code < next then return (c.symbols.getD (index + (code - first)) 0, r)
    else if c.symbols.size ≤ index + c.count n then throw .corrupt
    else c.symbolFrom fuel (n + 1) code (2 * next) (index + c.count n) r

/-- The symbol whose code comes next. Bits that start no code are corrupt as soon as that shows. -/
def symbol (c : Code) (r : BitReader) : Except Halt (Nat × BitReader) :=
  c.symbolFrom maxLength 1 0 0 0 r

end Code

end Xlsx.Inflate
