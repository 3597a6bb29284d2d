import Xlsx.Archive.PrefixCode

/-! # Inflating

Compressed data are blocks of literal octets and references back into what was unpacked before, in a
prefix code or stored as they are. Unpacking pauses where the data that have arrived are used up, or
where the next octet would not fit into the window that is being filled; it can go on from there. It
ends behind the last block, or where the data make no sense. -/

namespace Xlsx.Inflate

/-! ## Symbols -/

/-- The codes of a block: one for literals and lengths, and one for distances. -/
structure Codes where
  literals : Code
  distances : Code

/-- The codes of a block without codes of its own. -/
def fixedCodes : Codes where
  literals := .ofLengths
    (List.replicate 144 8 ++ List.replicate 112 9 ++ List.replicate 24 7 ++ List.replicate 8 8)
  distances := .ofLengths (List.replicate 32 5)

/-- For each length symbol, the least length and how many bits are added to it. -/
def lengthTable : Array (Nat × Nat) :=
  #[(3, 0), (4, 0), (5, 0), (6, 0), (7, 0), (8, 0), (9, 0), (10, 0), (11, 1), (13, 1), (15, 1),
    (17, 1), (19, 2), (23, 2), (27, 2), (31, 2), (35, 3), (43, 3), (51, 3), (59, 3), (67, 4),
    (83, 4), (99, 4), (115, 4), (131, 5), (163, 5), (195, 5), (227, 5), (258, 0)]

/-- For each distance symbol, the least distance and how many bits are added to it. -/
def distanceTable : Array (Nat × Nat) :=
  #[(1, 0), (2, 0), (3, 0), (4, 0), (5, 1), (7, 1), (9, 2), (13, 2), (17, 3), (25, 3), (33, 4),
    (49, 4), (65, 5), (97, 5), (129, 6), (193, 6), (257, 7), (385, 7), (513, 8), (769, 8),
    (1025, 9), (1537, 9), (2049, 10), (3073, 10), (4097, 11), (6145, 11), (8193, 12), (12289, 12),
    (16385, 13), (24577, 13)]

/-- The value of a symbol in a table, with the bits that are added to it. -/
def tableValue (table : Array (Nat × Nat)) (symbol : Nat) (r : BitReader) :
    Except Halt (Nat × BitReader) :=
  match table[symbol]? with
  | some (least, n) => do
    let (more, r) ← r.bits n
    return (least + more, r)
  | none => .error .corrupt

/-- What a coded block says next. -/
inductive Item
  | literal (b : UInt8)
  | copy (distance length : Nat)
  | endOfBlock
deriving DecidableEq, Repr

/-- The next item of a coded block. A length symbol is followed by the bits that are added to it, and
by a distance symbol with its own. -/
def Codes.item (c : Codes) (r : BitReader) : Except Halt (Item × BitReader) := do
  let (symbol, r) ← c.literals.symbol r
  if symbol < 256 then return (.literal (UInt8.ofNat symbol), r)
  else if symbol = 256 then return (.endOfBlock, r)
  else
    let (length, r) ← tableValue lengthTable (symbol - 257) r
    let (d, r) ← c.distances.symbol r
    let (distance, r) ← tableValue distanceTable d r
    return (.copy distance length, r)

/-! ## The codes that a block brings along -/

/-- The order in which the lengths of the codes for code lengths are written. -/
def lengthOrder : List Nat := [16, 17, 18, 0, 8, 7, 9, 6, 10, 5, 11, 4, 12, 3, 13, 2, 14, 1, 15]

/-- `n` numbers of three bits each. -/
def threeBits : Nat → BitReader → Except Halt (List Nat × BitReader)
  | 0, r => .ok ([], r)
  | n + 1, r => do
    let (x, r) ← r.bits 3
    let (xs, r) ← threeBits n r
    return (x :: xs, r)

/-- Code lengths until there are `total`, those so far in `done`, the last first. Three symbols stand
for repetitions. -/
def codeLengths (code : Code) (total : Nat) :
    Nat → List Nat → BitReader → Except Halt (List Nat × BitReader)
  | 0, _, _ => .error .corrupt
  | fuel + 1, done, r =>
    if done.length = total then .ok (done.reverse, r)
    else if total < done.length then .error .corrupt
    else do
      let (symbol, r) ← code.symbol r
      -- The lower symbols are lengths; 16 repeats the last one, 17 and 18 write zeros.
      if symbol < 16 then codeLengths code total fuel (symbol :: done) r
      else if symbol = 16 then
        match done with
        | [] => .error .corrupt
        | last :: _ =>
          let (n, r) ← r.bits 2
          codeLengths code total fuel (List.replicate (n + 3) last ++ done) r
      else
        let (n, r) ← r.bits (if symbol = 17 then 3 else 7)
        let n := n + (if symbol = 17 then 3 else 11)
        codeLengths code total fuel (List.replicate n 0 ++ done) r

/-- The codes that a block brings along: how many there are of each kind, a code for their lengths,
and the lengths. -/
def ownCodes (r : BitReader) : Except Halt (Codes × BitReader) := do
  let (n, r) ← r.bits 5
  let (m, r) ← r.bits 5
  let (k, r) ← r.bits 4
  let literalCount := n + 257
  let distanceCount := m + 1
  if 286 < literalCount ∨ 30 < distanceCount then throw .corrupt
  let (written, r) ← threeBits (k + 4) r
  let lengths := (List.range 19).map fun symbol => (written[lengthOrder.idxOf symbol]?).getD 0
  let code := Code.ofLengths lengths
  if !code.isComplete then throw .corrupt
  let total := literalCount + distanceCount
  let (all, r) ← codeLengths code total (total + 1) [] r
  let codes : Codes := ⟨.ofLengths (all.take literalCount), .ofLengths (all.drop literalCount)⟩
  if !codes.literals.isUsable || !codes.distances.isUsable then throw .corrupt
  return (codes, r)

/-! ## Blocks -/

/-- What comes next: the header of a block, the octets of a stored block, an item of a coded block, an
item of one that is still to be put out, or nothing. -/
inductive Mode
  | header
  | stored (left : Nat)
  | coded (codes : Codes)
  | putting (item : Item) (codes : Codes)
  | complete

/-- How far unpacking has come: what comes next in which data, whether the block is the last one, and
all that was unpacked. -/
structure State where
  reader : BitReader
  mode : Mode := .header
  isLast : Bool := false
  output : ByteArray := .empty

/-- Why unpacking pauses or ends. -/
inductive Pause
  /-- The next octet does not fit into the window. -/
  | full
  /-- The data that have arrived are used up. -/
  | starved
  | corrupt
  /-- The last block is complete. -/
  | complete
deriving DecidableEq, Repr

/-- A reader stops where unpacking pauses. -/
def Halt.pause : Halt → Pause
  | starved => .starved
  | corrupt => .corrupt

/-- What comes behind a block. -/
def afterBlock (isLast : Bool) : Mode := if isLast then .complete else .header

/-- What comes behind the header of a stored block: the number of its octets and the complement. -/
def storedHeader (isLast : Bool) (r : BitReader) : Except Halt (Mode × BitReader) := do
  let (n, r) ← r.align.bits 16
  let (m, r) ← r.bits 16
  -- A number and its complement have every bit set in exactly one of them.
  if n + m ≠ 0xFFFF then throw .corrupt
  return (if n = 0 then afterBlock isLast else .stored n, r)

/-- The header of a block: whether it is the last one, its kind, and what belongs to the kind. -/
def header (r : BitReader) : Except Halt (Bool × Mode × BitReader) := do
  let (last, r) ← r.bit
  let isLast := last == 1
  let (kind, r) ← r.bits 2
  match kind with
  | 0 => (storedHeader isLast r).map fun p => (isLast, p)
  | 1 => return (isLast, .coded fixedCodes, r)
  | 2 => (ownCodes r).map fun p => (isLast, .coded p.1, p.2)
  | _ => throw .corrupt

/-- Octets repeated from `distance` places back; before the first octet there are zeros. -/
def copyBack (distance : Nat) : Nat → ByteArray → ByteArray
  | 0, out => out
  | n + 1, out =>
    let b := if distance ≤ out.size then (out[out.size - distance]?).getD 0 else 0
    copyBack distance n (out.push b)

namespace State

/-- An item put out as far as the window goes, which ends at `limit`, and the pause if none of it
fits. -/
def put (s : State) (limit : Nat) (item : Item) (codes : Codes) : State × Option Pause :=
  match item with
  | .endOfBlock => ({ s with mode := afterBlock s.isLast }, none)
  | .literal b =>
    if limit ≤ s.output.size then (s, some .full)
    else ({ s with mode := .coded codes, output := s.output.push b }, none)
  | .copy distance length =>
    let n := min length (limit - s.output.size)
    if n = 0 then (s, some .full)
    else
      let mode := if n = length then .coded codes else .putting (.copy distance (length - n)) codes
      ({ s with mode, output := copyBack distance n s.output }, none)

/-- Octets of a stored block, of which `left` are to come, put out as far as they have arrived and as
the window goes, and the pause if that is not at all. -/
def putStored (s : State) (limit left : Nat) : State × Option Pause :=
  let start := s.reader.position / 8
  let n := min left (min (limit - s.output.size) (s.reader.stop - start))
  if limit ≤ s.output.size then (s, some .full)
  else if n = 0 then (s, some .starved)
  else
    let octets := s.reader.data.extract start (start + n)
    let reader := { s.reader with position := 8 * (start + n) }
    let mode := if n = left then afterBlock s.isLast else .stored (left - n)
    ({ s with reader, mode, output := s.output ++ octets }, none)

/-- The state after the next piece of work with a window that ends at `limit`, or the pause if there
is none. An item is read even where it does not fit, and put out later. -/
def advance (s : State) (limit : Nat) : State × Option Pause :=
  match s.mode with
  | .header =>
    match header s.reader with
    | .ok (isLast, mode, reader) => ({ s with reader, mode, isLast }, none)
    | .error h => (s, some h.pause)
  | .stored left => s.putStored limit left
  | .coded codes =>
    match codes.item s.reader with
    | .ok (item, reader) => ({ s with reader, mode := .putting item codes }, none)
    | .error h => (s, some h.pause)
  | .putting item codes => s.put limit item codes
  | .complete => (s, some .complete)

/-- The state after all the work that can be done with a window that ends at `limit`, and why no more
can. -/
def run (limit : Nat) : Nat → State → State × Pause
  | 0, s => (s, .corrupt)
  | fuel + 1, s =>
    match s.advance limit with
    | (s, none) => run limit fuel s
    | (s, some pause) => (s, pause)

/-- How many octets a window has. -/
def windowSize : Nat := 32768

/-- Unpacking to the end of the window that is being filled, or to an earlier pause. Every piece of
work takes a bit or puts out an octet, or puts out what a piece before it has read. -/
def fill (s : State) : State × Pause :=
  let limit := (s.output.size / windowSize + 1) * windowSize
  s.run limit (2 * (s.reader.remaining + windowSize) + 2)

end State

end Xlsx.Inflate
