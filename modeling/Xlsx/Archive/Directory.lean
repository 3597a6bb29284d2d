import Xlsx.Text.CodePage
import Xlsx.Text.Utf8

/-! # The directory of an archive

An archive ends with a record that says where its directory is and how many entries it lists; large
archives have a second, wider record in front of it. What stands before the archive in a file shifts
all places in it. Each directory entry gives a name, the size before and after compression, the
method, and the place of the entry's own header, which is read for the place of the data alone. -/

namespace Xlsx.Archive

/-- The number written by `n` octets from `position` on, the lowest first. -/
def number? (data : ByteArray) (position : Nat) : Nat → Option Nat
  | 0 => some 0
  | n + 1 => do
    let low ← data[position]?
    let high ← number? data (position + 1) n
    return low.toNat + 256 * high

/-- Octets from `position` on, if there are as many as asked for. -/
def octets? (data : ByteArray) (position length : Nat) : Option (List UInt8) :=
  if position + length ≤ data.size then some (data.extract position (position + length)).toList
  else none

/-- The first octets of a header of an entry. -/
def localSignature : Nat := 0x04034B50

/-- The first octets of an entry in the directory. -/
def entrySignature : Nat := 0x02014B50

/-- The first octets of the end record. -/
def endSignature : Nat := 0x06054B50

/-- The first octets of the wide end record. -/
def wideEndSignature : Nat := 0x06064B50

/-- The first octets of what points to the wide end record. -/
def locatorSignature : Nat := 0x07064B50

/-- How many octets the end record has without its comment. -/
def endSize : Nat := 22

/-- The record at the end of an archive. -/
structure EndRecord where
  position : Nat
  disk : Nat
  directoryDisk : Nat
  entriesHere : Nat
  entries : Nat
  directorySize : Nat
  directoryOffset : Nat
  commentLength : Nat

/-- The place of the last end record that starts at `start` or at most `n` octets before. -/
def lastEnd? (data : ByteArray) (start : Nat) : Nat → Option Nat
  | 0 => none
  | n + 1 =>
    if number? data start 4 = some endSignature then some start
    else if start = 0 then none
    else lastEnd? data (start - 1) n

/-- The end record at a place, with its whole comment. -/
def endRecordAt? (data : ByteArray) (p : Nat) : Option EndRecord := do
  let disk ← number? data (p + 4) 2
  let directoryDisk ← number? data (p + 6) 2
  let entriesHere ← number? data (p + 8) 2
  let entries ← number? data (p + 10) 2
  let directorySize ← number? data (p + 12) 4
  let directoryOffset ← number? data (p + 16) 4
  let commentLength ← number? data (p + 20) 2
  if data.size < p + endSize + commentLength then none
  else
    return { position := p, disk, directoryDisk, entriesHere, entries, directorySize, directoryOffset,
             commentLength }

/-- The end record of an archive. -/
def endRecord? (data : ByteArray) : Option EndRecord := do
  if data.size < endSize then none
  else endRecordAt? data (← lastEnd? data (data.size - endSize) 65536)

/-- Some number of the end record does not fit and stands in the wide one. -/
def EndRecord.isOverfull (e : EndRecord) : Bool :=
  e.disk == 0xFFFF || e.directoryDisk == 0xFFFF || e.entriesHere == 0xFFFF || e.entries == 0xFFFF ||
    e.directorySize == 0xFFFFFFFF || e.directoryOffset == 0xFFFFFFFF

/-- Where the directory of an archive is. -/
structure Layout where
  /-- How many octets stand before the archive. -/
  shift : Nat
  /-- The place of the first entry of the directory. -/
  start : Nat
  count : Nat

/-- Numbers of this size do not fit into sixty-four bits. -/
def wideLimit : Nat := Nat.pow 2 64

/-- The place of the wide end record at `start` or up to `n` octets after it. -/
def wideEnd? (data : ByteArray) (start : Nat) : Nat → Option Nat
  | 0 => none
  | n + 1 => do
    if (← number? data start 4) = wideEndSignature then some start else wideEnd? data (start + 1) n

/-- The place of the locator of the wide end record, if the archive has one. -/
def locator? (data : ByteArray) (e : EndRecord) : Option Nat :=
  let back := 20 + endSize + e.commentLength
  if data.size < back then none
  else
    let p := data.size - back
    if number? data p 4 = some locatorSignature then some p else none

/-- The layout that the wide end record gives. -/
def wideLayout? (data : ByteArray) (e : EndRecord) (locator : Nat) : Option Layout := do
  let directoryDisk ← number? data (locator + 4) 4
  let nominal ← number? data (locator + 8) 8
  let _ ← number? data (locator + 16) 4
  if !e.isOverfull && e.disk ≠ directoryDisk then none
  -- The wide record and its locator stand before the end record and need room there.
  else if e.position < 60 then none
  else
    let p ← wideEnd? data nominal (e.position - 60 + 1 - nominal)
    let disk ← number? data (p + 16) 4
    let directoryDisk ← number? data (p + 20) 4
    let count ← number? data (p + 32) 8
    let _ ← number? data (p + 40) 8
    let offset ← number? data (p + 48) 8
    let shift := p - nominal
    if disk ≠ directoryDisk ∨ wideLimit ≤ offset + shift then none
    else return ⟨shift, offset + shift, count⟩

/-- The layout of an archive. -/
def layout? (data : ByteArray) : Option Layout := do
  let e ← endRecord? data
  if !e.isOverfull && e.disk ≠ e.directoryDisk then none
  else
    match locator? data e with
    | some locator => wideLayout? data e locator
    | none =>
      if e.position < e.directorySize + e.directoryOffset then none
      else
        let shift := e.position - e.directorySize - e.directoryOffset
        return ⟨shift, e.directoryOffset + shift, e.entriesHere⟩

/-- An entry as the directory lists it. -/
structure DirectoryEntry where
  name : String
  isEncrypted : Bool
  method : Nat
  compressedSize : Nat
  size : Nat
  /-- The place of the entry's own header. -/
  header : Nat
  hasStrongEncryption : Bool := false

/-- A field that is full is replaced by the next eight octets. The second part is the place after
them; none when they are cut. -/
def widen (data : ByteArray) (value position : Nat) : Option (Nat × Nat) :=
  if value = 0xFFFFFFFF then (number? data position 8).map fun n => (n, position + 8)
  else some (value, position)

/-- The wide sizes in an extra field, as far as they are there. -/
def applyWide (data : ByteArray) (position : Nat) (e : DirectoryEntry) : DirectoryEntry × Option Nat :=
  match widen data e.size position with
  | none => (e, none)
  | some (size, p) =>
    let e := { e with size }
    match widen data e.compressedSize p with
    | none => (e, none)
    | some (compressedSize, p) =>
      let e := { e with compressedSize }
      match widen data e.header p with
      | none => (e, none)
      | some (header, p) => ({ e with header }, some p)

/-- The method behind strong encryption, from the seven octets of its extra field; none when they
make no sense, and no change when they are cut. -/
def applyEncryption (data : ByteArray) (position length : Nat) (e : DirectoryEntry) :
    Option (DirectoryEntry × Option Nat) :=
  if length ≠ 7 then none
  else
    let fields : Option (Nat × Nat × Nat × Nat) := do
      let version ← number? data position 2
      let vendor ← number? data (position + 2) 2
      let strength ← number? data (position + 4) 1
      let method ← number? data (position + 5) 2
      return (version, vendor, strength, method)
    match fields with
    | none => some (e, none)
    | some (version, vendor, strength, method) =>
      if vendor ≠ 0x4541 ∨ (version ≠ 1 ∧ version ≠ 2) ∨ (strength = 0 ∨ 3 < strength) then none
      else some ({ e with method, hasStrongEncryption := true }, some (position + 7))

/-- The extra fields from `position` on. Reading stops at a field that is cut. -/
def applyExtra (data : ByteArray) : Nat → Nat → DirectoryEntry → Option DirectoryEntry
  | 0, _, e => some e
  | fuel + 1, position, e =>
    if data.size ≤ position then some e
    else
      match number? data position 2, number? data (position + 2) 2 with
      | some kind, some length =>
        let body := position + 4
        if kind = 0x0001 then
          match applyWide data body e with
          -- A field is at least as long as what was taken from it.
          | (e, some p) => applyExtra data fuel (max p (body + length)) e
          | (e, none) => some e
        else if kind = 0x9901 then
          match applyEncryption data body length e with
          | some (e, some p) => applyExtra data fuel (p + length) e
          | some (e, none) => some e
          | none => none
        else applyExtra data fuel (body + length) e
      | _, _ => some e

/-- The method number that announces strong encryption. -/
def strongEncryption : Nat := 99

/-- The directory entry at a place, with the place of the next one. -/
def entryAt? (data : ByteArray) (shift p : Nat) : Option (DirectoryEntry × Nat) := do
  if (← number? data p 4) ≠ entrySignature then none
  else
    let flags ← number? data (p + 8) 2
    let method ← number? data (p + 10) 2
    let compressedSize ← number? data (p + 20) 4
    let size ← number? data (p + 24) 4
    let nameLength ← number? data (p + 28) 2
    let extraLength ← number? data (p + 30) 2
    let commentLength ← number? data (p + 32) 2
    let header ← number? data (p + 42) 4
    let nameOctets ← octets? data (p + 46) nameLength
    let extra ← octets? data (p + 46 + nameLength) extraLength
    let _ ← octets? data (p + 46 + nameLength + extraLength) commentLength
    -- Bit 11 of the flags says that the name is written in UTF-8.
    let name := if flags / Nat.pow 2 11 % 2 = 1 then Text.utf8Lossy nameOctets else Text.ofCodePage nameOctets
    let e ← applyExtra ⟨extra.toArray⟩ (extraLength + 1) 0
      { name, isEncrypted := flags % 2 == 1, method, compressedSize, size, header }
    if e.method = strongEncryption ∧ !e.hasStrongEncryption then none
    else if wideLimit ≤ e.header + shift then none
    else return ({ e with header := e.header + shift },
                 p + 46 + nameLength + extraLength + commentLength)

/-- The directory entries from a place on, as many as asked for, behind those in `done`, the last
first. -/
def entriesFrom? (data : ByteArray) (shift : Nat) :
    Nat → Nat → List DirectoryEntry → Option (List DirectoryEntry)
  | 0, _, done => some done.reverse
  | n + 1, p, done =>
    match entryAt? data shift p with
    | some (e, next) => entriesFrom? data shift n next (e :: done)
    | none => none

/-- The directory of an archive. -/
def directory? (data : ByteArray) : Option (List DirectoryEntry) := do
  let layout ← layout? data
  entriesFrom? data layout.shift layout.count layout.start []

/-- The place of an entry's data, behind the header at `p`. -/
def dataStart? (data : ByteArray) (p : Nat) : Option Nat := do
  if (← number? data p 4) ≠ localSignature then none
  else
    let nameLength ← number? data (p + 26) 2
    let extraLength ← number? data (p + 28) 2
    return p + 30 + nameLength + extraLength

end Xlsx.Archive
