import Xlsx.Cell.Basic
import Xlsx.Decimal.Reading
import Xlsx.Text.Blank
import Xlsx.Text.Utf8

/-! # Decoding cells

A sheet stores a cell as its type, its style and texts. Decoding needs three things of the workbook:
the shared strings, which styles show dates, and the epoch. A value of white space alone leaves the
cell empty, except in the two types that keep their text as it is. -/

namespace Xlsx

/-- The type that a cell declares. -/
inductive CellType
  | number
  | sharedString
  | inlineString
  | formulaString
  | boolean
  | error
  | date
  | unknown (tag : String)
deriving DecidableEq, Inhabited, Repr

/-- The type with a given name; a cell without one, or with an empty one, holds a number. -/
def CellType.ofName (name : String) : CellType :=
  match name with
  | "" => .number
  | "n" => .number
  | "s" => .sharedString
  | "inlineStr" => .inlineString
  | "str" => .formulaString
  | "b" => .boolean
  | "e" => .error
  | "d" => .date
  | tag => .unknown tag

/-- The type that the octets of an attribute name. -/
def CellType.ofOctets (octets : List UInt8) : CellType := .ofName (Text.utf8Lossy octets)

/-- A cell as it is stored. -/
structure RawCell where
  column : Nat
  type : CellType := .number
  style : Nat := 0
  value : Option String := none
  inlineText : Option String := none
deriving DecidableEq, Inhabited, Repr

/-- The shared strings of a workbook, in order. -/
structure SharedStrings where
  items : Array String := #[]
deriving DecidableEq, Inhabited, Repr

/-- For each style of a workbook, whether it shows numbers as dates. -/
structure StyleTable where
  dateStyles : Array Bool := #[]
deriving DecidableEq, Inhabited, Repr

/-- Whether a style shows dates; a style that is not in the table shows none. -/
def StyleTable.isDate (t : StyleTable) (style : Nat) : Bool := t.dateStyles.getD style false

/-- What decoding a cell needs of its workbook. -/
structure Decoder where
  strings : SharedStrings
  styles : StyleTable := {}
  epoch : Epoch
deriving Inhabited

namespace RawCell

/-- The value without white space around it, unless nothing remains. -/
def content? (raw : RawCell) : Option String :=
  (raw.value.map Text.trim).filter fun s => !s.isEmpty

/-- A value that is not blank. -/
theorem content?_of_value {raw : RawCell} {value : String} (hvalue : raw.value = some value)
    (hfilled : (Text.trim value).isEmpty = false) : raw.content? = some (Text.trim value) := by
  rw [content?, hvalue, Option.map_some, Option.filter_some, if_pos (by rw [hfilled]; rfl)]

end RawCell

namespace Decoder

/-- A number, which a date style shows as a date. -/
def decodeNumber (d : Decoder) (style : Nat) (text : String) : Except DecodeError Cell :=
  match Decimal.finite? text with
  | some x => .ok (if d.styles.isDate style then .date x d.epoch else .number x)
  | none => .error (.badNumber text)

/-- A place in the shared table. -/
def decodeShared (d : Decoder) (text : String) : Except DecodeError Cell :=
  match (Text.word? text.toList).bind fun i => d.strings.items[i]?.map fun s => (i, s) with
  | some (i, s) => .ok (.text (.shared i s))
  | none => .error (.badReference text d.strings.items.size)

/-- A truth value. -/
def decodeBoolean (text : String) : Except DecodeError Cell :=
  if text ∈ ["1", "true", "TRUE"] then .ok (.boolean true)
  else if text ∈ ["0", "false", "FALSE"] then .ok (.boolean false)
  else .error (.badBoolean text)

/-- A written date or time. -/
def decodeDate (d : Decoder) (text : String) : Except DecodeError Cell :=
  match d.epoch.serialOfText? text.toList with
  | some serial => .ok (.date serial d.epoch)
  | none => .error (.badDate text)

/-- The cell that is stored, or why it cannot be decoded. -/
def decode (d : Decoder) (raw : RawCell) : Except DecodeError Cell :=
  let filled (f : String → Except DecodeError Cell) : Except DecodeError Cell :=
    match raw.content? with
    | some text => f text
    | none => .ok .empty
  match raw.type with
  | .number => filled (d.decodeNumber raw.style)
  | .sharedString => filled d.decodeShared
  | .inlineString =>
    match raw.inlineText.or raw.value with
    | some text => .ok (.text (.inCell text))
    | none => .ok .empty
  | .formulaString => .ok (.text (.inCell (raw.value.getD "")))
  | .boolean => filled decodeBoolean
  | .error => filled fun text => .ok (.error (.formula (.ofSymbol text)))
  | .date => filled d.decodeDate
  | .unknown tag => .error (.unknownType tag)

/-- The cell that is stored; one that cannot be decoded becomes an error cell. -/
def decodeLossy (d : Decoder) (raw : RawCell) : Cell :=
  match d.decode raw with
  | .ok cell => cell
  | .error cause => .error (.undecodable cause)

end Decoder

end Xlsx
