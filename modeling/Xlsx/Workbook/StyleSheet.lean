import Xlsx.Cell.Decoder
import Xlsx.Workbook.DateFormat
import Xlsx.Workbook.Part

/-! # The table of styles

The part lists number formats with codes of their own and the styles of cells, each with the number
of its format. A code goes before what the number alone means, wherever in the part it stands. -/

namespace Xlsx.StyleTable

/-- Reading the part: the formats so far, the last first, and whether each shows dates; the format
numbers of the styles so far, the last first; and which of the two lists are open. -/
structure Scan where
  formats : List (Nat × Bool) := []
  styles : List Nat := []
  inFormats : Bool := false
  inStyles : Bool := false

/-- The number that an attribute states. -/
def formatNumber? (a : Markup.Attribute) : Option Nat :=
  (Text.utf8? a.value).bind fun s => Text.word? s.toList

/-- A format as far as its attributes have been read: its number and its code. -/
def formatFrom (id : Option Nat) (code : Option String) :
    List (Except Markup.AttributeFault Markup.Attribute) →
    Except PartFault (Option Nat × Option String)
  | [] => .ok (id, code)
  | .error cause :: _ => .error (.attribute cause)
  | .ok a :: rest =>
    match a.key with
    | "numFmtId" => formatFrom (formatNumber? a) code rest
    | "formatCode" =>
      match a.expanded with
      | .ok value => formatFrom id (some value) rest
      | .error cause => .error (.attributeText cause)
    | _ => formatFrom id code rest

/-- The format number of a style: the first one that its attributes state, or else zero. -/
def styleFormat : List (Except Markup.AttributeFault Markup.Attribute) → Except PartFault Nat
  | [] => .ok 0
  | .error cause :: _ => .error (.attribute cause)
  | .ok a :: rest => if a.key = "numFmtId" then .ok ((formatNumber? a).getD 0) else styleFormat rest

namespace Scan

/-- A format or a style, in the list where it counts. -/
def add (s : Scan) (tag : Markup.Tag) : Except PartFault Scan :=
  match tag.localName with
  | "numFmt" =>
    if s.inFormats then do
      match ← formatFrom none none tag.attributes with
      | (some id, some code) =>
        return { s with formats := (id, DateFormat.isDateCode code.toList) :: s.formats }
      | _ => return s
    else .ok s
  | "xf" =>
    if s.inStyles then (styleFormat tag.attributes).map fun id => { s with styles := id :: s.styles }
    else .ok s
  | _ => .ok s

/-- The start of a list. -/
def enter (s : Scan) (name : String) : Scan :=
  match name with
  | "numFmts" => { s with inFormats := true }
  | "cellXfs" => { s with inStyles := true }
  | _ => s

/-- The end of a list. -/
def leave (s : Scan) (name : String) : Scan :=
  match name with
  | "numFmts" => { s with inFormats := false }
  | "cellXfs" => { s with inStyles := false }
  | _ => s

/-- One more event of the part. -/
def step (s : Scan) (e : Markup.Event) : Except PartFault Scan :=
  match e with
  | .start tag => (s.enter tag.localName).add tag
  | .empty tag => s.add tag
  | .finish name => .ok (s.leave (Markup.localPart name))
  | _ => .ok s

/-- Whether a format shows dates: by the last code given for its number, or else by its number. -/
def isDateFormat (s : Scan) (id : Nat) : Bool := (s.formats.lookup id).getD (DateFormat.isBuiltin id)

end Scan

/-- The table that a part holds. -/
def ofStream? (s : Markup.Stream) : Except PartFault StyleTable := do
  let scan ← s.read Scan.step {}
  return ⟨(scan.styles.reverse.map scan.isDateFormat).toArray⟩

end Xlsx.StyleTable
