import Xlsx.Cell.Decoder
import Xlsx.Text.Escape
import Xlsx.Workbook.Part

/-! # The table of shared strings

Each item of the part is one string of the table, also an item without text. The text of an item is
that of its `t` elements one after the other, except those that say how the text is pronounced; the
escaped characters in it are decoded once the item is complete. -/

namespace Xlsx.SharedStrings

/-- Reading the part: the strings so far, the last first; the text of the item that is open, if one
is; whether a text element is open; and how many pronunciations are. -/
structure Scan where
  done : List String := []
  item : Option String := none
  inText : Bool := false
  phoneticDepth : Nat := 0

namespace Scan

/-- More text of the item that is open. -/
def addText (s : Scan) (text : String) : Scan := { s with item := s.item.map (· ++ text) }

/-- The start of an element. -/
def enter (s : Scan) (name : String) : Scan :=
  match name with
  | "si" => { s with item := some "" }
  | "rPh" => if s.item.isSome then { s with phoneticDepth := s.phoneticDepth + 1 } else s
  | "t" => if s.item.isSome && s.phoneticDepth == 0 then { s with inText := true } else s
  | _ => s

/-- The end of an element. -/
def leave (s : Scan) (name : String) : Scan :=
  match name with
  | "t" => { s with inText := false }
  | "rPh" => { s with phoneticDepth := s.phoneticDepth - 1 }
  | "si" =>
    match s.item with
    | some text => { s with done := Text.unescape text :: s.done, item := none, phoneticDepth := 0 }
    | none => s
  | _ => s

/-- One more event of the part. -/
def step (s : Scan) (e : Markup.Event) : Except PartFault Scan :=
  match e with
  | .start tag => .ok (s.enter tag.localName)
  | .empty tag => .ok (if tag.localName = "si" then { s with done := "" :: s.done } else s)
  | .finish name => .ok (s.leave (Markup.localPart name))
  | .text content =>
    if s.inText then
      match content with
      | .ok text => .ok (s.addText text)
      | .error cause => .error (.text cause)
    else .ok s
  | .literal content =>
    if s.inText then
      match content with
      | .ok text => .ok (s.addText text)
      | .error _ => .error .notUtf8
    else .ok s
  | .aside => .ok s

end Scan

/-- The table that a part holds. An item that is still open when the part ends is a fault. -/
def ofStream? (s : Markup.Stream) : Except PartFault SharedStrings := do
  let scan ← s.read Scan.step {}
  if scan.item.isSome then throw (.unfinishedString scan.done.length)
  return ⟨scan.done.reverse.toArray⟩

end Xlsx.SharedStrings
