import Xlsx.Cell.Decoder
import Xlsx.Error
import Xlsx.Reference.Position
import Xlsx.Text.Escape

/-! # The cells of a row

A row is read event by event up to its end. A cell without a reference stands behind the one before
it. Only selected cells are kept, and text is collected only where it belongs to one: in its value,
or in its inline text outside of what says how that is pronounced. -/

namespace Xlsx.Sheet

/-- Where the text of a cell goes. -/
inductive Capture
  | value
  | inlineText
deriving DecidableEq, Repr

/-- Reading the cells of a row: the column of a cell that does not state one, the selected cell that
is open, where text goes, whether inline text is open and how many pronunciations are, and the cells
so far, the last first. -/
structure CellScan where
  nextColumn : Nat := 0
  current : Option RawCell := none
  capture : Option Capture := none
  inInline : Bool := false
  phoneticDepth : Nat := 0
  cells : List RawCell := []
deriving DecidableEq, Inhabited, Repr

/-- Text put to a cell. -/
def Capture.put (c : Capture) (text : String) (cell : RawCell) : RawCell :=
  match c with
  | value => { cell with value := some (cell.value.getD "" ++ text) }
  | inlineText => { cell with inlineText := some (cell.inlineText.getD "" ++ text) }

/-- One more attribute of a cell. -/
def addAttribute (cell : RawCell) (a : Markup.Attribute) : Except RowFault RawCell :=
  match a.key with
  | "r" =>
    match Position.ofOctets? a.value with
    | some p => .ok { cell with column := p.column }
    | none => .error (.invalidCellReference (Text.utf8Lossy a.value))
  | "t" => .ok { cell with type := .ofOctets a.value }
  | "s" =>
    .ok { cell with style := ((Text.utf8? a.value).bind fun s => Text.word? s.toList).getD 0 }
  | _ => .ok cell

/-- The cell that a tag opens, in column `column` unless it states another. -/
def cellOfTag? (column : Nat) (tag : Markup.Tag) : Except RowFault RawCell :=
  tag.attributes.foldlM (fun cell a => do addAttribute cell (← a.mapError .attribute)) { column }

/-- A complete cell: the texts that hold a string have their escaped characters decoded. -/
def complete (cell : RawCell) : RawCell :=
  match cell.type with
  | .inlineString =>
    { cell with value := cell.value.map Text.unescape, inlineText := cell.inlineText.map Text.unescape }
  | .formulaString => { cell with value := cell.value.map Text.unescape }
  | _ => cell

namespace CellScan

/-- The start of a cell. -/
def open? (selects : Nat → Bool) (s : CellScan) (tag : Markup.Tag) : Except RowFault CellScan :=
  (cellOfTag? s.nextColumn tag).map fun cell =>
    { s with
      nextColumn := Text.successor cell.column
      current := if selects cell.column then some cell else none }

/-- A cell without content. -/
def openEmpty? (selects : Nat → Bool) (s : CellScan) (tag : Markup.Tag) : Except RowFault CellScan :=
  (cellOfTag? s.nextColumn tag).map fun cell =>
    { s with
      nextColumn := Text.successor cell.column
      cells := if selects cell.column then cell :: s.cells else s.cells }

/-- The start of an element inside a cell. -/
def enter (s : CellScan) (name : String) : CellScan :=
  match name with
  | "v" => if s.current.isSome then { s with capture := some .value } else s
  | "is" =>
    match s.current with
    | some cell => { s with inInline := true, current := some (Capture.inlineText.put "" cell) }
    | none => s
  | "rPh" => if s.inInline then { s with phoneticDepth := s.phoneticDepth + 1 } else s
  | "t" =>
    if s.inInline && s.phoneticDepth == 0 then { s with capture := some .inlineText } else s
  | _ => s

/-- The end of an element. -/
def leave (s : CellScan) (name : String) : CellScan :=
  match name with
  | "v" | "t" => { s with capture := none }
  | "rPh" => { s with phoneticDepth := s.phoneticDepth - 1 }
  | "is" => { s with inInline := false }
  | "c" =>
    { s with
      current := none
      capture := none
      inInline := false
      phoneticDepth := 0
      cells := match s.current with
        | some cell => complete cell :: s.cells
        | none => s.cells }
  | _ => s

/-- Text inside a row; where it belongs to no selected cell it is not looked at. -/
def addText (s : CellScan) (content : Except Markup.TextFault String) : Except RowFault CellScan :=
  match s.current, s.capture with
  | some cell, some capture =>
    match content with
    | .ok text => .ok { s with current := some (capture.put text cell) }
    | .error cause => .error (.text cause)
  | _, _ => .ok s

/-- One more event inside a row. -/
def step (selects : Nat → Bool) (s : CellScan) (e : Markup.Event) : Except RowFault CellScan :=
  match e with
  | .start tag => if tag.localName = "c" then s.open? selects tag else .ok (s.enter tag.localName)
  | .empty tag => if tag.localName = "c" then s.openEmpty? selects tag else .ok s
  | .finish name => .ok (s.leave (Markup.localPart name))
  | .text content => s.addText content
  | .literal content => s.addText content
  | .aside => .ok s

end CellScan

/-- The error when the events of a sheet are over before the sheet is: the data end early, unless the
fault behind the last event is one of what they say. -/
def overAt (fault? : Option Markup.Fault) (row? : Option Nat) : StreamError :=
  match fault? with
  | none => .truncated row?
  | some fault => if fault.isTruncation then .truncated row? else .malformed row? (.markup fault)

/-- Whether an event ends a row. -/
def endsRow : Markup.Event → Bool
  | .finish name => Markup.localPart name == "row"
  | _ => false

/-- The selected cells of row number `row`, the last first, with the events behind the row. -/
def readCells (selects : Nat → Bool) (row : Nat) (fault? : Option Markup.Fault) (s : CellScan) :
    List Markup.Event → Except StreamError (List RawCell × List Markup.Event)
  | [] => .error (overAt fault? (some row))
  | e :: rest =>
    if endsRow e then .ok (s.cells, rest)
    else
      match s.step selects e with
      | .ok s => readCells selects row fault? s rest
      | .error cause => .error (.malformed (some row) cause)

/-- A row that is read uses events up. -/
theorem readCells_length {selects : Nat → Bool} {row : Nat} {fault? : Option Markup.Fault}
    {s : CellScan} {events rest : List Markup.Event} {cells : List RawCell}
    (h : readCells selects row fault? s events = .ok (cells, rest)) :
    rest.length < events.length := by
  induction events generalizing s with
  | nil => simp [readCells] at h
  | cons e events ih =>
    rw [readCells] at h
    split at h
    · simp only [Except.ok.injEq, Prod.mk.injEq] at h
      simp [h.2]
    · split at h
      · have := ih h
        simp only [List.length_cons]
        omega
      · simp at h

end Xlsx.Sheet
