import Xlsx.Proofs.Except
import Xlsx.Proofs.Sheet.CellSelection
import Xlsx.Proofs.Sheet.Truncation

/-! # Where a cell stands

The row and the column of a cell follow from what stands before it: cells and rows that state none
stand behind the last ones.

* **`Place.step`**, **`Place.cell?`**: how the place goes on from event to event, and the row and the
  column of a cell there.
* **`cellPlace?`**: the row and the column of a cell of a sheet.
* **`Place.step_inside`**: in a row the place is that of the reading.
* **`readCells_onTop`**: the cells that were read before have no part in what follows. -/

namespace Xlsx.Sheet

open Markup (Event Tag)

variable {selects : Nat → Bool} {row : Nat} {fault? : Option Markup.Fault}

/-- The tag of a cell, if an event is one. -/
def cellTag? : Event → Option Tag
  | .start tag | .empty tag => if tag.localName = "c" then some tag else none
  | _ => none

/-- A place in a sheet: the number of the next row that does not state one, the number of the row
that is open, and the column of the next cell that does not state one. -/
structure Place where
  nextRow : Nat := 0
  row? : Option Nat := none
  nextColumn : Nat := 0

namespace Place

/-- The place behind one more event. -/
def step (p : Place) (e : Event) : Place :=
  match p.row? with
  | none =>
    match opensRow? e with
    | none => p
    | some (tag, hasContent) =>
      match rowIndex? p.nextRow tag.attributes with
      | .error _ => p
      | .ok index => { nextRow := Text.successor index, row? := if hasContent then some index else none }
  | some _ =>
    if endsRow e then { p with row? := none }
    else
      match cellTag? e with
      | none => p
      | some tag =>
        match cellOfTag? p.nextColumn tag with
        | .error _ => p
        | .ok cell => { p with nextColumn := Text.successor cell.column }

/-- The row and the column of a cell that stands here, if a row is open. -/
def cell? (p : Place) (tag : Tag) : Option (Nat × Nat) :=
  match p.row?, cellOfTag? p.nextColumn tag with
  | some row, .ok cell => some (row, cell.column)
  | _, _ => none

end Place

/-- **The row and the column of a cell** behind some events of a sheet, if it stands in a row. -/
def cellPlace? (before : List Event) (tag : Tag) : Option (Nat × Nat) :=
  ((before.dropWhile fun e => !startsRows e).tail.foldl Place.step {}).cell? tag

/-- Text moves no cell. -/
theorem CellScan.addText_nextColumn {s after : CellScan} {content : Except Markup.TextFault String}
    (h : s.addText content = .ok after) : after.nextColumn = s.nextColumn := by
  unfold addText at h
  split at h
  · cases content with
    | error cause => simp at h
    | ok text => rw [← Except.ok.inj h]
  · rw [← Except.ok.inj h]

section Step

variable {p : Place} {e : Event}

/-- Between two rows, what opens no row is passed over. -/
theorem Place.step_other (hrow : p.row? = none) (hopen : opensRow? e = none) : p.step e = p := by
  rw [step, hrow, hopen]

/-- A row that opens has a number, and the next one follows it. -/
theorem Place.step_row {tag : Tag} {hasContent : Bool} {index : Nat} (hrow : p.row? = none)
    (hopen : opensRow? e = some (tag, hasContent))
    (hindex : rowIndex? p.nextRow tag.attributes = .ok index) :
    p.step e = { nextRow := Text.successor index, row? := if hasContent then some index else none } := by
  rw [step, hrow, hopen]
  simp only [hindex]

/-- Behind the end of a row there is none. -/
theorem Place.step_endsRow (hrow : p.row? = some row) (hend : endsRow e = true) :
    p.step e = { p with row? := none } := by
  rw [step, hrow]
  simp only [if_pos hend]

/-- In a row the place is that of the reading. -/
theorem Place.step_inside {s after : CellScan} (hrow : p.row? = some row)
    (hcolumn : p.nextColumn = s.nextColumn) (hend : endsRow e = false)
    (h : s.step selects e = .ok after) :
    (p.step e).row? = some row ∧ (p.step e).nextRow = p.nextRow ∧
      (p.step e).nextColumn = after.nextColumn := by
  have hother : cellTag? e = none → after.nextColumn = s.nextColumn →
      (p.step e).row? = some row ∧ (p.step e).nextRow = p.nextRow ∧
        (p.step e).nextColumn = after.nextColumn := by
    intro hnone hsame
    have hstep : p.step e = p := by
      rw [step, hrow]
      simp [hend, hnone]
    rw [hstep, hsame]
    exact ⟨hrow, rfl, hcolumn⟩
  have hcell : ∀ tag cell, cellTag? e = some tag → cellOfTag? s.nextColumn tag = .ok cell →
      after.nextColumn = Text.successor cell.column →
      (p.step e).row? = some row ∧ (p.step e).nextRow = p.nextRow ∧
        (p.step e).nextColumn = after.nextColumn := by
    intro tag cell htag hok hnext
    have hstep : p.step e = { p with nextColumn := Text.successor cell.column } := by
      rw [step, hrow]
      simp [hend, htag, hcolumn, hok]
    rw [hstep, hnext]
    exact ⟨hrow, rfl, rfl⟩
  cases e with
  | start tag =>
    by_cases hname : tag.localName = "c"
    · simp only [CellScan.step, hname, if_true] at h
      obtain ⟨cell, hok, rfl⟩ := map_eq_ok.mp h
      exact hcell tag cell (by simp [cellTag?, hname]) hok rfl
    · simp only [CellScan.step, hname, if_false, Except.ok.injEq] at h
      subst h
      exact hother (by simp [cellTag?, hname]) (CellScan.enter_nextColumn _ _)
  | empty tag =>
    by_cases hname : tag.localName = "c"
    · simp only [CellScan.step, hname, if_true] at h
      obtain ⟨cell, hok, rfl⟩ := map_eq_ok.mp h
      exact hcell tag cell (by simp [cellTag?, hname]) hok rfl
    · simp only [CellScan.step, hname, if_false, Except.ok.injEq] at h
      subst h
      exact hother (by simp [cellTag?, hname]) rfl
  | finish name =>
    simp only [CellScan.step, Except.ok.injEq] at h
    subst h
    refine hother rfl ?_
    by_cases hname : Markup.localPart name = "c"
    · rw [hname]
      rfl
    · exact (CellScan.leave_of_ne s hname).2.1
  | text content => exact hother rfl (CellScan.addText_nextColumn h)
  | literal content => exact hother rfl (CellScan.addText_nextColumn h)
  | aside =>
    simp only [CellScan.step, Except.ok.injEq] at h
    subst h
    exact hother rfl rfl

end Step

/-! ## The rest of a row -/

namespace CellScan

/-- A state with more cells before those that it has. -/
def onTop (s : CellScan) (cells : List RawCell) : CellScan := { s with cells := s.cells ++ cells }

/-- Text goes to the open cell, whichever cells were read before. -/
theorem addText_onTop (s : CellScan) (cells : List RawCell)
    (content : Except Markup.TextFault String) :
    (s.onTop cells).addText content = (s.addText content).map fun after => after.onTop cells := by
  obtain ⟨nextColumn, current, capture, inInline, depth, done⟩ := s
  cases current with
  | none => rfl
  | some cell =>
    cases capture with
    | none => rfl
    | some capture => cases content <;> rfl

/-- **No event looks at the cells before.** -/
theorem step_onTop (s : CellScan) (cells : List RawCell) (e : Event) :
    (s.onTop cells).step selects e = (s.step selects e).map fun after => after.onTop cells := by
  cases e with
  | start tag =>
    by_cases hname : tag.localName = "c"
    · simp only [step, hname, if_true, open?]
      have hcolumn : (s.onTop cells).nextColumn = s.nextColumn := rfl
      rw [hcolumn]
      cases cellOfTag? s.nextColumn tag <;> rfl
    · simp only [step, hname, if_false, Except.map, onTop]
      rw [enter_withCells, enter_cells]
  | empty tag =>
    by_cases hname : tag.localName = "c"
    · simp only [step, hname, if_true, openEmpty?]
      have hcolumn : (s.onTop cells).nextColumn = s.nextColumn := rfl
      rw [hcolumn]
      cases cellOfTag? s.nextColumn tag with
      | error cause => rfl
      | ok cell =>
        simp only [Except.map, onTop]
        by_cases hsel : selects cell.column = true
        · rw [if_pos hsel, if_pos hsel, List.cons_append]
        · rw [if_neg hsel, if_neg hsel]
    · simp only [step, hname, if_false]
      rfl
  | finish name =>
    simp only [step, Except.map]
    by_cases hname : Markup.localPart name = "c"
    · rw [hname]
      simp only [onTop, leave]
      cases s.current <;> rfl
    · obtain ⟨-, -, hcells, hwith⟩ := leave_of_ne s hname
      rw [onTop, hwith, onTop, hcells]
  | text content => exact s.addText_onTop cells content
  | literal content => exact s.addText_onTop cells content
  | aside => rfl

end CellScan

/-- The cells before stay where they are while a row is read. -/
theorem readCells_onTop (s : CellScan) (cells : List RawCell) (events : List Event) :
    readCells selects row fault? (s.onTop cells) events =
      (readCells selects row fault? s events).map fun r => (r.1 ++ cells, r.2) := by
  induction events generalizing s with
  | nil => rfl
  | cons e events ih =>
    rw [readCells, readCells]
    by_cases hend : endsRow e = true
    · rw [if_pos hend, if_pos hend]
      rfl
    · rw [if_neg hend, if_neg hend, CellScan.step_onTop]
      cases s.step selects e with
      | error cause => rfl
      | ok after => exact ih after

end Xlsx.Sheet
