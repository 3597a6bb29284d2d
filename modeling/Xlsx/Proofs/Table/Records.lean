import Xlsx.Proofs.Sheet.CursorRun
import Xlsx.Table.Scan

/-! # All records of a table

A scan stands on one record of a table at a time. This file sums up all moves until the scan is over
or one of them fails.

* **`TableScan.visit`**: the scan on each of its records, one after the other, and the error that
  ended it.
* **`TableScan.records`**: what a query sees on the way, the number and the visible columns of each
  record.
* **`RowsScan.advance_start`**, **`CellsScan.advance_start`**: the records are the rows that a cursor
  gives, or the cells in them that hold something, numbered one after the other. -/

namespace Xlsx

/-! ## Moving on -/

/-- The cells of a row that holds something are some way on in the sheet. -/
theorem Cursor.nextCells_lt {c after : Cursor} {cells : List PlacedCell}
    (h : c.nextCells = (.ok cells, after)) (hcells : cells ≠ []) :
    Prod.Lex (· < ·) (· < ·) (after.distance, after.gap) (c.distance, c.gap) := by
  fun_induction Cursor.nextCells c with
  | case1 c row between hnext hlt hempty ih =>
    have hrest := ih h
    rw [Prod.lex_def] at hrest hlt ⊢
    simp only at hrest hlt ⊢
    omega
  | case2 c row between hnext hlt hempty =>
    simp only [Prod.mk.injEq] at h
    rw [← h.2]
    exact hlt
  | case3 c between hnext =>
    simp only [Prod.mk.injEq, Except.ok.injEq] at h
    exact absurd h.1.symm hcells
  | case4 c cause between hnext => simp at h

/-- What the cells of the next row that holds something say of a run: they come first in it. -/
theorem Cursor.nextCells_run (c : Cursor) :
    match c.nextCells with
    | (.ok [], _) => c.run.rows.flatMap Row.placedCells = [] ∧ c.run.error? = none
    | (.ok cells, after) =>
      c.run.rows.flatMap Row.placedCells = cells ++ after.run.rows.flatMap Row.placedCells ∧
        c.run.error? = after.run.error?
    | (.error cause, _) =>
      c.run.rows.flatMap Row.placedCells = [] ∧ c.run.error? = some cause := by
  fun_induction Cursor.nextCells c with
  | case1 c row after hnext hlt hempty ih =>
    rw [run_of_row hnext]
    have hnone : row.placedCells = [] := List.isEmpty_iff.mp hempty
    simpa [hnone] using ih
  | case2 c row after hnext hlt hempty =>
    rw [run_of_row hnext]
    split
    · rename_i heq
      simp only [Prod.mk.injEq, Except.ok.injEq] at heq
      exact absurd (List.isEmpty_iff.mpr heq.1) hempty
    · rename_i heq
      simp only [Prod.mk.injEq, Except.ok.injEq] at heq
      rw [← heq.1, ← heq.2]
      exact ⟨by simp, rfl⟩
    · rename_i heq
      simp at heq
  | case3 c after hnext =>
    rw [run_of_none hnext]
    exact ⟨rfl, rfl⟩
  | case4 c cause after hnext =>
    rw [run_of_error hnext]
    exact ⟨rfl, rfl⟩

/-- A scan of rows moves as its cursor does. -/
theorem RowsScan.advance_of_ok {s : RowsScan} {current : Option Row} {after : Cursor}
    (h : s.cursor.next = (.ok current, after)) :
    s.advance = (.ok (), ⟨after, current, s.rowid + 1⟩) := by
  rw [advance, h]

/-- A scan of rows fails where its cursor does. -/
theorem RowsScan.advance_of_error {s : RowsScan} {cause : StreamError} {after : Cursor}
    (h : s.cursor.next = (.error cause, after)) :
    s.advance = (.error (.stream cause), { s with cursor := after }) := by
  rw [advance, h]

/-- A scan of cells gives the cells that wait first. -/
theorem CellsScan.advance_of_waiting {s : CellsScan} {cell : PlacedCell} {waiting : List PlacedCell}
    (h : s.waiting = cell :: waiting) :
    s.advance = (.ok (), { s with waiting, current := some cell, rowid := s.rowid + 1 }) := by
  rw [advance, h]

/-- Where no cell waits, a scan of cells goes on to the next row that holds something. -/
theorem CellsScan.advance_of_ok {s : CellsScan} {cells : List PlacedCell} {after : Cursor}
    (hwaiting : s.waiting = []) (h : s.cursor.nextCells = (.ok cells, after)) :
    s.advance = (.ok (), ⟨after, cells.tail, cells.head?, s.rowid + 1⟩) := by
  rw [advance, hwaiting]
  simp only [h]

/-- So does a scan of cells, if none is waiting. -/
theorem CellsScan.advance_of_error {s : CellsScan} {cause : StreamError} {after : Cursor}
    (hwaiting : s.waiting = []) (h : s.cursor.nextCells = (.error cause, after)) :
    s.advance = (.error (.stream cause), { s with cursor := after }) := by
  rw [advance, hwaiting]
  simp only [h]

namespace TableScan

/-- How much a scan has before it: the rows of its cursor and those missing between them, and the
cells that wait. -/
def remaining : TableScan → Nat × Nat × Nat
  | rows s => (s.cursor.distance, s.cursor.gap, 0)
  | cells s => (s.cursor.distance, s.cursor.gap, s.waiting.length)
  | sheets s => (s.sheets.length - s.position, 0, 0)

/-- A scan that moves to a record has less before it. -/
theorem remaining_lt {s after : TableScan} (h : s.advance = (.ok (), after))
    (hover : after.isOver = false) :
    Prod.Lex (· < ·) (Prod.Lex (· < ·) (· < ·)) after.remaining s.remaining := by
  cases s with
  | rows s =>
    rcases hnext : s.cursor.next with ⟨result, cursor⟩
    rcases result with cause | _ | row
    · simp [advance, RowsScan.advance_of_error hnext] at h
    · simp only [advance, RowsScan.advance_of_ok hnext, Prod.mk.injEq, true_and] at h
      rw [← h] at hover
      simp [isOver] at hover
    · simp only [advance, RowsScan.advance_of_ok hnext, Prod.mk.injEq, true_and] at h
      rw [← h]
      have hlt := Cursor.next_lt hnext
      simp only [remaining, Prod.lex_def] at hlt ⊢
      omega
  | cells s =>
    cases hwaiting : s.waiting with
    | cons cell waiting =>
      simp only [advance, CellsScan.advance_of_waiting hwaiting, Prod.mk.injEq, true_and] at h
      rw [← h]
      simp [remaining, hwaiting, Prod.lex_def]
    | nil =>
      rcases hnext : s.cursor.nextCells with ⟨result, cursor⟩
      cases result with
      | error cause => simp [advance, CellsScan.advance_of_error hwaiting hnext] at h
      | ok found =>
        simp only [advance, CellsScan.advance_of_ok hwaiting hnext, Prod.mk.injEq, true_and] at h
        rw [← h] at hover ⊢
        have hfound : found ≠ [] := by
          rintro rfl
          simp [isOver] at hover
        have hlt := Cursor.nextCells_lt hnext hfound
        simp only [remaining, hwaiting, Prod.lex_def] at hlt ⊢
        omega
  | sheets s =>
    simp only [advance, Prod.mk.injEq, true_and] at h
    subst h
    have hposition : ¬ s.sheets.length ≤ s.position + 1 := of_decide_eq_false hover
    refine Prod.Lex.left _ _ ?_
    show s.sheets.length - (s.position + 1) < s.sheets.length - s.position
    omega

/-- A scan that moves on comes nearer to being over. -/
theorem toVisit_lt {s after : TableScan} (hs : ¬ s.isOver = true) (h : s.advance = (.ok (), after)) :
    Prod.Lex (· < ·) (Prod.Lex (· < ·) (Prod.Lex (· < ·) (· < ·)))
      (after.isOver.not.toNat, after.remaining) (s.isOver.not.toNat, s.remaining) := by
  cases hover : after.isOver with
  | true =>
    refine Prod.Lex.left _ _ ?_
    simp [hs]
  | false =>
    rw [Bool.eq_false_iff.mpr hs]
    exact Prod.Lex.right _ (remaining_lt h hover)

/-- A scan on each of its records, and the error that ended it, if one did. -/
structure Visit where
  scans : List TableScan
  error? : Option Error

/-- **All records of a scan**, from the one that it stands on: it moves on until it is over or a move
fails. -/
def visit (s : TableScan) : Visit :=
  if hover : s.isOver then ⟨[], none⟩
  else
    match h : s.advance with
    | (.error cause, _) => ⟨[s], some cause⟩
    | (.ok (), after) =>
      have := toVisit_lt hover h
      let rest := after.visit
      { rest with scans := s :: rest.scans }
termination_by (s.isOver.not.toNat, s.remaining)
decreasing_by exact this

/-- Nothing is visited by a scan that is over. -/
theorem visit_of_isOver {s : TableScan} (h : s.isOver = true) : s.visit = ⟨[], none⟩ := by
  rw [visit, dif_pos h]

/-- A scan that gets further is visited, and then what is behind it. -/
theorem visit_of_ok {s after : TableScan} (hover : ¬ s.isOver = true)
    (h : s.advance = (.ok (), after)) :
    s.visit = ⟨s :: after.visit.scans, after.visit.error?⟩ := by
  rw [visit, dif_neg hover]
  split
  · rename_i h'
    rw [h] at h'
    simp at h'
  · rename_i h'
    rw [h] at h'
    simp only [Prod.mk.injEq, true_and] at h'
    rw [h']

/-- One that fails to get further is visited itself. -/
theorem visit_of_error {s after : TableScan} {cause : Error} (hover : ¬ s.isOver = true)
    (h : s.advance = (.error cause, after)) : s.visit = ⟨[s], some cause⟩ := by
  rw [visit, dif_neg hover]
  split
  · rename_i h'
    rw [h] at h'
    simp only [Prod.mk.injEq, Except.error.injEq] at h'
    rw [h'.1]
  · rename_i h'
    rw [h] at h'
    simp at h'

end TableScan

/-! ## What a query sees -/

/-- What a query sees of a record: its number, and the values in the columns that are shown. -/
structure TableRecord where
  rowid : Int
  values : List SqlValue

/-- Records with the given values, numbered one after the other. -/
def TableRecord.numbered (first : Int) : List (List SqlValue) → List TableRecord
  | [] => []
  | values :: rest => ⟨first, values⟩ :: numbered (first + 1) rest

/-- The record that a scan stands on. -/
def TableScan.record (schema : Schema) (s : TableScan) : TableRecord :=
  ⟨s.rowid, (schema.zipIdx.filter fun p => !p.1.isHidden).map fun p => s.column p.2⟩

/-- All records that a query sees. -/
def TableScan.records (schema : Schema) (s : TableScan) : List TableRecord :=
  s.visit.scans.map (record schema)

/-- A row as a record: its number from one, and the row itself. -/
def Row.recordValues (row : Row) : List SqlValue := [.integer (row.index + 1), .row row]

/-- A cell as a record: the number of its row from one, its column, and its value. -/
def PlacedCell.recordValues (p : PlacedCell) : List SqlValue :=
  [.integer (p.row + 1), .integer p.column, .ofCell p.cell]

/-- A scan of rows that stands on a row. -/
theorem RowsScan.not_isOver (c : Cursor) (row : Row) (rowid : Int) :
    ¬ (TableScan.rows ⟨c, some row, rowid⟩).isOver = true := by
  simp [TableScan.isOver]

/-- **The records of a scan of rows**: the row that it stands on, and those that its cursor gives. -/
theorem RowsScan.records_eq (c : Cursor) (row : Row) (rowid : Int) :
    (TableScan.rows ⟨c, some row, rowid⟩).records .rows =
        TableRecord.numbered rowid ((row :: c.run.rows).map Row.recordValues) ∧
      (TableScan.rows ⟨c, some row, rowid⟩).visit.error? = c.run.error?.map .stream := by
  -- The induction is on what the cursor still gives.
  induction c using Cursor.run_induction generalizing row rowid with
  | row c after next hnext ih =>
    have hmove : (TableScan.rows ⟨c, some row, rowid⟩).advance =
        (.ok (), .rows ⟨after, some next, rowid + 1⟩) := by
      simp only [TableScan.advance, advance_of_ok (s := ⟨c, some row, rowid⟩) hnext]
    obtain ⟨hrecords, herror⟩ := ih next (rowid + 1)
    rw [TableScan.records, TableScan.visit_of_ok (not_isOver c row rowid) hmove,
      Cursor.run_of_row hnext]
    exact ⟨congrArg (_ :: ·) hrecords, herror⟩
  | none c after hnext =>
    have hmove : (TableScan.rows ⟨c, some row, rowid⟩).advance =
        (.ok (), .rows ⟨after, none, rowid + 1⟩) := by
      simp only [TableScan.advance, advance_of_ok (s := ⟨c, some row, rowid⟩) hnext]
    have hover : (TableScan.rows ⟨after, none, rowid + 1⟩).visit = ⟨[], none⟩ :=
      TableScan.visit_of_isOver rfl
    rw [TableScan.records, TableScan.visit_of_ok (not_isOver c row rowid) hmove, hover,
      Cursor.run_of_none hnext]
    exact ⟨rfl, rfl⟩
  | error c after cause hnext =>
    have hmove : (TableScan.rows ⟨c, some row, rowid⟩).advance =
        (.error (.stream cause), .rows ⟨after, some row, rowid⟩) := by
      simp only [TableScan.advance, advance_of_error (s := ⟨c, some row, rowid⟩) hnext]
    rw [TableScan.records, TableScan.visit_of_error (not_isOver c row rowid) hmove,
      Cursor.run_of_error hnext]
    exact ⟨rfl, rfl⟩

/-- A scan of cells that stands on a cell. -/
theorem CellsScan.not_isOver (c : Cursor) (waiting : List PlacedCell) (cell : PlacedCell)
    (rowid : Int) : ¬ (TableScan.cells ⟨c, waiting, some cell, rowid⟩).isOver = true := by
  simp [TableScan.isOver]

/-- **The records of a scan of cells**: the cell that it stands on, those that wait, and those that
hold something in the rows that its cursor gives. -/
theorem CellsScan.records_eq (c : Cursor) (waiting : List PlacedCell) (cell : PlacedCell)
    (rowid : Int) :
    (TableScan.cells ⟨c, waiting, some cell, rowid⟩).records .cells =
        TableRecord.numbered rowid
          ((cell :: waiting ++ c.run.rows.flatMap Row.placedCells).map PlacedCell.recordValues) ∧
      (TableScan.cells ⟨c, waiting, some cell, rowid⟩).visit.error? = c.run.error?.map .stream := by
  -- Each move gives one cell, or goes on in the sheet: the induction is on what the scan still has
  -- before it.
  generalize hs : TableScan.cells ⟨c, waiting, some cell, rowid⟩ = s
  induction s using TableScan.visit.induct generalizing c waiting cell rowid with
  | case1 s hover => exact absurd (hs ▸ hover) (not_isOver c waiting cell rowid)
  | case2 s hover cause after hmove =>
    rw [TableScan.records, TableScan.visit_of_error hover hmove]
    subst hs
    cases waiting with
    | cons next waiting =>
      simp [TableScan.advance, advance_of_waiting (s := ⟨c, next :: waiting, some cell, rowid⟩) rfl]
        at hmove
    | nil =>
      have hrun := c.nextCells_run
      match hnext : c.nextCells with
      | (.ok found, behind) =>
        simp [TableScan.advance, advance_of_ok (s := ⟨c, [], some cell, rowid⟩) rfl hnext] at hmove
      | (.error fault, behind) =>
        simp only [TableScan.advance, advance_of_error (s := ⟨c, [], some cell, rowid⟩) rfl hnext,
          Prod.mk.injEq, Except.error.injEq] at hmove
        rw [hnext] at hrun
        rw [hrun.1, hrun.2, ← hmove.1]
        exact ⟨rfl, rfl⟩
  | case3 s hover after hmove hlt ih =>
    rw [TableScan.records, TableScan.visit_of_ok hover hmove]
    subst hs
    cases waiting with
    | cons next waiting =>
      simp only [TableScan.advance,
        advance_of_waiting (s := ⟨c, next :: waiting, some cell, rowid⟩) rfl, Prod.mk.injEq,
        true_and] at hmove
      obtain ⟨hrecords, herror⟩ := ih c waiting next (rowid + 1) hmove
      exact ⟨congrArg (_ :: ·) hrecords, herror⟩
    | nil =>
      have hrun := c.nextCells_run
      match hnext : c.nextCells with
      | (.error fault, behind) =>
        simp [TableScan.advance, advance_of_error (s := ⟨c, [], some cell, rowid⟩) rfl hnext] at hmove
      | (.ok [], behind) =>
        simp only [TableScan.advance, advance_of_ok (s := ⟨c, [], some cell, rowid⟩) rfl hnext,
          Prod.mk.injEq, true_and] at hmove
        rw [hnext] at hrun
        rw [hrun.1, hrun.2, ← hmove, TableScan.visit_of_isOver rfl]
        exact ⟨rfl, rfl⟩
      | (.ok (next :: found), behind) =>
        simp only [TableScan.advance, advance_of_ok (s := ⟨c, [], some cell, rowid⟩) rfl hnext,
          Prod.mk.injEq, true_and] at hmove
        rw [hnext] at hrun
        obtain ⟨hrecords, herror⟩ := ih behind found next (rowid + 1) hmove
        rw [hrun.1, hrun.2]
        exact ⟨congrArg (_ :: ·) hrecords, herror⟩

/-! ## From the start of a sheet -/

/-- **All records of a scan of rows** that is opened on a cursor: the rows that the cursor gives. It
cannot be opened if the cursor gives an error instead of a row. -/
theorem RowsScan.advance_start (c : Cursor) :
    match (RowsScan.advance { cursor := c }) with
    | (.ok (), scan) =>
      (TableScan.rows scan).records .rows = TableRecord.numbered 0 (c.run.rows.map Row.recordValues) ∧
        (TableScan.rows scan).visit.error? = c.run.error?.map .stream
    | (.error _, _) => c.run.error?.isSome = true := by
  match hnext : c.next with
  | (.ok (some row), after) =>
    rw [advance_of_ok (s := { cursor := c }) hnext, Cursor.run_of_row hnext]
    exact records_eq after row 0
  | (.ok none, after) =>
    have hover : (TableScan.rows ⟨after, none, 0⟩).visit = ⟨[], none⟩ := TableScan.visit_of_isOver rfl
    rw [advance_of_ok (s := { cursor := c }) hnext, Cursor.run_of_none hnext]
    exact ⟨congrArg (·.scans.map (TableScan.record .rows)) hover, congrArg (·.error?) hover⟩
  | (.error cause, after) =>
    rw [advance_of_error (s := { cursor := c }) hnext, Cursor.run_of_error hnext]
    rfl

/-- **All records of a scan of cells** that is opened on a cursor: the cells that hold something in
the rows that the cursor gives. It cannot be opened if an error comes before them. -/
theorem CellsScan.advance_start (c : Cursor) :
    match (CellsScan.advance { cursor := c }) with
    | (.ok (), scan) =>
      (TableScan.cells scan).records .cells =
          TableRecord.numbered 0
            ((c.run.rows.flatMap Row.placedCells).map PlacedCell.recordValues) ∧
        (TableScan.cells scan).visit.error? = c.run.error?.map .stream
    | (.error _, _) => c.run.error?.isSome = true := by
  have hrun := c.nextCells_run
  match hnext : c.nextCells with
  | (.error cause, after) =>
    rw [hnext] at hrun
    rw [advance_of_error (s := { cursor := c }) rfl hnext, hrun.2]
    rfl
  | (.ok [], after) =>
    have hover : (TableScan.cells ⟨after, [], none, 0⟩).visit = ⟨[], none⟩ :=
      TableScan.visit_of_isOver rfl
    rw [hnext] at hrun
    rw [advance_of_ok (s := { cursor := c }) rfl hnext, hrun.1, hrun.2]
    exact ⟨congrArg (·.scans.map (TableScan.record .cells)) hover, congrArg (·.error?) hover⟩
  | (.ok (cell :: waiting), after) =>
    rw [hnext] at hrun
    rw [advance_of_ok (s := { cursor := c }) rfl hnext, hrun.1, hrun.2]
    exact records_eq after waiting cell 0

end Xlsx
