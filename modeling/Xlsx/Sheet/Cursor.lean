import Xlsx.Row
import Xlsx.Sheet.RowScan
import Xlsx.Workbook

/-! # Cursors

A cursor gives the rows of a sheet one after the other, decoded. It may be restricted to some columns
and to a range, and a dense cursor also gives the rows that the sheet leaves out in front of a row
that it has. Main statement: a cursor that gives a row comes nearer to its end, so that a run of it
is finite. -/

namespace Xlsx

/-- How a sheet is read. Without columns all of them are read. -/
structure CursorOptions where
  columns : Option (List Nat) := none
  dense : Bool := false
  range : Option Range := none
deriving DecidableEq, Inhabited, Repr

/-- The columns that are wanted within a range, ascending and each once; none when all are. -/
def projectionOf (columns : Option (List Nat)) (range : Option Range) : Option (List Nat) :=
  match columns, range with
  | none, none => none
  | none, some range => some range.columns
  | some columns, none => some columns.mergeSort.eraseReps
  | some columns, some range => some (columns.filter range.hasColumn).mergeSort.eraseReps

/-- A sheet being read: the rows from `firstRow` to `lastRow` are given. Of a dense cursor
`nextDense` is the row that is due, and `pending` a row that waits for the ones before it. -/
structure Cursor where
  sheet : Sheet
  decoder : Decoder
  reading : Sheet.Reading
  dimension : Option Range
  projection : Option (List Nat)
  range : Option Range
  firstRow : Nat
  lastRow : Nat
  dense : Bool
  nextDense : Nat
  pending : Option Row := none
  decodedCells : Nat := 0

namespace Cursor

/-- A cursor at the start of the events of a sheet. -/
def ofStream? (sheet : Sheet) (decoder : Decoder) (options : CursorOptions) (s : Markup.Stream) :
    Except StreamError Cursor := do
  let (reading, dimension) ← Sheet.Reading.ofStream? s
  let firstRow := (options.range.map (·.first.row)).getD 0
  return {
    sheet, decoder, reading, dimension
    projection := projectionOf options.columns options.range
    range := options.range
    firstRow
    lastRow := (options.range.map (·.last.row)).getD (maxRows - 1)
    dense := options.dense
    nextDense := firstRow }

/-- Whether a column is read. -/
def selects (c : Cursor) (column : Nat) : Bool :=
  match c.projection with
  | none => true
  | some columns => columns.contains column

/-- The state of a cursor. One that holds a row back still has it to give. -/
def state (c : Cursor) : Sheet.State := if c.pending.isSome then .streaming else c.reading.state

/-- A row of the sheet in which nothing is stored. -/
def emptyRow (c : Cursor) (index : Nat) : Row :=
  match c.projection with
  | none => ⟨index, #[], none⟩
  | some columns => ⟨index, Array.replicate columns.length .empty, some columns⟩

/-- A row of the sheet, decoded. Of two cells of one column the later one counts. -/
def decodeRow (c : Cursor) (raw : Sheet.RawRow) : Row :=
  match c.projection with
  | none =>
    let width := raw.cells.foldl (fun n cell => max n (cell.column + 1)) 0
    let cells := raw.cells.foldr
      -- The last cell of the row comes first in the list, so a later cell is put over an earlier one.
      (fun cell cells => cells.setIfInBounds cell.column (c.decoder.decodeLossy cell))
      (Array.replicate width .empty)
    ⟨raw.index, cells, none⟩
  | some columns =>
    let cells := raw.cells.foldr
      (fun cell cells =>
        match columns.idxOf? cell.column with
        | some i => cells.setIfInBounds i (c.decoder.decodeLossy cell)
        | none => cells)
      (Array.replicate columns.length .empty)
    ⟨raw.index, cells, some columns⟩

/-- A cursor behind a row that is due or was waited for. A row that is read may lie before what is due,
and then that stays due; one that was waited for does not, so that the next number is due behind it. -/
def passTo (c : Cursor) (row : Row) : Row × Cursor :=
  if c.nextDense < row.index then
    (c.emptyRow c.nextDense, { c with pending := some row, nextDense := c.nextDense + 1 })
  else (row, { c with pending := none, nextDense := max c.nextDense (row.index + 1) })

/-- The next row, if there is one, and the cursor behind it. -/
def next (c : Cursor) : Except StreamError (Option Row) × Cursor :=
  match c.pending with
  | some row =>
    let (row, c) := c.passTo row
    (.ok (some row), c)
  | none =>
    match c.reading.next c.selects c.firstRow c.lastRow with
    | (.error cause, reading) => (.error cause, { c with reading })
    | (.ok none, reading) => (.ok none, { c with reading })
    | (.ok (some raw), reading) =>
      let row := c.decodeRow raw
      let c := { c with reading, decodedCells := c.decodedCells + raw.cells.length }
      if c.dense then
        let (row, c) := c.passTo row
        (.ok (some row), c)
      else (.ok (some row), c)

/-- The cursor with other columns. -/
def withColumns (c : Cursor) (columns : Option (List Nat)) : Cursor :=
  { c with projection := projectionOf columns c.range }

/-- The cursor with another first row. -/
def startingAt (c : Cursor) (row : Nat) : Cursor :=
  { c with firstRow := row, nextDense := row, pending := c.pending.filter fun p => decide (row ≤ p.index) }

/-- The row numbers that are due before the row that is held back. -/
def gap (c : Cursor) : Nat := (c.pending.map (·.index)).getD 0 - c.nextDense

/-- How far a cursor is from its end, the rows before the one that is held back apart. -/
def distance (c : Cursor) : Nat := 2 * c.reading.size + (if c.pending.isSome then 1 else 0)

/-- A row is held back only while rows are missing in front of it. -/
theorem passTo_pending (c : Cursor) (row : Row) :
    (c.passTo row).2.pending = none ∨
      (c.passTo row).2.pending = some row ∧ (c.passTo row).2.gap < row.index - c.nextDense := by
  unfold passTo
  split
  · right
    refine ⟨rfl, ?_⟩
    simp only [gap, Option.map_some, Option.getD_some]
    omega
  · exact Or.inl rfl

/-- Passing to a row reads nothing. -/
@[simp] theorem passTo_reading (c : Cursor) (row : Row) : (c.passTo row).2.reading = c.reading := by
  unfold passTo
  split <;> rfl

/-- A cursor that gives a row comes nearer to its end. -/
theorem next_lt {c after : Cursor} {row : Row} (h : c.next = (.ok (some row), after)) :
    Prod.Lex (· < ·) (· < ·) (after.distance, after.gap) (c.distance, c.gap) := by
  unfold next at h
  split at h
  · rename_i held hheld
    simp only [Prod.mk.injEq] at h
    rw [← h.2]
    rcases passTo_pending c held with hp | ⟨hp, hgap⟩
    · apply Prod.Lex.left
      simp [distance, hp, hheld]
    · have hd : (c.passTo held).2.distance = c.distance := by simp [distance, hp, hheld]
      rw [hd]
      apply Prod.Lex.right
      simpa [gap, hheld] using hgap
  · rename_i hnone
    split at h
    · simp at h
    · simp at h
    · rename_i raw reading hnext
      have hsize := Sheet.Reading.size_next_lt hnext
      apply Prod.Lex.left
      have hc : c.distance = 2 * c.reading.size := by simp [distance, hnone]
      simp only at h
      split at h
      · simp only [Prod.mk.injEq] at h
        rw [hc, ← h.2]
        simp only [distance, passTo_reading]
        split <;> omega
      · simp only [Prod.mk.injEq] at h
        rw [hc, ← h.2]
        simp only [distance, hnone]
        simp
        omega

/-- What a cursor gives until it ends: its rows, the error at the end if there is one, and the cursor
behind it all. -/
structure Run where
  rows : List Row
  error? : Option StreamError
  final : Cursor

/-- A run of a cursor behind the rows in `done`, the last first. -/
def runFrom (done : List Row) (c : Cursor) : Run :=
  match h : c.next with
  | (.ok (some row), after) =>
    have := next_lt h
    runFrom (row :: done) after
  | (.ok none, after) => ⟨done.reverse, none, after⟩
  | (.error cause, after) => ⟨done.reverse, some cause, after⟩
termination_by (c.distance, c.gap)
decreasing_by exact this

/-- All that a cursor gives. -/
def run (c : Cursor) : Run := runFrom [] c

end Cursor

namespace Workbook

/-- A cursor at the start of a sheet. -/
def openSheet (w : Workbook) (selector : SheetSelector) (options : CursorOptions := {}) :
    Except Error Cursor := do
  let sheet ← w.resolve selector
  let stream ← (w.container.scan sheet.entry).mapError .format
  (Cursor.ofStream? sheet w.decoder options stream).mapError .stream

end Workbook

end Xlsx
