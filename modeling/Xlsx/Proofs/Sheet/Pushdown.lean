import Mathlib.Data.List.TakeWhile
import Xlsx.Proofs.Sheet.CursorRun
import Xlsx.Proofs.Sheet.Opening
import Xlsx.Proofs.Sheet.Projection

/-! # Reading less is leaving out

A cursor that is opened with columns and a range looks at less of the sheet than one without: it
leaves the content of other columns unread and stops behind the range. What it gives is nevertheless
what is left of all rows, as long as no cell stands inside another.

* **`CursorOptions.rowsOf`**: what columns and a range leave of the rows of a sheet.
* **`Cursor.Narrows`**: a cursor stands where one without options does, and wants less.
* **`Cursor.Narrows.rows`**: what is read of a sheet, decoded, is what is left of all rows.
* **`Cursor.run_eq_rowsOf`**: the same of the rows that a cursor gives, with how it ends. -/

namespace Xlsx

/-- The rows in front of the first one behind a range. -/
def Row.within (range : Option Range) (rows : List Row) : List Row :=
  rows.takeWhile fun row => range.all fun r => decide (row.index ≤ r.last.row)

/-- The rows from `first` to `last` in front of the first one behind `last`, cut down to columns. -/
def Row.between (first last : Nat) (columns : Option (List Nat)) (rows : List Row) : List Row :=
  ((rows.takeWhile fun row => decide (row.index ≤ last)).filter fun row =>
    decide (first ≤ row.index)).map (Row.reduce columns)

/-- **What options leave of the rows of a sheet.** The first row behind the range ends them, rows
before the range are dropped, and each row is cut down to the wanted columns. -/
def CursorOptions.rowsOf (o : CursorOptions) (rows : List Row) : List Row :=
  ((Row.within o.range rows).filter fun row => o.range.all fun r => decide (r.first.row ≤ row.index)).map
    (Row.reduce (o.columnSet.map Finset.sort))

/-- Of the rows of a sheet no range leaves out the last ones. -/
theorem Row.takeWhile_lastRow {range : Option Range} {rows : List Row}
    (hrows : ∀ row ∈ rows, row.index ≤ maxRows - 1) :
    (rows.takeWhile fun row => decide (row.index ≤ (range.map (·.last.row)).getD (maxRows - 1))) =
      Row.within range rows := by
  cases range with
  | some range => rfl
  | none =>
    -- Without a range the last row is that of the sheet, which no row lies behind.
    have hbounded : rows.takeWhile (fun row => decide (row.index ≤ maxRows - 1)) = rows :=
      List.takeWhile_eq_self_iff.mpr fun row hrow => decide_eq_true (hrows row hrow)
    have hall : rows.takeWhile (fun _ => true) = rows := List.takeWhile_eq_self_iff.mpr fun _ _ => rfl
    show rows.takeWhile (fun row => decide (row.index ≤ maxRows - 1)) = rows.takeWhile fun _ => true
    rw [hbounded, hall]

namespace Cursor

/-! ## All rows -/

/-- A cursor without options, which all rows and columns are wanted of. -/
structure ReadsAll (full : Cursor) : Prop where
  projection : full.projection = none
  firstRow : full.firstRow = 0
  lastRow : full.lastRow = maxRows - 1
  dense : full.dense = false
  pending : full.pending = none

/-- A cursor that is opened without options reads all. -/
theorem readsAll_opened (sheet : Sheet) (decoder : Decoder) (reading : Sheet.Reading)
    (dimension : Option Range) : ReadsAll (opened sheet decoder {} reading dimension) :=
  ⟨rfl, rfl, rfl, rfl, rfl⟩

namespace ReadsAll

variable {full : Cursor} (hfull : full.ReadsAll)

include hfull

/-- Its outcome is that of the rows without a selection. -/
theorem outcome_eq : full.outcome = full.reading.outcome (fun _ => true) 0 (maxRows - 1) := by
  have hselects : full.selects = fun _ => true := by
    funext column
    simp [selects, hfull.projection]
  rw [outcome, hselects, hfull.firstRow, hfull.lastRow]

/-- A cursor without options gives every row that is read, as it is. -/
theorem run_rows : full.run.rows = full.outcome.rows.map full.decodeRow := by
  rw [(run_spec hfull.pending).rows, shown_of_sparse hfull.dense]

/-- It fails as they do. -/
theorem run_error? : full.run.error? = full.outcome.ending.error? := (run_spec hfull.pending).error?

/-- All rows of a sheet lie in the sheet. -/
theorem outcome_index_le {raw : Sheet.RawRow} (h : raw ∈ full.outcome.rows) :
    raw.index ≤ maxRows - 1 := by
  rw [hfull.outcome_eq] at h
  cases hreading : full.reading with
  | finished => simp [hreading, Sheet.Reading.outcome] at h
  | failed => simp [hreading, Sheet.Reading.outcome] at h
  | streaming next rest =>
    rw [hreading] at h
    exact (Sheet.readRows_index h).2

/-- No row that it yields is outside of the sheet. -/
theorem index_le {row : Row} (h : row ∈ full.run.rows) : row.index ≤ maxRows - 1 := by
  rw [hfull.run_rows, List.mem_map] at h
  obtain ⟨raw, hraw, rfl⟩ := h
  rw [decodeRow_index]
  exact hfull.outcome_index_le hraw

end ReadsAll

/-! ## What is left of all rows -/

/-- **A cursor that wants less**: it stands where a cursor without options does, in a sheet no cell
of which stands inside another. -/
structure Narrows (full c : Cursor) : Prop where
  all : full.ReadsAll
  apart : full.reading.CellsApart
  reading : c.reading = full.reading
  decoder : c.decoder = full.decoder
  nodup : ∀ columns, c.projection = some columns → columns.Nodup
  lastRow_le : c.lastRow ≤ maxRows - 1

/-- The last row of a range inside the sheet is a row of the sheet. -/
theorem lastRow_opened_le {sheet : Sheet} {decoder : Decoder} {o : CursorOptions}
    {reading : Sheet.Reading} {dimension : Option Range}
    (hrange : ∀ range ∈ o.range, range.last.row < maxRows) :
    (opened sheet decoder o reading dimension).lastRow ≤ maxRows - 1 := by
  cases hcase : o.range with
  | none => simp [opened, hcase]
  | some range =>
    have hlt := hrange range hcase
    simp only [opened, hcase, Option.map_some, Option.getD_some]
    omega

/-- Of the cursors at the start of a sheet the one without options gives most. -/
theorem narrows_opened (sheet : Sheet) (decoder : Decoder) (o : CursorOptions)
    {reading : Sheet.Reading} (dimension : Option Range) (hapart : reading.CellsApart)
    (hrange : ∀ range ∈ o.range, range.last.row < maxRows) :
    Narrows (opened sheet decoder {} reading dimension) (opened sheet decoder o reading dimension) where
  all := readsAll_opened sheet decoder reading dimension
  apart := hapart
  reading := rfl
  decoder := rfl
  nodup := fun _ h => projectionOf_nodup h
  lastRow_le := lastRow_opened_le hrange

namespace Narrows

variable {full c : Cursor} (h : full.Narrows c)

include h

/-- **A cursor reads what is left of all rows.** -/
theorem outcome_restrict :
    (full.outcome.restrict c.selects c.firstRow c.lastRow).Extends c.outcome := by
  have hapart := h.apart
  rw [h.all.outcome_eq, outcome, h.reading]
  cases hcase : full.reading with
  | finished => exact Sheet.Outcome.extends_refl _
  | failed => exact Sheet.Outcome.extends_refl _
  | streaming next rest =>
    rw [hcase] at hapart
    exact Sheet.readRows_restrict c.selects c.firstRow h.lastRow_le hapart

/-- What is left of all rows, decoded, is what is left of the decoded rows. -/
theorem map_decodeRow_restrict :
    (full.outcome.restrict c.selects c.firstRow c.lastRow).rows.map c.decodeRow =
      Row.between c.firstRow c.lastRow c.projection full.run.rows := by
  rw [h.all.run_rows, Row.between, List.takeWhile_map, List.filter_map, Sheet.Outcome.restrict,
    List.map_map, List.map_map]
  have hindex : ∀ p : Nat → Bool, ((fun row : Row => p row.index) ∘ full.decodeRow) =
      fun raw : Sheet.RawRow => p raw.index := by
    intro p
    funext raw
    simp
  rw [hindex fun i => decide (i ≤ c.lastRow), hindex fun i => decide (c.firstRow ≤ i)]
  refine List.map_congr_left fun raw _ => ?_
  exact decodeRow_restrict h.all.projection h.decoder h.nodup raw

/-- **What a cursor reads, decoded**, begins with what is left of all rows. -/
theorem rows_prefix :
    Row.between c.firstRow c.lastRow c.projection full.run.rows <+: c.outcome.rows.map c.decodeRow := by
  rw [← h.map_decodeRow_restrict]
  exact h.outcome_restrict.1.map c.decodeRow

/-- **What a cursor reads, decoded, is what is left of all rows**, when these end without an error
or go on behind the last row that is wanted. -/
theorem rows (hend : full.run.error? = none ∨ ∃ row ∈ full.run.rows, c.lastRow < row.index) :
    c.outcome.rows.map c.decodeRow = Row.between c.firstRow c.lastRow c.projection full.run.rows ∧
      c.outcome.ending.error? = none := by
  have hnone : (full.outcome.restrict c.selects c.firstRow c.lastRow).ending.error? = none := by
    unfold Sheet.Outcome.restrict
    rcases hend with hend | ⟨row, hrow, hlt⟩
    · rw [h.all.run_error?] at hend
      split
      · rfl
      · exact hend
    · -- The row behind the last one ends the rows before the error is met.
      rw [h.all.run_rows, List.mem_map] at hrow
      obtain ⟨raw, hraw, rfl⟩ := hrow
      rw [decodeRow_index] at hlt
      rw [if_pos (List.any_eq_true.mpr ⟨raw, hraw, decide_eq_true hlt⟩)]
      rfl
  rw [h.outcome_restrict.2 hnone]
  exact ⟨h.map_decodeRow_restrict, hnone⟩

end Narrows

/-! ## Cursors with options -/

/-- Within the rows of a sheet, what options leave is what lies between the bounds of their cursor. -/
theorem between_opened (sheet : Sheet) (decoder : Decoder) (o : CursorOptions)
    (reading : Sheet.Reading) (dimension : Option Range) {rows : List Row}
    (hrows : ∀ row ∈ rows, row.index ≤ maxRows - 1) :
    Row.between (opened sheet decoder o reading dimension).firstRow
      (opened sheet decoder o reading dimension).lastRow
      (opened sheet decoder o reading dimension).projection rows = o.rowsOf rows := by
  have hprojection : (opened sheet decoder o reading dimension).projection =
      o.columnSet.map Finset.sort := projectionOf_eq_sort o
  have hlast : (rows.takeWhile fun row =>
      decide (row.index ≤ (opened sheet decoder o reading dimension).lastRow)) =
        Row.within o.range rows := Row.takeWhile_lastRow hrows
  have hfirst : (fun row : Row =>
      decide ((opened sheet decoder o reading dimension).firstRow ≤ row.index)) =
        fun row => o.range.all fun r => decide (r.first.row ≤ row.index) := by
    funext row
    unfold opened
    cases o.range with
    | none => simp
    | some range => rfl
  rw [Row.between, hprojection, hlast, hfirst]
  rfl

/-- **Pushing columns and a range down into the reading is leaving out what they do not want.** Let
a cursor without options give some rows of a sheet, no cell of which stands inside another. The
cursor with columns and a range begins with what these leave of the rows; and when the cursor
without options ends without an error, or gives a row behind the range, it gives nothing else and
ends without an error. -/
theorem run_eq_rowsOf {sheet : Sheet} {decoder : Decoder} {s : Markup.Stream} {full : Cursor}
    (hopen : ofStream? sheet decoder {} s = .ok full) (hapart : Markup.Apart "c" false s.events)
    (columns : Option (List Nat)) (range : Option Range)
    (hrange : ∀ r ∈ range, r.last.row < maxRows) :
    ∃ c, ofStream? sheet decoder { columns, range } s = .ok c ∧
      CursorOptions.rowsOf { columns, range } full.run.rows <+: c.run.rows ∧
      (full.run.error? = none ∨ (∃ row ∈ full.run.rows, ∃ r ∈ range, r.last.row < row.index) →
        c.run.rows = CursorOptions.rowsOf { columns, range } full.run.rows ∧ c.run.error? = none) := by
  obtain ⟨reading, dimension, hreading, rfl⟩ := ofStream?_eq_ok hopen
  obtain ⟨c, hc⟩ : ∃ c, c = opened sheet decoder { columns, range } reading dimension := ⟨_, rfl⟩
  have hnarrows := narrows_opened sheet decoder { columns, range } dimension
    (Sheet.Reading.cellsApart_of_open hreading hapart) hrange
  have hbetween := between_opened sheet decoder { columns, range } reading dimension
    fun _ hrow => hnarrows.all.index_le hrow
  rw [← hc] at hnarrows hbetween
  have hrun := run_spec (c := c) (by rw [hc]; rfl)
  have hrows : c.run.rows = c.outcome.rows.map c.decodeRow := by
    rw [hrun.rows, shown_of_sparse (by rw [hc]; rfl)]
  refine ⟨c, ?_, ?_, fun hend => ?_⟩
  · rw [ofStream?_eq, hreading, hc]
    rfl
  · rw [hrows, ← hbetween]
    exact hnarrows.rows_prefix
  · rw [hrows, hrun.error?, ← hbetween]
    refine hnarrows.rows (hend.imp_right ?_)
    rintro ⟨row, hrow, r, hr, hlt⟩
    refine ⟨row, hrow, ?_⟩
    have hlast : c.lastRow = r.last.row := by rw [hc, opened, Option.mem_def.mp hr]; rfl
    rw [hlast]
    exact hlt

/-- Of the two rows of a sheet a range that ends with the first one leaves that row, and of its
cells the wanted one. -/
theorem run_eq_rowsOf_sample : ∃ full c,
    ofStream? default default {} Sheet.sampleStream = .ok full ∧
      ofStream? default default { columns := some [1, 0, 1], range := some ⟨⟨0, 1⟩, ⟨0, 2⟩⟩ }
        Sheet.sampleStream = .ok c ∧
      full.run.rows = [⟨0, #[.number (.ofNat 7), .empty], none⟩, ⟨1, #[], none⟩] ∧
      c.run.rows = [⟨0, #[.empty], some [1]⟩] ∧ c.run.error? = none := by
  obtain ⟨full, hfull⟩ : ∃ full, full = opened default default {}
      (.streaming 0 ⟨Sheet.sampleStream.events.drop 2, none⟩) none := ⟨_, rfl⟩
  have hopen : ofStream? default default {} Sheet.sampleStream = .ok full := by
    rw [hfull]
    rfl
  have hrows : full.run.rows = [⟨0, #[.number (.ofNat 7), .empty], none⟩, ⟨1, #[], none⟩] := by
    rw [hfull, (run_spec rfl).rows]
    decide +kernel
  obtain ⟨c, hc, -, hall⟩ := run_eq_rowsOf hopen (by decide +kernel) (some [1, 0, 1])
    (some ⟨⟨0, 1⟩, ⟨0, 2⟩⟩) (by decide)
  obtain ⟨hcut, hend⟩ := hall (Or.inr ⟨⟨1, #[], none⟩, by simp [hrows], _, rfl, by decide⟩)
  refine ⟨full, c, hopen, hc, hrows, ?_, hend⟩
  rw [hcut, hrows]
  decide +kernel

end Cursor

end Xlsx
