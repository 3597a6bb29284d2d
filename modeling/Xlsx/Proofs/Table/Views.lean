import Xlsx.Proofs.Except
import Xlsx.Proofs.Reference.RangeNotation
import Xlsx.Proofs.Sheet.BelowHeader
import Xlsx.Proofs.Table.Records
import Xlsx.Proofs.Workbook.Opening
import Xlsx.Table.Scalar

/-! # The table functions agree

The same sheet can be queried cell by cell, row by row, and row by row with only some columns. Each
way opens a cursor of its own, which reads another part of the sheet.

* **`Row.valueAt?`**: what `xl_at` takes out of a row.
* **`Range.recordsOf`**: the cells of a range as records, taken out of rows.
* **`Table.open_rows`**, **`Table.open_cells`**: the records of a table that is opened, from all rows
  of its sheet.
* **`Table.views_agree`**: the records of cells, and of rows in some columns, are those that `xl_at`
  finds in the records of rows. -/

namespace Xlsx

/-! ## Values of a row -/

/-- A value is null where there is no cell or nothing in it. -/
def Row.sqlValue (row : Row) (column : Nat) : SqlValue := .ofCell ((row.get? column).getD .empty)

/-- What `xl_at` takes out of a row. -/
theorem ScalarFunction.apply_at (row : Row) (v : SqlValue) :
    ScalarFunction.at.apply [.row row, v] = (columnOf? v).map row.sqlValue := by
  show (columnOf? v).map _ = _
  refine congrArg (Except.map · (columnOf? v)) (funext fun column => ?_)
  unfold Row.sqlValue
  cases row.get? column <;> rfl

/-- A value, unless there is none or it is null. -/
def SqlValue.present? : Except Error SqlValue → Option SqlValue
  | .ok .null => none
  | .ok value => some value
  | .error _ => none

/-- An empty cell is no value that is there. -/
theorem SqlValue.present?_ofCell (cell : Cell) :
    present? (.ok (.ofCell cell)) = if cell.isEmpty then none else some (.ofCell cell) := by
  cases cell <;> rfl

/-- **The value that `xl_at` takes out of a row**, unless it is null. -/
def Row.valueAt? (row : Row) (column : Nat) : Option SqlValue :=
  SqlValue.present? (ScalarFunction.at.apply [.row row, .integer column])

/-- A 32-bit number means the column of that number. -/
theorem ScalarFunction.columnOf?_natCast {column : Nat} (h : column < Text.wordSize) :
    columnOf? (.integer column) = .ok column := by
  unfold columnOf?
  generalize Text.wordSize = n at h ⊢
  have hle : (0 : Int) ≤ column ∧ (column : Int) < n := ⟨Int.natCast_nonneg _, Int.ofNat_lt.mpr h⟩
  simp only [if_pos hle, Int.toNat_natCast]

/-- A column of a row has a value unless its cell is empty. -/
theorem Row.valueAt?_eq (row : Row) {column : Nat} (h : column < Text.wordSize) :
    row.valueAt? column =
      if ((row.get? column).getD .empty).isEmpty then none else some (row.sqlValue column) := by
  rw [valueAt?, ScalarFunction.apply_at, ScalarFunction.columnOf?_natCast h]
  exact SqlValue.present?_ofCell _

/-! ## Rows that are cut down -/

/-- A row that is cut down to some columns has cells in these columns alone. -/
theorem Row.get?_reduce (row : Row) (columns : List Nat) (column : Nat) :
    (row.reduce (some columns)).get? column =
      if column ∈ columns then some ((row.get? column).getD .empty) else none := by
  simp only [Row.reduce, Row.get?]
  by_cases hmem : column ∈ columns
  · obtain ⟨i, hi⟩ := Option.isSome_iff_exists.mp (List.isSome_idxOf?.mpr hmem)
    obtain ⟨hlt, hcolumn, -⟩ := List.idxOf?_eq_some_iff.mp hi
    rw [hi, if_pos hmem]
    simp [hlt, hcolumn]
  · rw [List.idxOf?_eq_none_iff.mpr hmem, if_neg hmem]
    rfl

/-- The cells that hold something in a row that is cut down to some columns. -/
theorem Row.placedCells_reduce (row : Row) (columns : List Nat) :
    (row.reduce (some columns)).placedCells = columns.filterMap fun column =>
      if ((row.get? column).getD .empty).isEmpty then none
      else some ⟨row.index, column, (row.get? column).getD .empty⟩ := by
  simp only [Row.reduce, Row.placedCells, Row.filled, Row.toList]
  induction columns with
  | nil => rfl
  | cons column columns ih =>
    rw [List.map_cons, List.zip_cons_cons, List.filter_cons, List.filterMap_cons]
    by_cases hempty : ((row.get? column).getD .empty).isEmpty = true
    · simpa [hempty] using ih
    · simpa [hempty] using ih

/-- **The cells of a range as records**, taken out of rows: those in its rows, as far as the first row
behind it, and in its columns. -/
def Range.recordsOf (r : Range) (rows : List Row) : List (List SqlValue) :=
  ((rows.takeWhile fun row => decide (row.index ≤ r.last.row)).filter fun row =>
    decide (r.first.row ≤ row.index)).flatMap fun row => r.columns.filterMap fun column =>
      (row.valueAt? column).map fun value => [.integer (row.index + 1), .integer column, value]

/-- Columns alone leave all rows of a sheet, cut down to these columns. -/
theorem CursorOptions.rowsOf_columns (columns : List Nat) (rows : List Row) :
    CursorOptions.rowsOf { columns := some columns } rows =
      rows.map (Row.reduce (some columns.toFinset.sort)) := by
  have hwithin : Row.within none rows = rows := List.takeWhile_eq_self_iff.mpr fun _ _ => rfl
  have hall : rows.filter (fun _ => true) = rows := List.filter_eq_self.mpr fun _ _ => rfl
  show ((Row.within none rows).filter fun _ => true).map _ = _
  rw [hwithin, hall]
  rfl

/-- What a cursor on a range gives holds the cells of the range. -/
theorem Range.recordsOf_eq (r : Range) (hlast : r.last.column < Text.wordSize) (rows : List Row) :
    ((CursorOptions.rowsOf { range := some r } rows).flatMap Row.placedCells).map
      PlacedCell.recordValues = r.recordsOf rows := by
  have hcolumns : (CursorOptions.columnSet { range := some r }).map Finset.sort = some r.columns :=
    (projectionOf_eq_sort { range := some r }).symm
  have hrow : ∀ row : Row, ((row.reduce (some r.columns)).placedCells).map PlacedCell.recordValues =
      r.columns.filterMap fun column => (row.valueAt? column).map fun value =>
        [.integer (row.index + 1), .integer column, value] := by
    intro row
    rw [Row.placedCells_reduce, List.map_filterMap]
    refine List.filterMap_congr fun column hmem => ?_
    have hlt : column < Text.wordSize := by
      have hle := (Finset.mem_Icc.mp (mem_columns_iff.mp hmem)).2
      exact Nat.lt_of_le_of_lt hle hlast
    rw [row.valueAt?_eq hlt]
    split <;> rfl
  rw [CursorOptions.rowsOf, hcolumns, List.flatMap_map, List.map_flatMap]
  exact List.flatMap_congr fun row _ => hrow row

/-! ## Tables on a sheet -/

section Open

variable {a : Arguments} {w : Workbook} {selector : SheetSelector} {sheet : Sheet}
  {s : Markup.Stream} (hw : a.workbook = .ok w) (hselector : a.sheet = .ok selector)
  (hsheet : w.resolve selector = .ok sheet) (hscan : w.container.scan sheet.entry = .ok s)

include hw hselector hsheet hscan

/-- **The records of rows** are the rows that a cursor with the wanted columns gives of the sheet. If
it comes to no error the table can be opened. -/
theorem Table.open_rows (columns : Option (List Nat)) {c : Cursor}
    (hopen : Cursor.ofStream? sheet w.decoder { columns } s = .ok c) :
    (c.run.error? = none → ∃ scan, (Table.rows columns).open a = .ok scan) ∧
      ∀ scan, (Table.rows columns).open a = .ok scan →
        scan.records .rows = TableRecord.numbered 0 (c.run.rows.map Row.recordValues) ∧
          scan.visit.error? = c.run.error?.map .stream := by
  have hcursor : w.openSheet selector { columns } = .ok c := by
    rw [Workbook.openSheet_eq hsheet hscan, hopen]
    rfl
  have hstart := RowsScan.advance_start c
  have heq : (Table.rows columns).open a =
      (RowsScan.advance { cursor := c }).1.map fun () =>
        .rows (RowsScan.advance { cursor := c }).2 := by
    simp only [Table.open, hw, hselector, hcursor, bind, Except.bind]
  match hadvance : RowsScan.advance { cursor := c } with
  | (.error cause, scan) =>
    rw [hadvance] at hstart heq
    refine ⟨fun hnone => ?_, fun scan hscan => ?_⟩
    · simp [hnone] at hstart
    · rw [heq] at hscan
      simp [Except.map] at hscan
  | (.ok (), scan) =>
    rw [hadvance] at hstart heq
    refine ⟨fun _ => ⟨_, heq⟩, fun scan' hscan' => ?_⟩
    rw [heq] at hscan'
    simp only [Except.map, Except.ok.injEq] at hscan'
    exact hscan' ▸ hstart

/-- **The records of cells** are the cells that hold something in the rows that a cursor on the range
gives of the sheet. If it comes to no error the table can be opened. -/
theorem Table.open_cells {range : Range} {c : Cursor} (hrange : a.range = .ok range)
    (hopen : Cursor.ofStream? sheet w.decoder { range := some range } s = .ok c)
    (hok : c.run.error? = none) :
    ∃ scan, Table.cells.open a = .ok scan ∧ scan.visit.error? = none ∧
      scan.records .cells =
        TableRecord.numbered 0
          ((c.run.rows.flatMap Row.placedCells).map PlacedCell.recordValues) := by
  have hcursor : w.openSheet selector { range := some range } = .ok c := by
    rw [Workbook.openSheet_eq hsheet hscan, hopen]
    rfl
  have hstart := CellsScan.advance_start c
  have heq : Table.cells.open a =
      (CellsScan.advance { cursor := c }).1.map fun () =>
        .cells (CellsScan.advance { cursor := c }).2 := by
    simp only [Table.open, hrange, hw, hselector, hcursor, bind, Except.bind]
  match hadvance : CellsScan.advance { cursor := c } with
  | (.error cause, scan) =>
    rw [hadvance] at hstart
    simp [hok] at hstart
  | (.ok (), scan) =>
    rw [hadvance] at hstart heq
    rw [hok] at hstart
    exact ⟨_, heq, hstart.2, hstart.1⟩

/-- A table of rows that can be opened is one of a sheet whose rows can be reached. -/
theorem Table.opened_rows {columns : Option (List Nat)} {scan : TableScan}
    (h : (Table.rows columns).open a = .ok scan) :
    ∃ c, Cursor.ofStream? sheet w.decoder { columns } s = .ok c := by
  have hopen := Workbook.openSheet_eq hsheet hscan { columns }
  cases hstream : Cursor.ofStream? sheet w.decoder { columns } s with
  | ok c => exact ⟨c, rfl⟩
  | error cause =>
    rw [hstream] at hopen
    simp [Table.open, hw, hselector, hopen, bind, Except.bind, Except.mapError] at h

end Open

/-- In the row that is cut down to the used columns `xl_at` finds the same values in these, and null
in all others. -/
theorem Row.apply_at_reduce (row : Row) {used columns : List Nat}
    (hused : ∀ column, column ∈ columns ↔ column ∈ used) {v : SqlValue} {column : Nat}
    (hcolumn : ScalarFunction.columnOf? v = .ok column) :
    ScalarFunction.at.apply [.row (row.reduce (some columns)), v] =
      if column ∈ used then ScalarFunction.at.apply [.row row, v] else .ok .null := by
  rw [ScalarFunction.apply_at, ScalarFunction.apply_at, hcolumn]
  simp only [Except.map, sqlValue, get?_reduce, hused]
  by_cases hmem : column ∈ used
  · rw [if_pos hmem, if_pos hmem]
    rfl
  · rw [if_neg hmem, if_neg hmem]
    rfl

/-- **The table functions agree.** Let a query for the rows of a sheet, no cell of which stands inside
another, come to its end without an error. Its records are rows, numbered one after the other. Then
the query for the cells of a range comes to its end without an error, and its records are the values
in the range that `xl_at` takes out of these rows, unless they are null; and so does the query for
the rows that uses some columns only, whose records are rows with the same numbers, out of which
`xl_at` takes the same values in the columns that are used and null in all others. -/
theorem Table.views_agree {a b : Arguments} {w : Workbook} {selector : SheetSelector} {sheet : Sheet}
    {s : Markup.Stream} {text : String} {range : Range} {scan : TableScan}
    (hw : a.workbook = .ok w) (hselector : a.sheet = .ok selector) (hwb : b.workbook = .ok w)
    (hselectorb : b.sheet = .ok selector) (htext : b.get? "range" = some (.text text))
    (hrange : Range.ofText? text = .ok range) (hsheet : w.resolve selector = .ok sheet)
    (hscan : w.container.scan sheet.entry = .ok s) (hapart : Markup.Apart "c" false s.events)
    (hopen : (Table.rows none).open a = .ok scan) (hok : scan.visit.error? = none) :
    ∃ rows : List Row,
      scan.records .rows = TableRecord.numbered 0 (rows.map Row.recordValues) ∧
      (∃ cells, Table.cells.open b = .ok cells ∧ cells.visit.error? = none ∧
        cells.records .cells = TableRecord.numbered 0 (range.recordsOf rows)) ∧
      ∀ used : List Nat, ∃ planned, (Table.rows (some used)).open a = .ok planned ∧
        planned.visit.error? = none ∧ ∃ narrow : List Row,
          planned.records .rows = TableRecord.numbered 0 (narrow.map Row.recordValues) ∧
          List.Forall₂ (fun row row' : Row => row'.index = row.index ∧
            ∀ (v : SqlValue) (column : Nat), ScalarFunction.columnOf? v = .ok column →
              ScalarFunction.at.apply [.row row', v] =
                if column ∈ used then ScalarFunction.at.apply [.row row, v] else .ok .null)
            rows narrow := by
  obtain ⟨full, hfull⟩ := opened_rows hw hselector hsheet hscan hopen
  obtain ⟨hrecords, herror⟩ := (open_rows hw hselector hsheet hscan none hfull).2 scan hopen
  have hend : full.run.error? = none := by
    rw [hok] at herror
    exact Option.map_eq_none_iff.mp herror.symm
  obtain ⟨hlastRow, hlastColumn⟩ := Range.ofText?_lt hrange
  refine ⟨full.run.rows, hrecords, ?_, fun used => ?_⟩
  · -- The cursor on the range gives what the range leaves of all rows.
    obtain ⟨c, hc, -, hrun⟩ := Cursor.run_eq_rowsOf hfull hapart none (some range) fun r hr =>
      Option.mem_some.mp hr ▸ hlastRow
    obtain ⟨hrows, hnone⟩ := hrun (Or.inl hend)
    have hargument : b.range = .ok range := by
      rw [Arguments.range, htext]
      simp only [hrange, Except.mapError]
    obtain ⟨cells, hcells, hcellsEnd, hcellsRecords⟩ :=
      open_cells hwb hselectorb hsheet hscan hargument hc hnone
    refine ⟨cells, hcells, hcellsEnd, ?_⟩
    have hword : range.last.column < Text.wordSize := Nat.lt_trans hlastColumn (by decide)
    rw [hcellsRecords, hrows, range.recordsOf_eq hword]
  · -- The cursor on the used columns cuts each of all rows down to them.
    obtain ⟨c, hc, -, hrun⟩ := Cursor.run_eq_rowsOf hfull hapart (some used) none fun r hr => by
      simp at hr
    obtain ⟨hrows, hnone⟩ := hrun (Or.inl hend)
    obtain ⟨hcanOpen, hplanned⟩ := open_rows hw hselector hsheet hscan (some used) hc
    obtain ⟨planned, hplan⟩ := hcanOpen hnone
    obtain ⟨hplannedRecords, hplannedError⟩ := hplanned planned hplan
    refine ⟨planned, hplan, by rw [hplannedError, hnone]; rfl, c.run.rows, hplannedRecords, ?_⟩
    rw [hrows, CursorOptions.rowsOf_columns, List.forall₂_map_right_iff]
    refine List.forall₂_same.mpr fun row _ => ⟨Row.reduce_index _ row, fun v column hcolumn => ?_⟩
    exact row.apply_at_reduce (fun column => by simp) hcolumn

/-- The records of rows tell the rows apart. -/
theorem TableRecord.eq_of_numbered {first : Int} {rows rows' : List Row}
    (h : numbered first (rows.map Row.recordValues) = numbered first (rows'.map Row.recordValues)) :
    rows = rows' := by
  induction rows generalizing first rows' with
  | nil =>
    cases rows' with
    | nil => rfl
    | cons row' rows' => exact nomatch h
  | cons row rows ih =>
    cases rows' with
    | nil => exact nomatch h
    | cons row' rows' =>
      obtain ⟨hrecord, hrest⟩ := List.cons.inj h
      have hrow : row.index = row'.index ∧ row = row' := by simpa [Row.recordValues] using hrecord
      rw [hrow.2, ih hrest]

/-- A query for rows. -/
def Arguments.storedRows : Arguments := ⟨[("workbook", .blob Workbook.storedOctets)]⟩

/-- A query for the cells of a range. -/
def Arguments.storedCells : Arguments :=
  ⟨[("workbook", .blob Workbook.storedOctets), ("range", .text "A1:B3")]⟩

/-- The rows of the stored sheet. -/
def Workbook.storedRows : List Row :=
  [⟨0, #[.boolean true, .empty, .boolean false], none⟩, ⟨2, #[.empty, .boolean true], none⟩]

/-- Two rows, with a missing one between them and a missing cell in each. The query for cells finds one
truth value in either row, and leaves out the one behind its range; the query for rows that uses the
column `B` finds what that for all columns finds there, and nothing elsewhere. -/
theorem Table.views_agree_stored : ∃ (scan cells planned : TableScan) (narrow : List Row),
    (Table.rows none).open .storedRows = .ok scan ∧
      scan.records .rows = TableRecord.numbered 0 (Workbook.storedRows.map Row.recordValues) ∧
      Table.cells.open .storedCells = .ok cells ∧
      cells.records .cells =
        [⟨0, [.integer 1, .integer 0, .integer 1]⟩, ⟨1, [.integer 3, .integer 1, .integer 1]⟩] ∧
      (Table.rows (some [1])).open .storedRows = .ok planned ∧
      planned.records .rows = TableRecord.numbered 0 (narrow.map Row.recordValues) ∧
      narrow.map Row.index = [0, 2] ∧
      narrow.map (fun row => ScalarFunction.at.apply [.row row, .text "B"]) =
        [.ok .null, .ok (.integer 1)] ∧
      narrow.map (fun row => ScalarFunction.at.apply [.row row, .text "A"]) = [.ok .null, .ok .null] := by
  have hw : Arguments.storedRows.workbook = .ok Workbook.stored := Workbook.ofOctets?_stored
  have hwb : Arguments.storedCells.workbook = .ok Workbook.stored := Workbook.ofOctets?_stored
  have hsheet : Workbook.stored.resolve (.index 0) = .ok ⟨"S", 0, 0, .visible, "xl/s"⟩ := rfl
  have hscan : Workbook.stored.container.scan "xl/s" = .ok Workbook.storedStream := by
    decide +kernel
  have hrange : Range.ofText? "A1:B3" = .ok ⟨⟨0, 0⟩, ⟨2, 1⟩⟩ := by decide +kernel
  obtain ⟨full, hfull⟩ : ∃ full, full = Cursor.opened ⟨"S", 0, 0, .visible, "xl/s"⟩
    Workbook.stored.decoder {} (.streaming 0 ⟨Workbook.storedStream.events.tail, none⟩) none := ⟨_, rfl⟩
  have hstream : Cursor.ofStream? ⟨"S", 0, 0, .visible, "xl/s"⟩ Workbook.stored.decoder {}
      Workbook.storedStream = .ok full := by
    rw [hfull]
    rfl
  have hrows : full.run.rows = Workbook.storedRows := by
    rw [hfull, (Cursor.run_spec rfl).rows]
    decide +kernel
  have hend : full.run.error? = none := by
    rw [hfull, (Cursor.run_spec rfl).error?]
    decide +kernel
  obtain ⟨hcan, hgives⟩ := open_rows hw rfl hsheet hscan none hstream
  obtain ⟨scan, hopen⟩ := hcan hend
  obtain ⟨hrecords, hok⟩ := hgives scan hopen
  rw [hrows] at hrecords
  rw [hend] at hok
  obtain ⟨rows, hgiven, ⟨cells, hcells, -, hcellRecords⟩, hplans⟩ :=
    Table.views_agree hw rfl hwb rfl rfl hrange hsheet hscan (by decide +kernel) hopen hok
  obtain rfl := TableRecord.eq_of_numbered (hgiven.symm.trans hrecords)
  obtain ⟨planned, hplanned, -, narrow, hnarrowRecords, hnarrow⟩ := hplans [1]
  refine ⟨scan, cells, planned, narrow, hopen, hrecords, hcells, ?_, hplanned, hnarrowRecords, ?_⟩
  · rw [hcellRecords]
    rfl
  -- The rows with the column that is used are those with all of them, one by one.
  match narrow, hnarrow with
  | [row, row'], .cons ⟨hindex, hat⟩ (.cons ⟨hindex', hat'⟩ .nil) =>
    have hb : ScalarFunction.columnOf? (.text "B") = .ok 1 := by decide +kernel
    have ha : ScalarFunction.columnOf? (.text "A") = .ok 0 := by decide +kernel
    have hb₀ : ScalarFunction.at.apply [.row row, .text "B"] = .ok .null := by
      rw [hat _ _ hb, ScalarFunction.apply_at, hb]
      rfl
    have hb₂ : ScalarFunction.at.apply [.row row', .text "B"] = .ok (.integer 1) := by
      rw [hat' _ _ hb, ScalarFunction.apply_at, hb]
      rfl
    have ha₀ : ScalarFunction.at.apply [.row row, .text "A"] = .ok .null := by
      rw [hat _ _ ha]
      rfl
    have ha₂ : ScalarFunction.at.apply [.row row', .text "A"] = .ok .null := by
      rw [hat' _ _ ha]
      rfl
    simp only [List.map_cons, List.map_nil, hindex, hindex', hb₀, hb₂, ha₀, ha₂, and_self]

end Xlsx
