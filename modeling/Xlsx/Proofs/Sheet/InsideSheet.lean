import Xlsx.Proofs.Reference.ColumnNames
import Xlsx.Proofs.Sheet.BelowHeader
import Xlsx.Proofs.Sheet.CellColumns

/-! # Rows inside the sheet

Which rows and which columns a cursor can give. Rows behind the last one of the sheet are never given.
Columns behind the last one are given only where the sheet itself decides which columns are read and a
cell without a reference stands there.

* **`Row.Placed`**: a row whose columns are columns of the sheet.
* **`Cursor.EndsBy.next`**, **`Cursor.run_index_le`**: no row is given behind the last wanted one.
* **`Cursor.Placed.next`**, **`Cursor.Placed.run`**: the rows of a cursor are placed.
* **`ReadOptions.resolved_lt`**: the columns that a request asks for.
* **`Workbook.opens_inside`**: the rows of every cursor that a workbook can open.
* **`Cursor.run_overrun`**: a cell behind the last column. -/

namespace Xlsx

namespace Row

/-- **The columns of a row** are columns of the sheet. -/
def Placed (row : Row) : Prop := ∀ p ∈ row.toList, p.1 < maxColumns

variable {row : Row}

/-- A row in all columns is placed if it is no wider than the sheet. -/
theorem placed_of_size (hall : row.columns = none) (hsize : row.size ≤ maxColumns) : row.Placed := by
  rintro ⟨column, cell⟩ hmem
  rw [toList, hall] at hmem
  have hlt := List.mem_range.mp (List.of_mem_zip hmem).1
  exact Nat.lt_of_lt_of_le hlt hsize

/-- A row in some columns is placed if these are columns of the sheet. -/
theorem placed_of_columns {columns : List Nat} (hsome : row.columns = some columns)
    (hcolumns : ∀ column ∈ columns, column < maxColumns) : row.Placed := by
  rintro ⟨column, cell⟩ hmem
  rw [toList, hsome] at hmem
  exact hcolumns column (List.of_mem_zip hmem).1

/-- A row in all columns has a cell in each column before its end. -/
theorem exists_mem_toList (hall : row.columns = none) {column : Nat} (h : column < row.size) :
    ∃ cell, (column, cell) ∈ row.toList := by
  have hlt : column < row.cells.size := h
  refine ⟨row.cells[column], ?_⟩
  rw [toList, hall, List.mem_iff_getElem]
  exact ⟨column, by simpa using hlt, by simp⟩

/-- A row in all columns that is placed is no wider than the sheet. -/
theorem Placed.size_le (h : row.Placed) (hall : row.columns = none) : row.size ≤ maxColumns := by
  by_contra hlarge
  obtain ⟨cell, hmem⟩ := exists_mem_toList hall (Nat.not_le.mp hlarge)
  exact Nat.lt_irrefl _ (h _ hmem)

end Row

namespace Cursor

/-! ## Row numbers -/

/-- A row that is read lies not behind the last wanted one. -/
theorem index_le_of_row {c : Cursor} {raw : Sheet.RawRow} {reading : Sheet.Reading}
    (h : c.reading.next c.selects c.firstRow c.lastRow = (.ok (some raw), reading)) :
    raw.index ≤ c.lastRow := by
  obtain ⟨next, rest, events, hstream, -, -⟩ := Sheet.Reading.streaming_of_row h
  have hrow := Sheet.Reading.outcome_of_row h
  rw [hstream] at hrow
  have hmem : raw ∈ (Sheet.readRows c.selects c.firstRow c.lastRow rest.fault? next rest.events).rows := by
    show raw ∈ ((Sheet.Reading.streaming next rest).outcome c.selects c.firstRow c.lastRow).rows
    rw [hrow, Sheet.Outcome.cons_rows]
    exact List.mem_cons_self
  exact (Sheet.readRows_index hmem).2

/-- The last wanted row is not behind `last`, and neither is one that is held back. -/
structure EndsBy (last : Nat) (c : Cursor) : Prop where
  lastRow : c.lastRow ≤ last
  pending : ∀ held, c.pending = some held → held.index ≤ last

namespace EndsBy

variable {last : Nat} {c : Cursor} (hc : EndsBy last c)

include hc

/-- Passing to a row that is not behind `last`: the rows before it are not either. -/
theorem passTo {row : Row} (hrow : row.index ≤ last) :
    (c.passTo row).1.index ≤ last ∧ EndsBy last (c.passTo row).2 := by
  unfold Cursor.passTo
  split
  · rename_i hdue
    constructor
    · rw [emptyRow_eq]
      show c.nextDense ≤ last
      omega
    · constructor
      case lastRow => exact hc.lastRow
      case pending =>
        intro held hheld
        rw [← Option.some.inj hheld]
        exact hrow
  · constructor
    · exact hrow
    · constructor
      case lastRow => exact hc.lastRow
      case pending =>
        intro held hheld
        simp at hheld

/-- **One call** gives no row behind `last`. -/
theorem next {after : Cursor} {row : Row} (h : c.next = (.ok (some row), after)) :
    row.index ≤ last ∧ EndsBy last after := by
  apply next_preserves (I := EndsBy last) (P := fun row => row.index ≤ last) (h := h)
  · intro c held hc hheld
    exact hc.pending held hheld
  · intro c raw reading hc hreading
    have hraw : raw.index ≤ c.lastRow := index_le_of_row hreading
    have hlast := hc.lastRow
    rw [decodeRow_index]
    exact ⟨by omega, hlast, hc.pending⟩
  · intro c row hc hrow
    exact hc.passTo hrow
  · exact hc

end EndsBy

/-- **No row is given behind the last wanted one**, and none that is filled in either. -/
theorem run_index_le {c : Cursor} (hpending : c.pending = none) :
    ∀ row ∈ c.run.rows, row.index ≤ c.lastRow := by
  have hc : EndsBy c.lastRow c := by
    constructor
    case lastRow => exact Nat.le_refl _
    case pending =>
      intro held hheld
      simp [hpending] at hheld
  exact run_forall (I := EndsBy c.lastRow) (fun hc h => hc.next h) hc

/-! ## The columns of the rows -/

/-- Cells in columns of the sheet make no row wider than the sheet. -/
theorem width_le {cells : List RawCell} (h : ∀ cell ∈ cells, cell.column < maxColumns) {n : Nat}
    (hn : n ≤ maxColumns) :
    cells.foldl (fun n cell => max n (cell.column + 1)) n ≤ maxColumns := by
  induction cells generalizing n with
  | nil => exact hn
  | cons cell cells ih =>
    have hcell : cell.column + 1 ≤ maxColumns := h cell List.mem_cons_self
    exact ih (fun other hmem => h other (List.mem_cons_of_mem _ hmem)) (Nat.max_le.mpr ⟨hn, hcell⟩)

/-- How many cells a row has that is decoded in full: up to the last one that is stored. -/
theorem size_decodeRow {c : Cursor} (hall : c.projection = none) (raw : Sheet.RawRow) :
    (c.decodeRow raw).size = raw.cells.foldl (fun n cell => max n (cell.column + 1)) 0 := by
  rw [decodeRow, hall]
  exact size_decoded _ _ _

/-- A decoded row has the columns of the projection. -/
theorem decodeRow_columns (c : Cursor) (raw : Sheet.RawRow) :
    (c.decodeRow raw).columns = c.projection := by
  unfold decodeRow
  split
  · rename_i hall
    exact hall.symm
  · rename_i columns hsome
    exact hsome.symm

/-- **The rows of a cursor are placed**: those with a projection by its columns, and those without
by the cells that are still to be read. -/
structure Placed (c : Cursor) : Prop where
  projection : ∀ columns, c.projection = some columns → ∀ column ∈ columns, column < maxColumns
  reading : c.projection = none → c.reading.Inside
  pending : ∀ held, c.pending = some held → held.Placed

namespace Placed

variable {c : Cursor} (hc : c.Placed)

include hc

/-- A row of a gap is well placed. -/
theorem emptyRow (index : Nat) : (c.emptyRow index).Placed := by
  rw [emptyRow_eq]
  cases hprojection : c.projection with
  | none =>
    refine Row.placed_of_size rfl ?_
    simp [Row.size]
  | some columns => exact Row.placed_of_columns rfl (hc.projection columns hprojection)

/-- So is a decoded row, if its cells are in columns of the sheet or a projection says which are wanted.
-/
theorem decodeRow {raw : Sheet.RawRow}
    (hcells : c.projection = none → ∀ cell ∈ raw.cells, cell.column < maxColumns) :
    (c.decodeRow raw).Placed := by
  cases hprojection : c.projection with
  | none =>
    refine Row.placed_of_size ((c.decodeRow_columns raw).trans hprojection) ?_
    rw [size_decodeRow hprojection]
    exact width_le (hcells hprojection) (Nat.zero_le _)
  | some columns =>
    exact Row.placed_of_columns ((c.decodeRow_columns raw).trans hprojection)
      (hc.projection columns hprojection)

/-- A reading that goes on. -/
theorem advanced {read : Option Sheet.RawRow} {reading : Sheet.Reading}
    (h : c.reading.next c.selects c.firstRow c.lastRow = (.ok read, reading)) (cells : Nat) :
    (∀ raw ∈ read, (c.decodeRow raw).Placed) ∧ (c.advanced reading cells).Placed := by
  constructor
  · intro raw hraw
    apply hc.decodeRow
    intro hall
    exact ((hc.reading hall).next h).1 raw hraw
  · constructor
    case projection => exact hc.projection
    case reading =>
      intro hall
      exact ((hc.reading hall).next h).2
    case pending => exact hc.pending

/-- Passing to a placed row. -/
theorem passTo {row : Row} (hrow : row.Placed) :
    (c.passTo row).1.Placed ∧ (c.passTo row).2.Placed := by
  unfold Cursor.passTo
  split
  · refine ⟨hc.emptyRow _, ?_⟩
    constructor
    case projection => exact hc.projection
    case reading => exact hc.reading
    case pending =>
      intro held hheld
      rw [← Option.some.inj hheld]
      exact hrow
  · refine ⟨hrow, ?_⟩
    constructor
    case projection => exact hc.projection
    case reading => exact hc.reading
    case pending =>
      intro held hheld
      simp at hheld

/-- A cursor that starts at another row. -/
theorem startingAt (row : Nat) : (c.startingAt row).Placed := by
  constructor
  case projection => exact hc.projection
  case reading => exact hc.reading
  case pending =>
    intro held hheld
    exact hc.pending held (Option.filter_eq_some_iff.mp hheld).1

/-- **One call** gives a placed row. -/
theorem next {after : Cursor} {row : Row} (h : c.next = (.ok (some row), after)) :
    row.Placed ∧ after.Placed := by
  apply next_preserves (I := Placed) (P := Row.Placed) (h := h)
  · intro c held hc hheld
    exact hc.pending held hheld
  · intro c raw reading hc hreading
    obtain ⟨hdecoded, hadvanced⟩ := hc.advanced hreading raw.cells.length
    exact ⟨hdecoded raw rfl, hadvanced⟩
  · intro c row hc hrow
    exact hc.passTo hrow
  · exact hc

/-- **All rows of a run are placed.** -/
theorem run : ∀ row ∈ c.run.rows, row.Placed :=
  run_forall (I := Placed) (fun hc h => hc.next h) hc

end Placed

/-- What a sparse cursor gives when it is called, and where it then stands. -/
theorem of_next_sparse {c after : Cursor} {found : Option Row} (hpending : c.pending = none)
    (hdense : c.dense = false) (h : c.next = (.ok found, after)) :
    ∃ read reading, c.reading.next c.selects c.firstRow c.lastRow = (.ok read, reading) ∧
      found = read.map c.decodeRow ∧ after = c.advanced reading (read.elim 0 (·.cells.length)) := by
  match hreading : c.reading.next c.selects c.firstRow c.lastRow with
  | (.error cause, reading) => simp [next_of_error hpending hreading] at h
  | (.ok none, reading) =>
    rw [next_of_none hpending hreading] at h
    obtain ⟨hfound, hafter⟩ := Prod.mk.inj h
    exact ⟨none, reading, rfl, (Except.ok.inj hfound).symm, hafter.symm⟩
  | (.ok (some raw), reading) =>
    rw [next_of_sparse hpending hdense hreading] at h
    obtain ⟨hfound, hafter⟩ := Prod.mk.inj h
    exact ⟨some raw, reading, rfl, (Except.ok.inj hfound).symm, hafter.symm⟩

end Cursor

/-! ## Columns that are asked for -/

/-- The columns of a cursor lie in the sheet: in its range, or else where they were asked for. -/
theorem projectionOf_lt {columns : Option (List Nat)} {range : Option Range} {read : List Nat}
    (hrange : ∀ r ∈ range, r.last.column < maxColumns)
    (hcolumns : range = none → ∀ asked, columns = some asked → ∀ column ∈ asked, column < maxColumns)
    (h : projectionOf columns range = some read) : ∀ column ∈ read, column < maxColumns := by
  intro column hmem
  obtain ⟨hwithin, hasked⟩ := (mem_projectionOf h).mp hmem
  cases range with
  | none =>
    cases columns with
    | none => simp [projectionOf] at h
    | some asked => exact hcolumns rfl asked rfl column (hasked asked rfl)
  | some r => exact Nat.lt_of_le_of_lt (hwithin r rfl).2 (hrange r rfl)

/-- All columns are read if no columns and no range are asked for. -/
theorem projectionOf_eq_none {columns : Option (List Nat)} {range : Option Range} :
    projectionOf columns range = none ↔ columns = none ∧ range = none := by
  unfold projectionOf
  cases columns <;> cases range <;> simp

/-- A key that makes sense means a column of the sheet, and one of the header if it is a name. -/
theorem ColumnKey.resolve_lt {headerRow : Option Nat} {header : Option Header} {key : ColumnKey}
    {column : Nat} (hkey : key.MakesSense headerRow)
    (hheader : ∀ name, key = .header name → ∀ h ∈ header, ∀ column ∈ h.columns, column < maxColumns)
    (h : key.resolve header = .ok column) : column < maxColumns := by
  cases key with
  | index index =>
    rw [resolve, Except.ok.injEq] at h
    rw [← h]
    exact hkey
  | letter letters => exact Column.index?_lt (mapError_eq_ok.mp h)
  | header name =>
    rw [resolve] at h
    split at h
    · rename_i found hfound
      rw [Except.ok.injEq] at h
      obtain ⟨names, hnames, hcolumn⟩ := Option.bind_eq_some_iff.mp hfound
      obtain ⟨field, hfield, rfl⟩ := Option.map_eq_some_iff.mp hcolumn
      rw [← h]
      exact hheader name rfl names hnames _ (List.mem_map_of_mem (List.mem_of_find?_eq_some hfield))
    · simp at h

/-- Columns are resolved one by one. -/
theorem resolveColumns_eq_some {header : Option Header} {keys : Option (List ColumnKey)}
    {columns : List Nat} (h : resolveColumns header keys = .ok (some columns)) :
    ∀ column ∈ columns, ∃ key ∈ keys.getD [], key.resolve header = .ok column := by
  cases keys with
  | none => simp [resolveColumns, pure, Except.pure] at h
  | some keys =>
    rw [resolveColumns, Option.mapM_some] at h
    obtain ⟨resolved, hresolved, hsome⟩ := map_eq_ok.mp h
    rw [← Option.some.inj hsome]
    exact mem_of_mapM hresolved

/-- **Columns that are asked for** lie in the sheet if a header that names some of them does. -/
theorem ReadOptions.resolved_lt {o : ReadOptions} (hcheck : o.check = some (.ok ())) {header : Option Header}
    {columns : List Nat} (h : resolveColumns header o.columns = .ok (some columns))
    (hheader : ∀ name, ColumnKey.header name ∈ o.columns.getD [] →
      ∀ names ∈ header, ∀ column ∈ names.columns, column < maxColumns) :
    ∀ column ∈ columns, column < maxColumns := by
  intro column hmem
  obtain ⟨key, hkey, hresolve⟩ := resolveColumns_eq_some h column hmem
  refine ColumnKey.resolve_lt (makesSense_of_check hcheck key hkey) (fun name hname => ?_) hresolve
  exact hheader name (hname ▸ hkey)

/-- All columns are resolved only where none are asked for. -/
theorem resolveColumns_eq_none {header : Option Header} {keys : Option (List ColumnKey)}
    (h : resolveColumns header keys = .ok none) : keys = none := by
  cases keys with
  | none => rfl
  | some keys =>
    rw [resolveColumns, Option.mapM_some] at h
    obtain ⟨resolved, -, hnone⟩ := map_eq_ok.mp h
    simp at hnone

/-! ## Cursors that are opened -/

/-- A cursor that starts at the rows of a sheet. -/
theorem Cursor.placed_opened {sheet : Sheet} {decoder : Decoder} {o : CursorOptions}
    {reading : Sheet.Reading} {dimension : Option Range}
    (hrange : ∀ r ∈ o.range, r.last.column < maxColumns)
    (hcolumns : o.range = none → ∀ asked, o.columns = some asked → ∀ column ∈ asked, column < maxColumns)
    (hreading : o.columns = none → o.range = none → reading.Inside) :
    (opened sheet decoder o reading dimension).Placed := by
  constructor
  case projection =>
    intro columns h
    exact projectionOf_lt hrange hcolumns h
  case reading =>
    intro h
    obtain ⟨hnone, hall⟩ := projectionOf_eq_none.mp h
    exact hreading hnone hall
  case pending =>
    intro held h
    simp [opened] at h

/-- A header that is read names columns of the sheet. -/
theorem Rows.headerOf_lt {headerRow : Nat} {found : Option Row} (h : ∀ row ∈ found, row.Placed) :
    ∀ column ∈ (headerOf headerRow found).columns, column < maxColumns := by
  cases found with
  | none => exact fun column hmem => absurd hmem List.not_mem_nil
  | some row =>
    intro column hmem
    obtain ⟨field, hfield, rfl⟩ := List.mem_map.mp hmem
    obtain ⟨p, hp, rfl⟩ := List.mem_map.mp hfield
    exact h row rfl p hp

/-- A sheet that is opened is there, and its events are read. -/
theorem Workbook.openSheet_eq_ok {w : Workbook} {selector : SheetSelector} {o : CursorOptions}
    {c : Cursor} (h : w.openSheet selector o = .ok c) :
    ∃ sheet s reading dimension, w.resolve selector = .ok sheet ∧
      w.container.scan sheet.entry = .ok s ∧ Sheet.Reading.ofStream? s = .ok (reading, dimension) ∧
      c = Cursor.opened sheet w.decoder o reading dimension := by
  obtain ⟨sheet, hsheet, h⟩ := bind_eq_ok.mp h
  obtain ⟨s, hscan, h⟩ := bind_eq_ok.mp h
  obtain ⟨reading, dimension, hreading, hc⟩ := Cursor.ofStream?_eq_ok (mapError_eq_ok.mp h)
  exact ⟨sheet, s, reading, dimension, hsheet, mapError_eq_ok.mp hscan, hreading, hc⟩

/-- **Rows below a header that are opened.** They have the header that is read, in all columns of the
range, and the cursor that has read it, and has decoded its cells, reads on. -/
theorem Rows.eq_of_openBelow_decoded {w : Workbook} {o : ReadOptions} {headerRow : Nat} {rows : Rows}
    (h : openBelow w o headerRow = .ok rows) :
    ∃ sheet s reading dimension start, w.resolve o.sheet = .ok sheet ∧
      w.container.scan sheet.entry = .ok s ∧ Sheet.Reading.ofStream? s = .ok (reading, dimension) ∧
      start = (Cursor.opened sheet w.decoder { range := o.range } reading dimension).startingAt headerRow ∧
      ∃ read later columns header,
        start.reading.next start.selects start.firstRow start.lastRow = (.ok read, later) ∧
        header = headerOf headerRow (read.map start.decodeRow) ∧
        resolveColumns (some header) o.columns = .ok columns ∧
        rows = { cursor := readingOn o header columns (start.advanced later (read.elim 0 (·.cells.length)))
                 header := some header } := by
  obtain ⟨c, found, after, columns, hopen, hnext, hcolumns, rfl⟩ := steps_of_openBelow h
  obtain ⟨sheet, s, reading, dimension, hsheet, hscan, hreading, rfl⟩ := Workbook.openSheet_eq_ok hopen
  obtain ⟨read, later, hread, rfl, rfl⟩ := Cursor.of_next_sparse rfl rfl hnext
  exact ⟨sheet, s, reading, dimension, _, hsheet, hscan, hreading, rfl, read, later, columns, _, hread,
    rfl, hcolumns, rfl⟩

/-- The rows below a header, whatever the header has of cells. -/
theorem Rows.eq_of_openBelow {w : Workbook} {o : ReadOptions} {headerRow : Nat} {rows : Rows}
    (h : openBelow w o headerRow = .ok rows) :
    ∃ sheet s reading dimension start, w.resolve o.sheet = .ok sheet ∧
      w.container.scan sheet.entry = .ok s ∧ Sheet.Reading.ofStream? s = .ok (reading, dimension) ∧
      start = (Cursor.opened sheet w.decoder { range := o.range } reading dimension).startingAt headerRow ∧
      ∃ read later cells columns header,
        start.reading.next start.selects start.firstRow start.lastRow = (.ok read, later) ∧
        header = headerOf headerRow (read.map start.decodeRow) ∧
        resolveColumns (some header) o.columns = .ok columns ∧
        rows = { cursor := readingOn o header columns (start.advanced later cells)
                 header := some header } := by
  obtain ⟨sheet, s, reading, dimension, start, hsheet, hscan, hreading, hstart, read, later, columns,
    header, hrest⟩ := eq_of_openBelow_decoded h
  exact ⟨sheet, s, reading, dimension, start, hsheet, hscan, hreading, hstart, read, later, _, columns,
    header, hrest⟩

/-- The cursor that reads on below a header is the one that has read it. -/
theorem Rows.openBelow_eq_ok {w : Workbook} {o : ReadOptions} {headerRow : Nat} {rows : Rows}
    (h : openBelow w o headerRow = .ok rows) :
    ∃ sheet s reading dimension start, w.resolve o.sheet = .ok sheet ∧
      w.container.scan sheet.entry = .ok s ∧ Sheet.Reading.ofStream? s = .ok (reading, dimension) ∧
      start = (Cursor.opened sheet w.decoder { range := o.range } reading dimension).startingAt headerRow ∧
      ∃ read later cells columns,
        start.reading.next start.selects start.firstRow start.lastRow = (.ok read, later) ∧
        resolveColumns (some (headerOf headerRow (read.map start.decodeRow))) o.columns = .ok columns ∧
        rows.cursor = readingOn o (headerOf headerRow (read.map start.decodeRow)) columns
          (start.advanced later cells) := by
  obtain ⟨sheet, s, reading, dimension, start, hsheet, hscan, hreading, hstart, read, later, cells,
    columns, header, hread, rfl, hcolumns, rfl⟩ := eq_of_openBelow h
  exact ⟨sheet, s, reading, dimension, start, hsheet, hscan, hreading, hstart, read, later, cells,
    columns, hread, hcolumns, rfl⟩

/-- Rows without a header are opened if their columns are resolved and the sheet is opened. -/
theorem Rows.openPlain_eq_ok {w : Workbook} {o : ReadOptions} {rows : Rows} :
    openPlain w o = .ok rows ↔ rows.header = none ∧
      ∃ columns, resolveColumns none o.columns = .ok columns ∧
        w.openSheet o.sheet { columns, dense := o.dense, range := o.range } = .ok rows.cursor := by
  constructor
  · intro h
    obtain ⟨columns, hcolumns, h⟩ := bind_eq_ok.mp h
    obtain ⟨c, hopen, h⟩ := bind_eq_ok.mp h
    rw [← Except.ok.inj h]
    exact ⟨rfl, columns, hcolumns, hopen⟩
  · obtain ⟨c, header⟩ := rows
    rintro ⟨rfl, columns, hcolumns, hopen⟩
    exact bind_eq_ok.mpr ⟨columns, hcolumns, bind_eq_ok.mpr ⟨c, hopen, rfl⟩⟩

/-- **The sheet itself decides which columns are read**: no range is, and either all columns are or
one is asked for by its name. -/
def ReadOptions.FollowsCells (o : ReadOptions) : Prop :=
  o.range = none ∧ (o.columns = none ∨ ∃ name, ColumnKey.header name ∈ o.columns.getD [])

/-- No cell without a reference stands behind the last column of the sheet that is meant. -/
def Workbook.CellsInside (w : Workbook) (selector : SheetSelector) : Prop :=
  ∀ sheet s, w.resolve selector = .ok sheet → w.container.scan sheet.entry = .ok s →
    Sheet.PlacesInside .before s.events

namespace Rows

variable {w : Workbook} {o : ReadOptions} {rows : Rows} (hcheck : o.check = some (.ok ()))

include hcheck

/-- No row behind the last one of the sheet is wanted without a header. -/
theorem lastRow_openPlain (h : openPlain w o = .ok rows) :
    rows.cursor.lastRow ≤ maxRows - 1 ∧ rows.cursor.pending = none := by
  obtain ⟨-, columns, -, hopen⟩ := openPlain_eq_ok.mp h
  obtain ⟨sheet, s, reading, dimension, -, -, -, hcursor⟩ := Workbook.openSheet_eq_ok hopen
  rw [hcursor]
  exact ⟨Cursor.lastRow_opened_le (ReadOptions.lastRow_lt_of_check hcheck), rfl⟩

/-- No row behind the last one of the sheet is wanted below a header. -/
theorem lastRow_openBelow {headerRow : Nat} (h : openBelow w o headerRow = .ok rows) :
    rows.cursor.lastRow ≤ maxRows - 1 ∧ rows.cursor.pending = none := by
  obtain ⟨sheet, s, reading, dimension, start, -, -, -, hstart, read, later, cells, columns, -, -,
    hcursor⟩ := openBelow_eq_ok h
  have hlast : start.lastRow ≤ maxRows - 1 := by
    rw [hstart]
    exact @Cursor.lastRow_opened_le sheet w.decoder { range := o.range } reading dimension
      (ReadOptions.lastRow_lt_of_check hcheck)
  have hpending : start.pending = none := by rw [hstart]; rfl
  rw [hcursor]
  exact ⟨hlast, readingOn_pending hpending⟩

/-- The rows without a header. -/
theorem placed_openPlain (h : openPlain w o = .ok rows)
    (hinside : o.FollowsCells → w.CellsInside o.sheet) : rows.cursor.Placed := by
  obtain ⟨-, columns, hcolumns, hopen⟩ := openPlain_eq_ok.mp h
  obtain ⟨sheet, s, reading, dimension, hsheet, hscan, hreading, hcursor⟩ :=
    Workbook.openSheet_eq_ok hopen
  rw [hcursor]
  apply Cursor.placed_opened
  · intro range hmem
    exact (ReadOptions.range_lt_of_check hcheck range hmem).2
  · rintro - asked rfl
    apply ReadOptions.resolved_lt hcheck hcolumns
    -- There is no header that could name a column.
    intro name _ header hheader
    simp at hheader
  · rintro rfl hnone
    have hfollows : o.FollowsCells := ⟨hnone, Or.inl (resolveColumns_eq_none hcolumns)⟩
    exact Sheet.Reading.inside_of_open hreading (hinside hfollows sheet s hsheet hscan)

/-- The rows behind a header. It is read in all columns where no range is read, so that the columns
that it names are those of cells. -/
theorem placed_openBelow {headerRow : Nat} (h : openBelow w o headerRow = .ok rows)
    (hinside : o.FollowsCells → w.CellsInside o.sheet) : rows.cursor.Placed := by
  have hrange : ∀ range ∈ o.range, range.last.column < maxColumns :=
    fun range hmem => (ReadOptions.range_lt_of_check hcheck range hmem).2
  obtain ⟨sheet, s, reading, dimension, start, hsheet, hscan, hreading, hstart, read, later, cells,
    columns, hread, hcolumns, hcursor⟩ := openBelow_eq_ok h
  have hpending : start.pending = none := by rw [hstart]; rfl
  have hstartRange : start.range = o.range := by rw [hstart]; rfl
  have hprojection : start.projection = projectionOf none o.range := by rw [hstart]; rfl
  -- The cursor that reads the header follows the cells only where the reader does.
  have hplaced : (o.range = none → o.FollowsCells) → start.Placed := by
    intro hfollows
    rw [hstart]
    apply Cursor.Placed.startingAt
    apply Cursor.placed_opened hrange
    · intro _ asked hasked
      simp at hasked
    · intro _ hnone
      exact Sheet.Reading.inside_of_open hreading (hinside (hfollows hnone) sheet s hsheet hscan)
  rw [hcursor]
  constructor
  case projection =>
    intro wanted hwanted
    have hwanted : projectionOf columns start.range = some wanted := hwanted
    rw [hstartRange] at hwanted
    refine projectionOf_lt hrange ?_ hwanted
    rintro hnone asked rfl
    apply ReadOptions.resolved_lt hcheck hcolumns
    intro name hname header hheader
    have hfollows : o.FollowsCells := ⟨hnone, Or.inr ⟨name, hname⟩⟩
    rw [← Option.some.inj hheader]
    apply headerOf_lt
    intro row hrow
    obtain ⟨raw, hraw, rfl⟩ := Option.map_eq_some_iff.mp hrow
    exact ((hplaced fun _ => hfollows).advanced hread cells).1 raw hraw
  case reading =>
    intro hall
    have hall : projectionOf columns start.range = none := hall
    rw [hstartRange] at hall
    obtain ⟨rfl, hnone⟩ := projectionOf_eq_none.mp hall
    have hfollows : o.FollowsCells := ⟨hnone, Or.inl (resolveColumns_eq_none hcolumns)⟩
    apply ((hplaced fun _ => hfollows).advanced hread cells).2.reading
    exact hprojection.trans (projectionOf_eq_none.mpr ⟨rfl, hnone⟩)
  case pending =>
    intro held hheld
    simp [readingOn_pending (c := start.advanced later cells) hpending] at hheld

end Rows

/-- **A cursor that a workbook opens**: at the start of a sheet without options, or for a reader. -/
inductive Workbook.Opens (w : Workbook) : ReadOptions → Cursor → Prop
  | plain {selector : SheetSelector} {c : Cursor} (h : w.openSheet selector {} = .ok c) :
      w.Opens { sheet := selector } c
  | reader {r : SheetReader} {rows : Rows} (h : r.rows w = .ok rows) : w.Opens r.options rows.cursor

/-- A cursor without options is that of a reader without options. -/
theorem Workbook.Opens.rows {w : Workbook} {o : ReadOptions} {c : Cursor} (h : w.Opens o c) :
    ∃ (r : SheetReader) (rows : Rows), r.options = o ∧ r.rows w = .ok rows ∧ rows.cursor = c := by
  cases h with
  | plain hopen =>
    rename_i selector
    refine ⟨⟨{ sheet := selector }, rfl⟩, { cursor := c }, rfl, ?_, rfl⟩
    have hplain : Rows.openPlain w { sheet := selector } = .ok { cursor := c } := by
      unfold Rows.openPlain
      exact bind_eq_ok.mpr ⟨none, rfl, bind_eq_ok.mpr ⟨c, hopen, rfl⟩⟩
    exact hplain
  | reader hrows => exact ⟨_, _, rfl, hrows, rfl⟩

/-- **Rows inside the sheet.** No cursor that a workbook opens gives a row behind the last one of the
sheet, whether it is read or filled in. Its rows have only columns of the sheet, and the name of each
column means that column, if a range or the numbers and letters of columns say which are read; and
where the sheet itself decides that, if no cell without a reference stands behind the last column. -/
theorem Workbook.opens_inside {w : Workbook} {o : ReadOptions} {c : Cursor} (h : w.Opens o c) :
    (∀ row ∈ c.run.rows, row.index < maxRows) ∧
      ((o.FollowsCells → w.CellsInside o.sheet) →
        ∀ row ∈ c.run.rows, (row.columns = none → row.size ≤ maxColumns) ∧
          ∀ p ∈ row.toList, p.1 < maxColumns ∧ Column.index? (Column.name p.1) = .ok p.1) := by
  obtain ⟨r, rows, rfl, hrows, rfl⟩ := h.rows
  have hbounds : (rows.cursor.lastRow ≤ maxRows - 1 ∧ rows.cursor.pending = none) ∧
      ((r.options.FollowsCells → w.CellsInside r.options.sheet) → rows.cursor.Placed) := by
    rw [SheetReader.rows] at hrows
    split at hrows
    · exact ⟨Rows.lastRow_openPlain r.check_options hrows, Rows.placed_openPlain r.check_options hrows⟩
    · exact ⟨Rows.lastRow_openBelow r.check_options hrows, Rows.placed_openBelow r.check_options hrows⟩
  obtain ⟨⟨hlast, hpending⟩, hplaced⟩ := hbounds
  constructor
  · intro row hrow
    have hindex := Cursor.run_index_le hpending row hrow
    have hmax : maxRows = 1048576 := rfl
    omega
  · intro hinside row hrow
    have hrow := (hplaced hinside).run row hrow
    exact ⟨hrow.size_le, fun p hp => ⟨hrow p hp, Column.index?_name (hrow p hp)⟩⟩

/-- The two rows of a small sheet are read in full, and no cell of them stands behind the sheet. -/
theorem Workbook.opens_inside_sample : ∃ c,
    Workbook.sample.Opens { sheet := .index 0 } c ∧ Workbook.sample.CellsInside (.index 0) ∧
      c.run.rows = [⟨0, #[.empty, .empty], none⟩, ⟨1, #[], none⟩] ∧
      (∀ row ∈ c.run.rows, row.index < maxRows) ∧
      ∀ row ∈ c.run.rows, (row.columns = none → row.size ≤ maxColumns) ∧
        ∀ p ∈ row.toList, p.1 < maxColumns ∧ Column.index? (Column.name p.1) = .ok p.1 := by
  obtain ⟨c, hc⟩ : ∃ c, c = Cursor.opened ⟨"S", 0, 1, .visible, "s"⟩ Workbook.sample.decoder {}
    (.streaming 0 ⟨Workbook.sampleStream.events.tail, none⟩) none := ⟨_, rfl⟩
  have hscan : Workbook.sample.container.scan "s" = .ok Workbook.sampleStream := by
    with_unfolding_all rfl
  have hopens : Workbook.sample.Opens { sheet := .index 0 } c := by
    refine .plain ?_
    rw [Workbook.openSheet_eq rfl hscan, hc]
    rfl
  have hinside : Workbook.sample.CellsInside (.index 0) := by
    intro sheet s hsheet hs
    have hentry : sheet.entry = "s" := by rw [← Except.ok.inj hsheet]
    rw [hentry, hscan] at hs
    rw [← Except.ok.inj hs]
    decide +kernel
  obtain ⟨hindex, hcolumns⟩ := Workbook.opens_inside hopens
  refine ⟨c, hopens, hinside, ?_, hindex, hcolumns fun _ => hinside⟩
  rw [hc, (Cursor.run_spec rfl).rows]
  decide +kernel

/-- A sheet with a cell in its last column, and behind it one that states no reference. -/
def Sheet.sampleOverrun : Markup.Stream where
  events := [.start ⟨"sheetData", []⟩, .start ⟨"row", []⟩, .empty ⟨"c", [.ok ⟨"r", Text.octets "XFD1"⟩]⟩,
    .empty ⟨"c", []⟩, .finish "row", .finish "sheetData"]

/-- **A cell behind the last column.** A cell without a reference is read even there, so that a row is
wider than the sheet, and has a column whose name means none. -/
theorem Cursor.run_overrun : ∃ c row,
    ofStream? default default {} Sheet.sampleOverrun = .ok c ∧ c.run.rows = [row] ∧
      row.columns = none ∧ row.size = maxColumns + 1 ∧ (∃ cell, (maxColumns, cell) ∈ row.toList) ∧
      Column.index? (Column.name maxColumns) = .error (.outOfBounds "XFE") := by
  obtain ⟨c, hc⟩ : ∃ c, c = Cursor.opened default default {}
    (.streaming 0 ⟨Sheet.sampleOverrun.events.tail, none⟩) none := ⟨_, rfl⟩
  obtain ⟨raw, hraw⟩ : ∃ raw : Sheet.RawRow,
    raw = ⟨0, [{ column := maxColumns }, { column := maxColumns - 1 }]⟩ := ⟨_, rfl⟩
  have hrows : c.outcome.rows = [raw] := by
    rw [hc, hraw]
    decide +kernel
  have hall : c.projection = none := by rw [hc]; rfl
  have hcolumns : (c.decodeRow raw).columns = none := (c.decodeRow_columns raw).trans hall
  have hsize : (c.decodeRow raw).size = maxColumns + 1 := by
    rw [Cursor.size_decodeRow hall, hraw]
    rfl
  refine ⟨c, c.decodeRow raw, by rw [hc]; rfl, ?_, hcolumns, hsize, ?_, by decide +kernel⟩
  · have hsparse : c.dense = false := by rw [hc]; rfl
    have hpending : c.pending = none := by rw [hc]; rfl
    rw [(Cursor.run_spec hpending).rows, hrows, Cursor.shown_of_sparse hsparse, List.map_singleton]
  · exact Row.exists_mem_toList hcolumns (by omega)

end Xlsx
