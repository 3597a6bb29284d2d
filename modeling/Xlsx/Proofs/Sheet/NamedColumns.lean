import Xlsx.Proofs.Json.Members
import Xlsx.Proofs.Reference.ColumnNames
import Xlsx.Proofs.Sheet.Fused

/-! # Columns that a header names

A header is read in all columns of the range, so that its columns follow one another from the first
column of the range on. A column before one that it names is therefore named as well, if it is read at
all; that is why no generated name stands before the first column of a name.

* **`Header.Spans`**: headers whose columns follow one another.
* **`Header.columnOf?_eq_some`**: a name means the least of its columns.
* **`Cursor.Projects.next`**: the columns of the rows that a cursor gives.
* **`SheetReader.opened_records`**: the header and the columns of records that are opened.
* **`Records.of_call`**: the header and the columns of every record. -/

namespace Xlsx

/-! ## Headers -/

namespace Header

/-- No cell gives its column a blank name. -/
theorem isAllBlank_fieldName (column : Nat) (cell : Cell) :
    Text.isAllBlank (fieldName column cell) = false := by
  unfold fieldName
  split
  · exact Column.isAllBlank_name column
  · rename_i hname
    simpa using hname

/-- **A header whose columns follow one another** from some column on, none of them with a blank
name. -/
structure Spans (first : Nat) (h : Header) : Prop where
  columns : ∃ width, h.columns = List.range' first width
  named : ∀ name ∈ h.names, Text.isAllBlank name = false

/-- A header without names. -/
theorem spans_empty (first row : Nat) : Spans first { row } where
  columns := ⟨0, rfl⟩
  named _ hname := absurd hname List.not_mem_nil

/-- A row whose cells follow one another makes such a header. -/
theorem spans_ofRow {row : Row} {first : Nat} (width : Nat)
    (h : row.toList.map Prod.fst = List.range' first width) : Spans first (ofRow row) where
  columns := ⟨width, by
    rw [← h]
    simp only [Header.columns, ofRow, List.map_map]
    rfl⟩
  named name hname := by
    obtain ⟨field, hfield, rfl⟩ := List.mem_map.mp hname
    obtain ⟨p, -, rfl⟩ := List.mem_map.mp hfield
    exact isAllBlank_fieldName p.1 p.2

namespace Spans

variable {h : Header} {first : Nat} (hspans : Spans first h)

include hspans

/-- The columns ascend. -/
theorem ascending : h.columns.Pairwise (· < ·) := by
  obtain ⟨width, hcolumns⟩ := hspans.columns
  rw [hcolumns]
  exact List.pairwise_lt_range'

/-- **What lies before a column with a name has one as well.** -/
theorem mem_of_le {column earlier : Nat} (hcolumn : column ∈ h.columns) (hfirst : first ≤ earlier)
    (hle : earlier ≤ column) : earlier ∈ h.columns := by
  obtain ⟨width, hcolumns⟩ := hspans.columns
  rw [hcolumns, List.mem_range'_1] at hcolumn ⊢
  omega

end Spans

section Ascending

variable {h : Header} (hascending : h.columns.Pairwise (· < ·)) {column : Nat} {name : String}

include hascending

/-- The name that a header gives a column. -/
theorem nameOf_of_mem (hfield : (column, name) ∈ h.fields) : h.nameOf column = name := by
  have hkeys : (h.fields.map Prod.fst).Nodup := hascending.imp Nat.ne_of_lt
  rw [nameOf, (lookup_eq_some_iff_mem hkeys).mpr hfield, Option.getD_some]

/-- The column that is found is one of this name, and none of the others lies before it. -/
theorem isLeast_of_columnOf? (hfound : h.columnOf? name = some column) :
    IsLeast {c | (c, name) ∈ h.fields} column := by
  obtain ⟨⟨c, other⟩, hfind, rfl⟩ := Option.map_eq_some_iff.mp hfound
  obtain ⟨hname, before, behind, hfields, hbefore⟩ := List.find?_eq_some_iff_append.mp hfind
  have hname : other = name := by simpa using hname
  constructor
  · show (c, name) ∈ h.fields
    rw [hfields, ← hname]
    simp
  · intro d hd
    have hd : (d, name) ∈ before ++ (c, other) :: behind := hfields ▸ hd
    rcases List.mem_append.mp hd with hmem | hmem
    · exact absurd (hbefore _ hmem) (by simp)
    · rcases List.mem_cons.mp hmem with heq | hmem
      · exact Nat.le_of_eq (congrArg Prod.fst heq).symm
      · rw [columns, hfields, List.map_append, List.map_cons, List.pairwise_append] at hascending
        exact Nat.le_of_lt (List.rel_of_pairwise_cons hascending.2.1 (List.mem_map_of_mem hmem))

/-- **A name means the least of its columns.** -/
theorem columnOf?_eq_some :
    h.columnOf? name = some column ↔ IsLeast {c | (c, name) ∈ h.fields} column := by
  refine ⟨isLeast_of_columnOf? hascending, fun hleast => ?_⟩
  -- Some column is found, and there is only one that is the least.
  have hname : name ∈ h.names := List.mem_map_of_mem hleast.1
  obtain ⟨found, hfound⟩ := Option.isSome_iff_exists.mp (columnOf?_isSome.mpr hname)
  rw [hfound, (isLeast_of_columnOf? hascending hfound).unique hleast]

end Ascending

end Header

/-! ## The columns of rows -/

namespace Row

/-- The columns of a row that has all of them. -/
theorem map_fst_toList_of_all {row : Row} (hall : row.columns = none) :
    row.toList.map Prod.fst = List.range row.size := by
  rw [toList, hall]
  exact List.map_fst_zip (by simp)

/-- The columns of a row that has some of them. -/
theorem map_fst_toList_of_some {row : Row} {columns : List Nat} (hsome : row.columns = some columns)
    (hsize : row.size = columns.length) : row.toList.map Prod.fst = columns := by
  rw [toList, hsome]
  exact List.map_fst_zip (by rw [← hsize]; exact Nat.le_refl _)

end Row

namespace Cursor

/-- A row with a projection has a cell for each of its columns. -/
theorem size_decodeRow_projected {c : Cursor} {columns : List Nat} (hsome : c.projection = some columns)
    (hnodup : columns.Nodup) (raw : Sheet.RawRow) : (c.decodeRow raw).size = columns.length := by
  rw [decodeRow_projected hsome hnodup]
  simp [Row.size]

/-- **The columns of the rows to come**: those of the cursor, also in a row that it holds back. -/
structure Projects (columns : Option (List Nat)) (c : Cursor) : Prop where
  projection : c.projection = columns
  pending : ∀ held, c.pending = some held → held.columns = columns

namespace Projects

variable {columns : Option (List Nat)} {c : Cursor} (hc : c.Projects columns)

include hc

/-- Passing to a row in these columns. -/
theorem passTo {row : Row} (hrow : row.columns = columns) :
    (c.passTo row).1.columns = columns ∧ (c.passTo row).2.Projects columns := by
  unfold Cursor.passTo
  split
  · refine ⟨by rw [emptyRow_eq]; exact hc.projection, hc.projection, fun held hheld => ?_⟩
    rw [← Option.some.inj hheld]
    exact hrow
  · exact ⟨hrow, hc.projection, fun held hheld => by simp at hheld⟩

/-- A call that gives a row gives it in these columns. -/
theorem of_row {after : Cursor} {row : Row} (h : c.next = (.ok (some row), after)) :
    row.columns = columns ∧ after.Projects columns := by
  apply next_preserves (I := Projects columns) (P := fun row => row.columns = columns) (h := h)
  · intro c held hc hheld
    exact hc.pending held hheld
  · intro c raw reading hc _
    exact ⟨(c.decodeRow_columns raw).trans hc.projection, hc.projection, hc.pending⟩
  · intro c row hc hrow
    exact hc.passTo hrow
  · exact hc

/-- **Every call** keeps the columns, whatever it gives. -/
theorem next : c.next.2.Projects columns := by
  match h : c.next with
  | (.ok (some row), after) => exact (hc.of_row h).2
  | (.ok none, after) =>
    obtain ⟨reading, -, -, rfl⟩ := of_next_none h
    exact ⟨hc.projection, hc.pending⟩
  | (.error cause, after) =>
    obtain ⟨reading, -, -, rfl⟩ := of_next_error h
    exact ⟨hc.projection, hc.pending⟩

end Projects

end Cursor

/-! ## Records that are opened -/

/-- The column that is the first one to be read. -/
def firstColumnOf (range : Option Range) : Nat := (range.map (·.first.column)).getD 0

/-- No column before the range is read. -/
theorem firstColumnOf_le {columns : Option (List Nat)} {range : Option Range} {read : List Nat}
    (h : projectionOf columns range = some read) : ∀ column ∈ read, firstColumnOf range ≤ column := by
  intro column hmem
  cases range with
  | none => exact Nat.zero_le column
  | some r => exact (((mem_projectionOf h).mp hmem).1 r rfl).1

/-- **The header that is read** in all columns of the range. -/
theorem Rows.spans_headerOf {c : Cursor} {range : Option Range}
    (hprojection : c.projection = projectionOf none range) (headerRow : Nat)
    (read : Option Sheet.RawRow) :
    (headerOf headerRow (read.map c.decodeRow)).Spans (firstColumnOf range) := by
  cases read with
  | none => exact Header.spans_empty _ _
  | some raw =>
    cases range with
    | none =>
      refine Header.spans_ofRow (c.decodeRow raw).size ?_
      rw [Row.map_fst_toList_of_all ((c.decodeRow_columns raw).trans hprojection), List.range_eq_range']
      rfl
    | some r =>
      -- A row in the columns of the range has a cell for each of them, stored or not.
      refine Header.spans_ofRow (r.last.column + 1 - r.first.column) ?_
      have hnodup : r.columns.Nodup := @projectionOf_nodup none (some r) r.columns rfl
      exact Row.map_fst_toList_of_some ((c.decodeRow_columns raw).trans hprojection)
        (Cursor.size_decodeRow_projected hprojection hnodup raw)

/-- Records are rows below a header. -/
theorem SheetReader.records_eq_ok {r : SheetReader} {w : Workbook} {records : Records}
    (h : r.records w = .ok records) :
    ∃ headerRow, Rows.openBelow w r.options headerRow = .ok records.rows ∧
      records.rows.header = some records.header := by
  cases hrow : r.options.headerRow with
  | none => simp [SheetReader.records, hrow] at h
  | some headerRow =>
    refine ⟨headerRow, ?_⟩
    simp only [SheetReader.records, hrow, Option.isNone_some, Bool.false_eq_true, if_false] at h
    obtain ⟨rows, hrows, h⟩ := bind_eq_ok.mp h
    have hopen : Rows.openBelow w r.options headerRow = .ok rows := by
      rw [← hrows, SheetReader.rows, hrow]
    cases hheader : rows.header with
    | none =>
      rw [hheader] at h
      cases h
    | some header =>
      rw [hheader] at h
      obtain rfl := Except.ok.inj h
      exact ⟨hopen, hheader⟩

/-- **The header and the columns of records** that are opened. The header is that of all columns in
the range; those that it resolves are then read. -/
theorem SheetReader.opened_records {r : SheetReader} {w : Workbook} {records : Records}
    (h : r.records w = .ok records) :
    records.header.Spans (firstColumnOf r.options.range) ∧
      ∃ columns, resolveColumns (some records.header) r.options.columns = .ok columns ∧
        records.rows.cursor.Projects (projectionOf columns r.options.range) := by
  obtain ⟨headerRow, hopen, hheader⟩ := records_eq_ok h
  obtain ⟨sheet, s, reading, dimension, start, -, -, -, hstart, read, later, cells, columns, header, -,
    hread, hcolumns, hrows⟩ := Rows.eq_of_openBelow hopen
  have hpending : start.pending = none := by rw [hstart]; rfl
  have hrange : start.range = r.options.range := by rw [hstart]; rfl
  have hprojection : start.projection = projectionOf none r.options.range := by rw [hstart]; rfl
  have hsame : records.header = header := by
    rw [hrows] at hheader
    exact (Option.some.inj hheader).symm
  rw [hsame]
  refine ⟨hread ▸ Rows.spans_headerOf hprojection headerRow read, columns, hcolumns, ?_⟩
  rw [hrows]
  constructor
  case projection => exact congrArg (projectionOf columns) hrange
  case pending =>
    intro held hheld
    simp [Rows.readingOn_pending (c := start.advanced later cells) hpending] at hheld

/-- **Every record** has the header of its records, and a row in the columns of their cursor. -/
theorem Records.of_call {records : Records} {columns : Option (List Nat)}
    (hcursor : records.rows.cursor.Projects columns) {n : Nat} {record : Record}
    (h : call Records.next n records = .ok (some record)) :
    record.header = records.header ∧ record.row.columns = columns := by
  -- Calls change neither the header nor the columns, so both are still those of the first call.
  have hkept : (behindCalls Records.next n records).header = records.header ∧
      (behindCalls Records.next n records).rows.cursor.Projects columns :=
    behindCalls_keeps
      (I := fun s : Records => s.header = records.header ∧ s.rows.cursor.Projects columns)
      (fun s hs => ⟨hs.1, hs.2.next⟩) ⟨rfl, hcursor⟩ n
  obtain ⟨s, hs⟩ : ∃ s, s = behindCalls Records.next n records := ⟨_, rfl⟩
  rw [call, ← hs, next_eq, Rows.next_eq] at h
  rw [← hs] at hkept
  rcases hrow : s.rows.cursor.next with ⟨cause | _ | row, after⟩
  · simp [hrow, Except.map, Except.mapError] at h
  · simp [hrow, Except.map, Except.mapError] at h
  · have hrecord : (⟨s.header, row⟩ : Record) = record := by
      simpa [hrow, Except.map, Except.mapError] using h
    rw [← hrecord]
    exact ⟨hkept.1, (hkept.2.of_row hrow).1⟩

end Xlsx
