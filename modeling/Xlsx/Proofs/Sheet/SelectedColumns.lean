import Mathlib.Data.List.GetD
import Xlsx.Proofs.Sheet.RecordViews

/-! # Rows in the columns that are selected

A column is looked up by halving: among the columns of a cursor, when cells are put into a row or left
out, and among those of a row, when one of its cells is asked for. That is right as long as the columns
ascend and a row has one cell for each of them, which is so wherever a cursor has come, also where its
columns were replaced below a header. What is selected is then a set: in which order and how often
columns are asked for, and whether by numbers, letters or names, makes no difference.

* **`Column.search?`**: halving; `Column.search?_eq_idxOf?` says what it finds in ascending columns.
* **`Row.WellFormed`**, **`Row.Shows`**: the form of a row, and what follows for those who read it.
* **`Cursor.Reached`**, **`Cursor.Regular`**: wherever a cursor has come, and what holds there.
* **`Cursor.Reached.ahead`**: there, a row that is held back is one that is not yet due.
* **`projectionOf_congr`**, **`SheetReader.rows_congr`**: selections of the same columns.
* **`Cursor.formed_and_determined`**: all of it together. -/

namespace Xlsx

/-! ## Looking a column up -/

namespace Column

/-- **Halving**: the only place among `size` columns from place `first` on where a column can stand. The
half that cannot hold it is left out until one place is left. -/
def bisect (columns : List Nat) (column first size : Nat) : Nat :=
  if size ≤ 1 then first
  else if column < columns.getD (first + size / 2) 0 then
    bisect columns column first (size - size / 2)
  else bisect columns column (first + size / 2) (size - size / 2)
termination_by size
decreasing_by all_goals omega

/-- The place of a column, found by halving. -/
def search? (columns : List Nat) (column : Nat) : Option Nat :=
  let place := bisect columns column 0 columns.length
  if columns[place]? = some column then some place else none

section Ascending

variable {columns : List Nat} (hascending : columns.Pairwise (· < ·))

include hascending

/-- Halving does not lose a column that stands among the places that are left. -/
theorem bisect_eq {column place : Nat} (hplace : columns[place]? = some column) {first size : Nat}
    (hsize : first + size ≤ columns.length) (hfirst : first ≤ place) (hlast : place < first + size) :
    bisect columns column first size = place := by
  obtain ⟨hlt, hcolumn⟩ := List.getElem?_eq_some_iff.mp hplace
  have hless := List.pairwise_iff_getElem.mp hascending
  fun_induction bisect columns column first size with
  | case1 first size hone => omega
  | case2 first size hmany hbefore ih =>
    -- The column is less than the one in the middle, so it stands before that.
    have hmiddle : first + size / 2 < columns.length := by omega
    rw [List.getD_eq_getElem _ _ hmiddle] at hbefore
    have hplace : place < first + size / 2 := by
      by_contra hnot
      rcases Nat.lt_or_eq_of_le (Nat.not_lt.mp hnot) with hbehind | heq
      · have := hless _ _ hmiddle hlt hbehind
        omega
      · simp only [heq, hcolumn] at hbefore
        omega
    exact ih (by omega) (by omega) (by omega)
  | case3 first size hmany hbehind ih =>
    have hmiddle : first + size / 2 < columns.length := by omega
    rw [List.getD_eq_getElem _ _ hmiddle] at hbehind
    have hplace : first + size / 2 ≤ place := by
      by_contra hnot
      have := hless _ _ hlt hmiddle (Nat.not_le.mp hnot)
      omega
    exact ih (by omega) (by omega) (by omega)

/-- **In ascending columns halving finds** what looking through all of them finds. -/
theorem search?_eq_idxOf? (column : Nat) : search? columns column = columns.idxOf? column := by
  cases hfound : columns.idxOf? column with
  | some place =>
    obtain ⟨hlt, hcolumn, -⟩ := List.idxOf?_eq_some_iff.mp hfound
    have hplace : columns[place]? = some column := by rw [List.getElem?_eq_getElem hlt, hcolumn]
    have hbisect : bisect columns column 0 columns.length = place :=
      bisect_eq hascending hplace (by omega) (by omega) (by omega)
    simp only [search?, hbisect, if_pos hplace]
  | none =>
    have hnot := List.idxOf?_eq_none_iff.mp hfound
    simp only [search?]
    rw [if_neg fun hplace => hnot (List.mem_of_getElem? hplace)]

end Ascending

-- In columns that do not ascend the first one can be missed.
example : search? [7, 3, 5] 7 = none ∧ search? [3, 5, 7] 7 = some 2 := by decide +kernel

end Column

/-! ## The form of a row -/

namespace Row

/-- **The form of a row**: if it has only some columns, these ascend, and there is a cell for each. -/
structure WellFormed (row : Row) : Prop where
  ascending : ∀ columns ∈ row.columns, columns.Pairwise (· < ·)
  size : ∀ columns ∈ row.columns, row.size = columns.length

/-- **What a row shows** in the columns of its cursor, or in all columns. -/
structure Shows (projection : Option (List Nat)) (row : Row) : Prop where
  columns : row.columns = projection
  ascending : ∀ columns ∈ projection, columns.Pairwise (· < ·)
  /-- There are as many cells as columns. -/
  size : ∀ columns ∈ projection, row.size = columns.length
  /-- A cell is found in these columns and in no other ones. -/
  found : ∀ columns ∈ projection, ∀ column, (row.get? column).isSome = true ↔ column ∈ columns
  /-- It is found where halving says that it stands. -/
  searched : ∀ columns ∈ projection, ∀ column,
    row.get? column = (Column.search? columns column).bind fun place => row.cells[place]?
  /-- In all columns a cell is found up to the last one that is stored. -/
  foundInAll : projection = none → ∀ column, (row.get? column).isSome = true ↔ column < row.size
  /-- Each column is listed once, in ascending order. -/
  listed : row.toList.map Prod.fst = projection.getD (List.range row.size)
  /-- With the cell that is found. -/
  cells : ∀ p ∈ row.toList, row.get? p.1 = some p.2

section Some

variable {row : Row} {columns : List Nat} (hsome : row.columns = some columns)

include hsome

/-- A row with as many cells as columns has a cell in each of these. -/
theorem get?_isSome_of_some (hsize : row.size = columns.length) {column : Nat} :
    (row.get? column).isSome = true ↔ column ∈ columns := by
  simp only [get?, hsome]
  cases hplace : columns.idxOf? column with
  | none => simpa using List.idxOf?_eq_none_iff.mp hplace
  | some place =>
    obtain ⟨hlt, hcolumn, -⟩ := List.idxOf?_eq_some_iff.mp hplace
    have hcell : place < row.cells.size := Nat.lt_of_lt_of_eq hlt hsize.symm
    have hmem : column ∈ columns := hcolumn ▸ List.getElem_mem hlt
    simp [hcell, hmem]

/-- The cells of a row are those that are found, if no column comes twice. -/
theorem get?_of_mem_toList_of_some (hnodup : columns.Nodup) {p : Nat × Cell} (hmem : p ∈ row.toList) :
    row.get? p.1 = some p.2 := by
  rw [toList, hsome, List.mem_iff_getElem?] at hmem
  obtain ⟨place, hp⟩ := hmem
  obtain ⟨hcolumn, hcell⟩ := List.getElem?_zip_eq_some.mp hp
  obtain ⟨hlt, hcolumn⟩ := List.getElem?_eq_some_iff.mp hcolumn
  have hplace : columns.idxOf? p.1 = some place := by
    rw [← hcolumn, List.idxOf?_eq_some_iff]
    refine ⟨hlt, rfl, fun other hother heq => ?_⟩
    exact absurd (hnodup.getElem_inj_iff.mp heq) (Nat.ne_of_lt hother)
  simp only [get?, hsome, hplace]
  simpa using hcell

end Some

/-- **A row of this form shows its columns.** -/
theorem WellFormed.shows {row : Row} (hrow : row.WellFormed) : row.Shows row.columns where
  columns := rfl
  ascending := hrow.ascending
  size := hrow.size
  found columns hcolumns column := get?_isSome_of_some hcolumns (hrow.size columns hcolumns)
  searched columns hcolumns column := by
    rw [Column.search?_eq_idxOf? (hrow.ascending columns hcolumns), get?, Option.mem_def.mp hcolumns]
  foundInAll hall column := by
    rw [get?, hall]
    simp [Row.size]
  listed := by
    cases hcolumns : row.columns with
    | none => exact map_fst_toList_of_all hcolumns
    | some columns => exact map_fst_toList_of_some hcolumns (hrow.size columns hcolumns)
  cells p hp := by
    cases hcolumns : row.columns with
    | none => exact (mem_toList_of_all hcolumns).mp hp
    | some columns =>
      have hnodup : columns.Nodup := (hrow.ascending columns hcolumns).imp Nat.ne_of_lt
      exact get?_of_mem_toList_of_some hcolumns hnodup hp

end Row

/-! ## Wherever a cursor has come -/

/-- **A column that options select**: one of the range that is asked for. Without a range, or if none are
asked for, each column counts as such. -/
def CursorOptions.Selects (o : CursorOptions) (column : Nat) : Prop :=
  (∀ range ∈ o.range, range.first.column ≤ column ∧ column ≤ range.last.column) ∧
    ∀ asked ∈ o.columns, column ∈ asked

namespace Cursor

/-- **Wherever a cursor has come** with some options: from the start of a sheet by calls, by starting at
another row, by filling gaps or not, and by other columns, as long as no row is held back in the ones
before. -/
inductive Reached : CursorOptions → Cursor → Prop
  | opened {sheet : Sheet} {decoder : Decoder} {s : Markup.Stream} {o : CursorOptions} {c : Cursor}
      (h : ofStream? sheet decoder o s = .ok c) : Reached o c
  | next {o : CursorOptions} {c : Cursor} (h : Reached o c) : Reached o c.next.2
  | startingAt {o : CursorOptions} {c : Cursor} (row : Nat) (h : Reached o c) :
      Reached o (c.startingAt row)
  | withDense {o : CursorOptions} {c : Cursor} (dense : Bool) (h : Reached o c) :
      Reached { o with dense } { c with dense }
  | withColumns {o : CursorOptions} {c : Cursor} (columns : Option (List Nat)) (h : Reached o c)
      (hpending : c.pending = none) : Reached { o with columns } (c.withColumns columns)

/-- **What holds wherever a cursor has come**: it reads the columns that its options select, and a row
that it holds back is of the form that a row must have. -/
structure Regular (o : CursorOptions) (c : Cursor) : Prop where
  projects : c.Projects (projectionOf o.columns o.range)
  range : c.range = o.range
  held : ∀ held, c.pending = some held → held.WellFormed

/-- A row that is missing is of the form that a row must have. -/
theorem wellFormed_emptyRow {c : Cursor}
    (hascending : ∀ columns ∈ c.projection, columns.Pairwise (· < ·)) (index : Nat) :
    (c.emptyRow index).WellFormed := by
  rw [emptyRow_eq]
  constructor
  case ascending => exact hascending
  case size =>
    intro columns hcolumns
    have hcolumns : c.projection = some columns := hcolumns
    simp [Row.size, hcolumns]

/-- And so is one that is read. -/
theorem wellFormed_decodeRow {c : Cursor}
    (hascending : ∀ columns ∈ c.projection, columns.Pairwise (· < ·)) (raw : Sheet.RawRow) :
    (c.decodeRow raw).WellFormed := by
  constructor
  case ascending =>
    rw [decodeRow_columns]
    exact hascending
  case size =>
    rw [decodeRow_columns]
    intro columns hcolumns
    exact size_decodeRow_projected hcolumns ((hascending columns hcolumns).imp Nat.ne_of_lt) raw

namespace Regular

variable {o : CursorOptions} {c : Cursor} (hc : c.Regular o)

include hc

/-- A cursor that stands elsewhere in the sheet is regular too. -/
theorem congr {c' : Cursor} (hprojection : c'.projection = c.projection) (hrange : c'.range = c.range)
    (hpending : c'.pending = c.pending) : c'.Regular o := by
  constructor
  case projects =>
    refine ⟨hprojection.trans hc.projects.projection, fun held hheld => ?_⟩
    exact hc.projects.pending held (hpending.symm.trans hheld)
  case range => exact hrange.trans hc.range
  case held => exact fun held hheld => hc.held held (hpending.symm.trans hheld)

/-- The columns that are read ascend. -/
theorem ascending : ∀ columns ∈ c.projection, columns.Pairwise (· < ·) := by
  intro columns hcolumns
  exact projectionOf_ascending (hc.projects.projection.symm.trans hcolumns)

/-- Passing to a row of the form that a row must have. -/
theorem passTo {row : Row} (hrow : row.WellFormed)
    (hcolumns : row.columns = projectionOf o.columns o.range) :
    (c.passTo row).1.WellFormed ∧ (c.passTo row).2.Regular o := by
  have hprojects := (hc.projects.passTo hcolumns).2
  unfold Cursor.passTo at hprojects ⊢
  split at hprojects
  · rename_i hdue
    rw [if_pos hdue]
    refine ⟨wellFormed_emptyRow hc.ascending _, hprojects, hc.range, fun held hheld => ?_⟩
    rw [← Option.some.inj hheld]
    exact hrow
  · rename_i hdue
    rw [if_neg hdue]
    exact ⟨hrow, hprojects, hc.range, fun held hheld => by simp at hheld⟩

/-- **A call that gives a row** gives it in the columns of the cursor and of the form that a row must
have. -/
theorem of_row {after : Cursor} {row : Row} (h : c.next = (.ok (some row), after)) :
    (row.WellFormed ∧ row.columns = projectionOf o.columns o.range) ∧ after.Regular o := by
  apply next_preserves (I := Regular o)
    (P := fun row => row.WellFormed ∧ row.columns = projectionOf o.columns o.range) (h := h)
  · intro c held hc hheld
    exact ⟨hc.held held hheld, hc.projects.pending held hheld⟩
  · intro c raw reading hc _
    have hcolumns := (c.decodeRow_columns raw).trans hc.projects.projection
    exact ⟨⟨wellFormed_decodeRow hc.ascending raw, hcolumns⟩, hc.congr rfl rfl rfl⟩
  · intro c row hc hrow
    obtain ⟨hform, hafter⟩ := hc.passTo hrow.1 hrow.2
    exact ⟨⟨hform, (hc.projects.passTo hrow.2).1⟩, hafter⟩
  · exact hc

/-- **Every call** leaves a cursor regular, whatever it gives. -/
theorem next : c.next.2.Regular o := by
  match h : c.next with
  | (.ok (some row), after) => exact (hc.of_row h).2
  | (.ok none, after) =>
    obtain ⟨reading, -, -, rfl⟩ := of_next_none h
    exact hc.congr rfl rfl rfl
  | (.error cause, after) =>
    obtain ⟨reading, -, -, rfl⟩ := of_next_error h
    exact hc.congr rfl rfl rfl

/-- A cursor that starts at another row still holds a row back only if it did so before. -/
theorem startingAt (row : Nat) : (c.startingAt row).Regular o := by
  have hbefore : ∀ {held}, (c.startingAt row).pending = some held → c.pending = some held :=
    fun hheld => (Option.filter_eq_some_iff.mp hheld).1
  constructor
  case projects =>
    exact ⟨hc.projects.projection, fun held hheld => hc.projects.pending held (hbefore hheld)⟩
  case range => exact hc.range
  case held => exact fun held hheld => hc.held held (hbefore hheld)

/-- **Other columns** take effect within the same range, and no row is left that has the ones before. -/
theorem withColumns (columns : Option (List Nat)) (hpending : c.pending = none) :
    (c.withColumns columns).Regular { o with columns } := by
  have hnone : ∀ held, (c.withColumns columns).pending ≠ some held :=
    fun held hheld => nomatch hpending.symm.trans hheld
  constructor
  case projects =>
    exact ⟨congrArg (projectionOf columns) hc.range, fun held hheld => absurd hheld (hnone held)⟩
  case range => exact hc.range
  case held => exact fun held hheld => absurd hheld (hnone held)

end Regular

/-- **Wherever a cursor has come** it is regular. -/
theorem Reached.regular {o : CursorOptions} {c : Cursor} (h : c.Reached o) : c.Regular o := by
  induction h with
  | opened h =>
    obtain ⟨reading, dimension, -, rfl⟩ := ofStream?_eq_ok h
    exact ⟨⟨rfl, fun held hheld => nomatch hheld⟩, rfl, fun held hheld => nomatch hheld⟩
  | next h ih => exact ih.next
  | startingAt row h ih => exact ih.startingAt row
  | withDense dense h ih =>
    exact ⟨⟨ih.projects.projection, ih.projects.pending⟩, ih.range, ih.held⟩
  | withColumns columns h hpending ih => exact ih.withColumns columns hpending

/-- **Wherever a cursor has come** the row that it holds back is ahead of what is due. -/
theorem Reached.ahead {o : CursorOptions} {c : Cursor} (h : c.Reached o) : c.Ahead := by
  induction h with
  | opened h =>
    obtain ⟨reading, dimension, -, rfl⟩ := ofStream?_eq_ok h
    exact ahead_of_pending rfl
  | next h ih => exact ahead_next _
  | startingAt row h ih => exact ahead_startingAt _ row
  | withDense dense h ih => exact ih
  | withColumns columns h hpending ih => exact ih

/-- **What can be relied on wherever a cursor has come.** -/
structure Formed (o : CursorOptions) (c : Cursor) : Prop where
  /-- All columns are read if neither columns nor a range are asked for. -/
  all : c.projection = none ↔ o.columns = none ∧ o.range = none
  /-- Otherwise those that are selected are. -/
  selected : ∀ columns ∈ c.projection, ∀ column, column ∈ columns ↔ o.Selects column
  /-- They are found by halving, where they stand. -/
  searched : ∀ columns ∈ c.projection, ∀ column,
    Column.search? columns column = columns.idxOf? column
  /-- A row that is given shows them, whether it is read or filled in. -/
  rows : ∀ row, c.next.1 = .ok (some row) → row.Shows c.projection

/-- It holds of a cursor that is regular. -/
theorem Regular.formed {o : CursorOptions} {c : Cursor} (hc : c.Regular o) : c.Formed o where
  all := by rw [hc.projects.projection, projectionOf_eq_none]
  selected columns hcolumns column := mem_projectionOf (hc.projects.projection.symm.trans hcolumns)
  searched columns hcolumns := Column.search?_eq_idxOf? (hc.ascending columns hcolumns)
  rows row hgiven := by
    obtain ⟨hform, hcolumns⟩ := (hc.of_row (Prod.ext hgiven rfl)).1
    rw [hc.projects.projection, ← hcolumns]
    exact hform.shows

end Cursor

/-! ## Cursors of readers -/

/-- **Where the rows of a reader come from.** -/
structure SheetReader.Selected (r : SheetReader) (rows : Rows) : Prop where
  /-- The header is the first row that a cursor gives in all columns of the range. -/
  header : ∀ headerRow ∈ r.options.headerRow, ∃ (c : Cursor) (found : Option Row),
    c.Reached { range := r.options.range } ∧ c.next.1 = .ok found ∧
      rows.header = some (Rows.headerOf headerRow found)
  /-- The cursor then is one with the columns that the keys mean below that header. -/
  cursor : ∃ columns, resolveColumns rows.header r.options.columns = .ok columns ∧
    rows.cursor.Reached { columns, dense := r.options.dense, range := r.options.range }

/-- A sheet that is opened gives a cursor at its start. -/
theorem Workbook.reached_of_openSheet {w : Workbook} {selector : SheetSelector} {o : CursorOptions}
    {c : Cursor} (h : w.openSheet selector o = .ok c) : c.Reached o := by
  obtain ⟨sheet, -, h⟩ := bind_eq_ok.mp h
  obtain ⟨s, -, h⟩ := bind_eq_ok.mp h
  exact .opened (mapError_eq_ok.mp h)

/-- **The rows of a reader** come from cursors in the columns that are selected. -/
theorem SheetReader.selected_of_rows {r : SheetReader} {w : Workbook} {rows : Rows}
    (h : r.rows w = .ok rows) : r.Selected rows := by
  unfold SheetReader.rows at h
  split at h
  · rename_i hnone
    obtain ⟨hheader, columns, hcolumns, hopen⟩ := Rows.openPlain_eq_ok.mp h
    constructor
    case header =>
      intro headerRow hrow
      simp [hnone] at hrow
    case cursor =>
      rw [hheader]
      exact ⟨columns, hcolumns, Workbook.reached_of_openSheet hopen⟩
  · rename_i headerRow hsome
    obtain ⟨c, found, after, columns, hopen, hnext, hcolumns, rfl⟩ := Rows.steps_of_openBelow h
    have hstart : (c.startingAt headerRow).Reached { range := r.options.range } :=
      .startingAt headerRow (Workbook.reached_of_openSheet hopen)
    have hafter : after.Reached { range := r.options.range } := by
      have hcall := hstart.next
      rwa [hnext] at hcall
    have hpending : after.pending = none := by
      -- A row is held back only where gaps are filled, which is not done before a header.
      obtain ⟨sheet, s, reading, dimension, -, -, -, rfl⟩ := Workbook.openSheet_eq_ok hopen
      obtain ⟨read, later, -, -, rfl⟩ := Cursor.of_next_sparse rfl rfl hnext
      rfl
    constructor
    case header =>
      intro same hsame
      obtain rfl : headerRow = same := Option.some.inj (hsome.symm.trans hsame)
      exact ⟨_, found, hstart, by rw [hnext], rfl⟩
    case cursor =>
      refine ⟨columns, hcolumns, ?_⟩
      exact .startingAt _ (.withDense r.options.dense (.withColumns columns hafter hpending))

/-! ## Selections of the same columns -/

section Selects

variable {o : CursorOptions}

/-- Where all columns are read, each is selected. -/
theorem CursorOptions.selects_of_all (h : projectionOf o.columns o.range = none) (column : Nat) :
    o.Selects column := by
  obtain ⟨hcolumns, hrange⟩ := projectionOf_eq_none.mp h
  simp [Selects, hcolumns, hrange]

/-- Where some columns are read, there is one that is not selected. -/
theorem CursorOptions.exists_not_selects {read : List Nat}
    (h : projectionOf o.columns o.range = some read) : ∃ column, ¬ o.Selects column := by
  obtain ⟨column, hnot⟩ := Infinite.exists_notMem_finset read.toFinset
  refine ⟨column, fun hselects => hnot ?_⟩
  exact List.mem_toFinset.mpr ((mem_projectionOf h).mpr hselects)

/-- **Options that select the same columns** are read in the same columns, in the same order. -/
theorem projectionOf_congr {o' : CursorOptions} (h : ∀ column, o.Selects column ↔ o'.Selects column) :
    projectionOf o.columns o.range = projectionOf o'.columns o'.range := by
  cases hread : projectionOf o.columns o.range with
  | none =>
    cases hread' : projectionOf o'.columns o'.range with
    | none => rfl
    | some read' =>
      obtain ⟨column, hnot⟩ := CursorOptions.exists_not_selects hread'
      exact absurd ((h column).mp (CursorOptions.selects_of_all hread column)) hnot
  | some read =>
    cases hread' : projectionOf o'.columns o'.range with
    | none =>
      obtain ⟨column, hnot⟩ := CursorOptions.exists_not_selects hread
      exact absurd ((h column).mpr (CursorOptions.selects_of_all hread' column)) hnot
    | some read' =>
      have hmem : ∀ column, column ∈ read ↔ column ∈ read' := fun column =>
        (mem_projectionOf hread).trans ((h column).trans (mem_projectionOf hread').symm)
      rw [(projectionOf_ascending hread).eq_of_mem_iff (projectionOf_ascending hread') hmem]

/-- **A cursor is the same** with columns that select the same. -/
theorem Cursor.ofStream?_congr {o' : CursorOptions} (hdense : o'.dense = o.dense)
    (hrange : o'.range = o.range) (h : ∀ column, o'.Selects column ↔ o.Selects column) (sheet : Sheet)
    (decoder : Decoder) (s : Markup.Stream) :
    ofStream? sheet decoder o' s = ofStream? sheet decoder o s := by
  have hprojection := projectionOf_congr h
  rw [hrange] at hprojection
  rw [ofStream?_eq, ofStream?_eq]
  simp only [opened, hprojection, hdense, hrange]

/-- And so is the one that a workbook opens. -/
theorem Workbook.openSheet_congr {o' : CursorOptions} (hdense : o'.dense = o.dense)
    (hrange : o'.range = o.range) (h : ∀ column, o'.Selects column ↔ o.Selects column) (w : Workbook)
    (selector : SheetSelector) : w.openSheet selector o' = w.openSheet selector o := by
  unfold openSheet
  simp only [Cursor.ofStream?_congr hdense hrange h]

end Selects

/-- **Keys that mean the same columns** below a header, as far as they lie in a range. -/
def ColumnKey.SameColumns (header : Option Header) (range : Option Range)
    (keys keys' : Option (List ColumnKey)) : Prop :=
  ∃ columns columns', resolveColumns header keys = .ok columns ∧
    resolveColumns header keys' = .ok columns' ∧
    ∀ column, CursorOptions.Selects { columns := columns', range } column ↔
      CursorOptions.Selects { columns, range } column

namespace Rows

variable {w : Workbook} {o : ReadOptions} {keys : Option (List ColumnKey)} {rows : Rows}

/-- Keys that mean the same columns give the same rows without a header. -/
theorem openPlain_congr (h : openPlain w o = .ok rows)
    (hsame : ColumnKey.SameColumns rows.header o.range o.columns keys) :
    openPlain w { o with columns := keys } = .ok rows := by
  obtain ⟨hheader, columns, hcolumns, hopen⟩ := openPlain_eq_ok.mp h
  rw [hheader] at hsame
  obtain ⟨asked, asked', hasked, hasked', hselects⟩ := hsame
  obtain rfl : columns = asked := Except.ok.inj (hcolumns.symm.trans hasked)
  have hsheet : w.openSheet o.sheet { columns := asked', dense := o.dense, range := o.range } =
      w.openSheet o.sheet { columns, dense := o.dense, range := o.range } := by
    apply Workbook.openSheet_congr
    case hdense => rfl
    case hrange => rfl
    case h => exact hselects
  exact openPlain_eq_ok.mpr ⟨hheader, asked', hasked', hsheet.trans hopen⟩

/-- **Keys that mean the same columns give the same rows below a header**, which is read before they
are resolved. -/
theorem openBelow_congr {headerRow : Nat} (h : openBelow w o headerRow = .ok rows)
    (hsame : ColumnKey.SameColumns rows.header o.range o.columns keys) :
    openBelow w { o with columns := keys } headerRow = .ok rows := by
  obtain ⟨c, found, after, columns, hopen, hnext, hcolumns, rfl⟩ := steps_of_openBelow h
  obtain ⟨asked, asked', hasked, hasked', hselects⟩ := hsame
  obtain rfl : columns = asked := Except.ok.inj (hcolumns.symm.trans hasked)
  have hrange : after.range = o.range := by
    have hafter := ((Workbook.reached_of_openSheet hopen).startingAt headerRow).next.regular.range
    rwa [hnext] at hafter
  have hprojection : projectionOf asked' after.range = projectionOf columns after.range := by
    rw [hrange]
    exact projectionOf_congr hselects
  rw [openBelow_eq (o := { o with columns := keys }) hopen hnext, hasked']
  simp only [Except.map, readingOn, Cursor.withColumns, hprojection]

end Rows

/-! ## Failing alike -/

/-- **A sheet that cannot be opened** cannot be opened with other options either, for the same reason. -/
theorem Workbook.openSheet_error_congr {w : Workbook} {selector : SheetSelector} {o o' : CursorOptions}
    {cause : Error} (h : w.openSheet selector o = .error cause) :
    w.openSheet selector o' = .error cause := by
  rcases bind_eq_error.mp h with hresolve | ⟨sheet, hsheet, h⟩
  · exact bind_eq_error.mpr (.inl hresolve)
  refine bind_eq_error.mpr (.inr ⟨sheet, hsheet, ?_⟩)
  rcases bind_eq_error.mp h with hscan | ⟨s, hscan, h⟩
  · exact bind_eq_error.mpr (.inl hscan)
  refine bind_eq_error.mpr (.inr ⟨s, hscan, ?_⟩)
  -- Opening reads what stands before the rows, which the options have nothing to do with.
  obtain ⟨other, hopen, rfl⟩ := mapError_eq_error.mp h
  rw [Cursor.ofStream?_eq, map_eq_error] at hopen
  refine mapError_eq_error.mpr ⟨other, ?_, rfl⟩
  rw [Cursor.ofStream?_eq, map_eq_error]
  exact hopen

/-- Columns that make sense are resolved without a header if none is asked for. -/
theorem ReadOptions.MakesSense.resolveColumns {o : ReadOptions} (ho : o.MakesSense)
    (hnone : o.headerRow = none) : ∃ columns, Xlsx.resolveColumns none o.columns = .ok columns := by
  cases hcolumns : Xlsx.resolveColumns none o.columns with
  | ok columns => exact ⟨columns, rfl⟩
  | error cause =>
    obtain ⟨keys, hkeys, name, hkey, -⟩ := unknown_of_resolveColumns ho hcolumns
    exact absurd hnone (ho.columns keys hkeys _ hkey)

namespace Rows

variable {w : Workbook} {o : ReadOptions} {keys : Option (List ColumnKey)} {cause : Error}
  (ho : o.MakesSense)

include ho

/-- Without a header other keys fail for the same reason. -/
theorem openPlain_error_congr (hnone : o.headerRow = none)
    (hkeys : ReadOptions.MakesSense { o with columns := keys }) (h : openPlain w o = .error cause) :
    openPlain w { o with columns := keys } = .error cause := by
  rcases bind_eq_error.mp h with hcolumns | ⟨columns, -, h⟩
  · obtain ⟨columns, hresolved⟩ := ho.resolveColumns hnone
    exact nomatch hresolved.symm.trans hcolumns
  rcases bind_eq_error.mp h with hopen | ⟨c, -, h⟩
  · obtain ⟨columns, hresolved⟩ := hkeys.resolveColumns hnone
    refine bind_eq_error.mpr (.inr ⟨columns, hresolved, ?_⟩)
    exact bind_eq_error.mpr (.inl (Workbook.openSheet_error_congr hopen))
  · exact nomatch h

/-- **Below a header other keys fail for the same reason**, unless a name is unknown. -/
theorem openBelow_error_congr {headerRow : Nat} (hknown : ∀ name, cause ≠ .unknownColumn name)
    (h : openBelow w o headerRow = .error cause) :
    openBelow w { o with columns := keys } headerRow = .error cause := by
  rcases bind_eq_error.mp h with hopen | ⟨c, hopen, h⟩
  · exact bind_eq_error.mpr (.inl hopen)
  refine bind_eq_error.mpr (.inr ⟨c, hopen, ?_⟩)
  rcases bind_eq_error.mp h with hnext | ⟨found, -, h⟩
  · exact bind_eq_error.mpr (.inl hnext)
  rcases bind_eq_error.mp h with hcolumns | ⟨columns, -, h⟩
  · obtain ⟨-, -, name, -, hunknown⟩ := ReadOptions.unknown_of_resolveColumns ho hcolumns
    exact absurd hunknown (hknown name)
  · exact nomatch h

end Rows

namespace SheetReader

variable {r r' : SheetReader} {w : Workbook}
  (hoptions : r'.options = { r.options with columns := r'.options.columns })

include hoptions

/-- **Readers whose keys mean the same columns give the same rows.** -/
theorem rows_congr {rows : Rows} (h : r.rows w = .ok rows)
    (hsame : ColumnKey.SameColumns rows.header r.options.range r.options.columns r'.options.columns) :
    r'.rows w = .ok rows := by
  have hrow : r'.options.headerRow = r.options.headerRow := by rw [hoptions]
  unfold SheetReader.rows at h ⊢
  rw [hrow, hoptions]
  cases hheader : r.options.headerRow with
  | none =>
    rw [hheader] at h
    exact Rows.openPlain_congr h hsame
  | some headerRow =>
    rw [hheader] at h
    exact Rows.openBelow_congr h hsame

/-- **And they fail alike**, unless a name is unknown. -/
theorem rows_error_congr {cause : Error} (hknown : ∀ name, cause ≠ .unknownColumn name)
    (h : r.rows w = .error cause) : r'.rows w = .error cause := by
  have ho := ReadOptions.check_eq_ok.mp r.check_options
  have ho' := ReadOptions.check_eq_ok.mp r'.check_options
  have hrow : r'.options.headerRow = r.options.headerRow := by rw [hoptions]
  unfold SheetReader.rows at h ⊢
  rw [hrow]
  rw [hoptions] at ho' ⊢
  cases hheader : r.options.headerRow with
  | none =>
    rw [hheader] at h
    exact Rows.openPlain_error_congr ho hheader ho' h
  | some headerRow =>
    rw [hheader] at h
    exact Rows.openBelow_error_congr ho hknown h

end SheetReader

/-- **Rows show the columns that are selected, and depend on nothing else of a selection.** Wherever a
cursor has come, each row that it gives, whether read or filled in, shows the columns that its options
select, which ascend and are found by halving; without columns and range it shows all of them. A reader
has its header from such a cursor in all columns of the range, and its rows from one in the columns that
the keys mean below that header. Cursors with options that select the same columns are the same, as are
the rows of readers whose keys mean the same columns; and readers fail alike whatever their keys, as long
as no name is unknown. -/
theorem Cursor.formed_and_determined :
    (∀ o c, Cursor.Reached o c → Cursor.Formed o c) ∧
      (∀ (r : SheetReader) w rows, r.rows w = .ok rows → r.Selected rows) ∧
      (∀ o o' : CursorOptions, o'.dense = o.dense → o'.range = o.range →
        (∀ column, o'.Selects column ↔ o.Selects column) →
        ∀ sheet decoder s, ofStream? sheet decoder o' s = ofStream? sheet decoder o s) ∧
      ∀ (r r' : SheetReader) w, r'.options = { r.options with columns := r'.options.columns } →
        (∀ rows, r.rows w = .ok rows →
          ColumnKey.SameColumns rows.header r.options.range r.options.columns r'.options.columns →
          r'.rows w = .ok rows) ∧
        ∀ cause, (∀ name, cause ≠ .unknownColumn name) → r.rows w = .error cause →
          r'.rows w = .error cause := by
  refine ⟨fun o c h => h.regular.formed, fun r w rows h => SheetReader.selected_of_rows h, ?_, ?_⟩
  · intro o o' hdense hrange hselects sheet decoder s
    exact ofStream?_congr hdense hrange hselects sheet decoder s
  · intro r r' w hoptions
    constructor
    · intro rows h hsame
      exact SheetReader.rows_congr hoptions h hsame
    · intro cause hknown h
      exact SheetReader.rows_error_congr hoptions hknown h

/-- A workbook of one sheet, which has three names in its first row, and in its third one a cell in the
second column. -/
def Workbook.sampleColumns : Workbook where
  container := ⟨("<sheetData><row><c t=\"str\"><v>x</v></c><c t=\"str\"><v>y</v></c>" ++
    "<c t=\"str\"><v>z</v></c></row><row r=\"3\"><c r=\"B3\" t=\"b\"><v>1</v></c></row>" ++
    "</sheetData>").toUTF8,
    [{ name := "s", isEncrypted := false, method := 0, compressedSize := 148, size := 148, header := 0 }]⟩
  sheets := [{ name := "S", index := 0, sheetId := 1, visibility := .visible, entry := "s" }]
  strings := {}
  styles := {}
  epoch := .since1900

/-- A reader that asks for the rows below the names, without gaps, in the columns of a range. -/
def SheetReader.sampleRange (sheet : Nat) : SheetReader :=
  ⟨{ sheet := .index sheet, headerRow := some 0, dense := true, range := some ⟨⟨0, 0⟩, ⟨2, 1⟩⟩ }, rfl⟩

/-- One that asks for these columns by a name, a number and letters, and for one outside the range. -/
def SheetReader.sampleKeys (sheet : Nat) : SheetReader :=
  ⟨{ (sampleRange sheet).options with
     columns := some [.header "y", .letter "C", .index 0, .letter "b"] }, rfl⟩

/-- Both give the same rows, a missing one and one that is there, of the one sheet, and fail alike where
there is none. -/
theorem Cursor.formed_and_determined_sample : ∃ rows,
    (SheetReader.sampleRange 0).rows Workbook.sampleColumns = .ok rows ∧
      (SheetReader.sampleKeys 0).rows Workbook.sampleColumns = .ok rows ∧
      rows.cursor.next.1 = .ok (some ⟨1, #[.empty, .empty], some [0, 1]⟩) ∧
      Row.Shows (some [0, 1]) ⟨1, #[.empty, .empty], some [0, 1]⟩ ∧
      rows.cursor.next.2.next.1 = .ok (some ⟨2, #[.empty, .boolean true], some [0, 1]⟩) ∧
      Row.Shows (some [0, 1]) ⟨2, #[.empty, .boolean true], some [0, 1]⟩ ∧
      (SheetReader.sampleRange 1).rows Workbook.sampleColumns = .error (.sheetNotFound "#1") ∧
      (SheetReader.sampleKeys 1).rows Workbook.sampleColumns = .error (.sheetNotFound "#1") ∧
      ofStream? default default { columns := some [1, 0, 1] } Workbook.sampleStream =
        ofStream? default default { columns := some [0, 1] } Workbook.sampleStream := by
  obtain ⟨hformed, hselected, hcursors, hreaders⟩ := Cursor.formed_and_determined
  have hgiven : ((SheetReader.sampleRange 0).rows Workbook.sampleColumns).map
      (fun rows => (rows.cursor.next.1, rows.cursor.next.2.next.1)) =
        .ok (.ok (some ⟨1, #[.empty, .empty], some [0, 1]⟩),
          .ok (some ⟨2, #[.empty, .boolean true], some [0, 1]⟩)) := by decide +kernel
  have hmeant : ((SheetReader.sampleRange 0).rows Workbook.sampleColumns).map
      (fun rows => resolveColumns rows.header (SheetReader.sampleKeys 0).options.columns) =
        .ok (.ok (some [1, 2, 0, 1])) := by decide +kernel
  obtain ⟨rows, hrows, hgiven⟩ := map_eq_ok.mp hgiven
  obtain ⟨hfirst, hsecond⟩ := Prod.mk.inj hgiven
  rw [hrows] at hmeant
  have hsame : ColumnKey.SameColumns rows.header (SheetReader.sampleRange 0).options.range
      (SheetReader.sampleRange 0).options.columns (SheetReader.sampleKeys 0).options.columns := by
    refine ⟨none, _, rfl, Except.ok.inj hmeant, fun column => ?_⟩
    simp [CursorOptions.Selects, SheetReader.sampleRange]
    omega
  have halike : ∀ sheet, (SheetReader.sampleKeys sheet).options =
      { (SheetReader.sampleRange sheet).options with
        columns := (SheetReader.sampleKeys sheet).options.columns } := fun sheet => rfl
  have hnone : (SheetReader.sampleRange 1).rows Workbook.sampleColumns =
      .error (.sheetNotFound "#1") := by rfl
  -- Whatever comes of these rows comes of a cursor that has been opened with the columns of the range.
  obtain ⟨columns, -, hreached⟩ := (hselected _ _ _ hrows).cursor
  have hshows := (hformed _ _ hreached).rows _ hfirst
  have hshows' := (hformed _ _ hreached.next).rows _ hsecond
  rw [← hshows.columns] at hshows
  rw [← hshows'.columns] at hshows'
  refine ⟨rows, hrows, (hreaders _ _ _ (halike 0)).1 rows hrows hsame, hfirst, hshows, hsecond, hshows',
    hnone, (hreaders _ _ _ (halike 1)).2 _ (fun name => Error.noConfusion) hnone, ?_⟩
  refine hcursors { columns := some [0, 1] } { columns := some [1, 0, 1] } rfl rfl (fun column => ?_) _ _ _
  simp [CursorOptions.Selects]
  omega

end Xlsx
