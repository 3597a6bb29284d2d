import Xlsx.Proofs.Sheet.NamedColumns

/-! # The views of a record agree

A record is seen in three ways: a name is looked up in the header and leads to a cell, the cells are
listed with the names of their columns, and the list becomes a JSON object, in which the first of equal
names counts. From a name to a column and from columns to names lead to the same cell, also where names
repeat or are the letters of another column.

* **`Record.get_eq_ok`**, **`Record.get_eq_error`**: what is found under a name.
* **`Record.mem_columns`**: which columns are listed.
* **`Record.ReadFrom.isLeast_nameOf`**, **`Record.ReadFrom.lookup_fields`**: what is found is what is
  listed first under the name.
* **`Record.ViewsAgree`**, **`SheetReader.records_viewsAgree`**: all that the views of a record say
  together, for every record of a reader. -/

namespace Xlsx

/-- What is found under a key among items in ascending order: that of the least one with this key. -/
theorem lookup_map_of_least {β : Type} {key : Nat → String} {items : List Nat}
    (hascending : items.Pairwise (· < ·)) {name : String} {item : Nat}
    (hleast : IsLeast {i | i ∈ items ∧ key i = name} item) (value : Nat → β) :
    (items.map fun i => (key i, value i)).lookup name = some (value item) := by
  induction items with
  | nil => exact absurd hleast.1.1 List.not_mem_nil
  | cons first items ih =>
    obtain ⟨hbefore, hrest⟩ := List.pairwise_cons.mp hascending
    obtain ⟨⟨hmem, hname⟩, hbound⟩ := hleast
    rw [List.map_cons, List.lookup_cons]
    rcases List.mem_cons.mp hmem with rfl | hmem
    · rw [hname, beq_self_eq_true]
    · have hother : (name == key first) = false := by
        rw [beq_eq_false_iff_ne]
        intro heq
        exact Nat.not_lt.mpr (hbound ⟨List.mem_cons_self, heq.symm⟩) (hbefore item hmem)
      rw [hother]
      exact ih hrest ⟨⟨hmem, hname⟩, fun i hi => hbound ⟨List.mem_cons_of_mem _ hi.1, hi.2⟩⟩

namespace Row

variable {row : Row} (hall : row.columns = none)

include hall

/-- The cells of a row that has all columns. -/
theorem mem_toList_of_all {column : Nat} {cell : Cell} :
    (column, cell) ∈ row.toList ↔ row.get? column = some cell := by
  rw [toList, get?, hall, List.mem_iff_getElem?]
  simp only [List.getElem?_zip_eq_some, Array.getElem?_toList]
  constructor
  · rintro ⟨i, hi, hcell⟩
    obtain ⟨-, rfl⟩ := List.getElem?_eq_some_iff.mp hi
    simpa using hcell
  · intro hcell
    obtain ⟨hlt, -⟩ := Array.getElem?_eq_some_iff.mp hcell
    exact ⟨column, List.getElem?_range hlt, hcell⟩

/-- The columns in which a row holds something. -/
theorem mem_filled_iff {column : Nat} :
    column ∈ row.filled.map Prod.fst ↔ ((row.get? column).getD .empty).isEmpty = false := by
  rw [List.mem_map]
  constructor
  · rintro ⟨⟨column, cell⟩, hmem, rfl⟩
    obtain ⟨hmem, hfilled⟩ := List.mem_filter.mp hmem
    rw [(mem_toList_of_all hall).mp hmem]
    simpa using hfilled
  · intro hfilled
    cases hcell : row.get? column with
    | none => simp [hcell] at hfilled
    | some cell =>
      rw [hcell, Option.getD_some] at hfilled
      have hmem : (column, cell) ∈ row.filled :=
        List.mem_filter.mpr ⟨(mem_toList_of_all hall).mpr hcell, by simp [hfilled]⟩
      exact ⟨_, hmem, rfl⟩

end Row

namespace Record

variable {r : Record}

/-! ## What is found under a name -/

/-- Whether the columns of a row leave a column out. -/
def LeavesOut (projection : Option (List Nat)) (column : Nat) : Prop :=
  ∃ columns, projection = some columns ∧ column ∉ columns

/-- A name that the header has leads to the cell of its first column, unless that one is left out. -/
theorem get_eq_ok {name : String} {cell : Cell} :
    r.get name = .ok cell ↔ ∃ column, r.header.columnOf? name = some column ∧
      ¬ LeavesOut r.row.columns column ∧ cell = (r.row.get? column).getD .empty := by
  unfold get LeavesOut
  cases r.header.columnOf? name with
  | none => simp
  | some column =>
    cases r.row.columns with
    | none => simp [eq_comm]
    | some columns => by_cases hmem : column ∈ columns <;> simp [hmem, eq_comm]

/-- Every other name is unknown. -/
theorem get_eq_error {name : String} {cause : Error} :
    r.get name = .error cause ↔ cause = .unknownColumn name ∧ (name ∉ r.header.names ∨
      ∃ column, r.header.columnOf? name = some column ∧ LeavesOut r.row.columns column) := by
  rw [← Header.columnOf?_isSome]
  unfold get LeavesOut
  cases r.header.columnOf? name with
  | none => simp [eq_comm]
  | some column =>
    cases r.row.columns with
    | none => simp
    | some columns => by_cases hmem : column ∈ columns <;> simp [hmem, eq_comm]

/-! ## The columns that are listed -/

/-- The columns of a record in ascending order. -/
theorem columns_eq_sort (hall : r.row.columns = none) :
    r.columns = (r.header.columns ++ r.row.filled.map Prod.fst).toFinset.sort := by
  rw [columns, hall]
  exact eraseReps_mergeSort _

/-- **The columns of a record that has all of them**: those with a name, and those in which the row
holds something. -/
theorem mem_columns (hall : r.row.columns = none) {column : Nat} :
    column ∈ r.columns ↔
      column ∈ r.header.columns ∨ ((r.row.get? column).getD .empty).isEmpty = false := by
  rw [columns_eq_sort hall, Finset.mem_sort, List.mem_toFinset, List.mem_append, Row.mem_filled_iff hall]

/-- A column with a name is listed unless it is left out. -/
theorem mem_columns_of_header {column : Nat} (hheader : column ∈ r.header.columns)
    (hkept : ¬ LeavesOut r.row.columns column) : column ∈ r.columns := by
  cases hcolumns : r.row.columns with
  | none => exact (mem_columns hcolumns).mpr (.inl hheader)
  | some columns =>
    rw [Record.columns, hcolumns]
    by_contra hmem
    exact hkept ⟨columns, hcolumns, hmem⟩

/-! ## From names to columns and back -/

/-- **How a record is read** from some column on: its header names columns that follow one another from
there, and its row has its columns in order, none of them before that one. -/
structure ReadFrom (first : Nat) (r : Record) : Prop where
  header : r.header.Spans first
  projected : ∀ columns, r.row.columns = some columns →
    columns.Pairwise (· < ·) ∧ ∀ column ∈ columns, first ≤ column
  all : r.row.columns = none → first = 0

namespace ReadFrom

variable {first : Nat} (hr : r.ReadFrom first)

include hr

/-- **The columns ascend.** -/
theorem ascending : r.columns.Pairwise (· < ·) := by
  cases hcolumns : r.row.columns with
  | some columns =>
    rw [Record.columns, hcolumns]
    exact (hr.projected columns hcolumns).1
  | none =>
    rw [columns_eq_sort hcolumns]
    exact (Finset.sortedLT_sort _).pairwise

/-- No column is listed before the first one. -/
theorem first_le {column : Nat} (hcolumn : column ∈ r.columns) : first ≤ column := by
  cases hcolumns : r.row.columns with
  | none => exact hr.all hcolumns ▸ Nat.zero_le column
  | some columns =>
    rw [Record.columns, hcolumns] at hcolumn
    exact (hr.projected columns hcolumns).2 column hcolumn

/-- **A name of the header is listed first with the column that it means.** -/
theorem isLeast_nameOf {name : String} {column : Nat} (hcolumn : r.header.columnOf? name = some column)
    (hkept : ¬ LeavesOut r.row.columns column) :
    IsLeast {c | c ∈ r.columns ∧ r.header.nameOf c = name} column := by
  have hascending := hr.header.ascending
  have hleast := (Header.columnOf?_eq_some hascending).mp hcolumn
  have hheader : column ∈ r.header.columns := List.mem_map_of_mem hleast.1
  refine ⟨⟨mem_columns_of_header hheader hkept, Header.nameOf_of_mem hascending hleast.1⟩, ?_⟩
  rintro c ⟨hc, hname⟩
  by_contra hlt
  -- What is listed before the column has a name in the header, so that none is generated for it.
  have hnamed : c ∈ r.header.columns := hr.header.mem_of_le hheader (hr.first_le hc) (by omega)
  obtain ⟨⟨c, other⟩, hfield, rfl⟩ := List.mem_map.mp hnamed
  have hother : other = name := (Header.nameOf_of_mem hascending hfield).symm.trans hname
  exact hlt (hleast.2 (hother ▸ hfield))

/-- **What is found under a name is what is listed first under it**, and what the JSON object has. -/
theorem lookup_fields {name : String} {cell : Cell} (h : r.get name = .ok cell) :
    r.fields.lookup name = some cell ∧ r.toJson.member? name = some cell.toPlainJson := by
  obtain ⟨column, hcolumn, hkept, rfl⟩ := get_eq_ok.mp h
  have hfound : r.fields.lookup name = some ((r.row.get? column).getD .empty) :=
    lookup_map_of_least hr.ascending (hr.isLeast_nameOf hcolumn hkept)
      fun column => (r.row.get? column).getD .empty
  refine ⟨hfound, ?_⟩
  show (Json.sortedMembers _).lookup name = _
  rw [Json.lookup_sortedMembers, lookup_map_value Cell.toPlainJson, hfound, Option.map_some]

end ReadFrom

/-- **The views of a record agree**, where its row is read in some columns, or in all. -/
structure ViewsAgree (r : Record) (projection : Option (List Nat)) : Prop where
  header_ascending : r.header.columns.Pairwise (· < ·)
  header_named : ∀ name ∈ r.header.names, Text.isAllBlank name = false
  /-- A name means the least of its columns. -/
  columnOf_least : ∀ name column, r.header.columnOf? name = some column ↔
    IsLeast {c | (c, name) ∈ r.header.fields} column
  fields_eq : r.fields = r.columns.map fun column =>
    (r.header.nameOf column, (r.row.get? column).getD .empty)
  ascending : r.columns.Pairwise (· < ·)
  of_projection : ∀ columns, projection = some columns → r.columns = columns
  /-- Without a projection the columns are those with a name and those that hold something. -/
  of_all : projection = none → ∀ column, column ∈ r.columns ↔
    column ∈ r.header.columns ∨ ((r.row.get? column).getD .empty).isEmpty = false
  get_error : ∀ name cause, r.get name = .error cause ↔ cause = .unknownColumn name ∧
    (name ∉ r.header.names ∨
      ∃ column, r.header.columnOf? name = some column ∧ LeavesOut projection column)
  /-- The cell that a name leads to is listed first under it, and is in the JSON object. -/
  get_ok : ∀ name cell, r.get name = .ok cell →
    r.fields.lookup name = some cell ∧ r.toJson.member? name = some cell.toPlainJson

/-- The views of a record agree if it is read from some column on. -/
theorem ReadFrom.viewsAgree {first : Nat} (hr : r.ReadFrom first) : r.ViewsAgree r.row.columns where
  header_ascending := hr.header.ascending
  header_named := hr.header.named
  columnOf_least _ _ := Header.columnOf?_eq_some hr.header.ascending
  fields_eq := rfl
  ascending := hr.ascending
  of_projection columns hcolumns := by rw [Record.columns, hcolumns]
  of_all hnone _ := mem_columns hnone
  get_error _ _ := get_eq_error
  get_ok _ _ h := hr.lookup_fields h

end Record

/-- **The views of a record agree**, for every record that a reader gives of a workbook. The columns of
the header ascend, none of them has a blank name, and a name means the least of its columns. The fields
are those of the columns that are read, in ascending order; if all are, those of all columns that have
a name or a cell that holds something. A name is unknown if the header lacks it or its first column is
not read, and nothing else fails; and the cell that is found under a name is listed first under it and
is what the JSON object has there. -/
theorem SheetReader.records_viewsAgree {r : SheetReader} {w : Workbook} {records : Records}
    (hopen : r.records w = .ok records) {n : Nat} {record : Record}
    (hcall : call Records.next n records = .ok (some record)) :
    ∃ columns, resolveColumns (some record.header) r.options.columns = .ok columns ∧
      record.ViewsAgree (projectionOf columns r.options.range) := by
  obtain ⟨hspans, columns, hcolumns, hcursor⟩ := opened_records hopen
  obtain ⟨hheader, hrow⟩ := Records.of_call hcursor hcall
  rw [← hheader] at hspans hcolumns
  have hread : record.ReadFrom (firstColumnOf r.options.range) := by
    constructor
    case header => exact hspans
    case projected =>
      intro read hread
      have hread := hrow ▸ hread
      exact ⟨projectionOf_ascending hread, firstColumnOf_le hread⟩
    case all =>
      intro hall
      rw [hrow] at hall
      rw [(projectionOf_eq_none.mp hall).2]
      rfl
  exact ⟨columns, hcolumns, hrow ▸ hread.viewsAgree⟩

/-- A workbook of one sheet, whose first row calls the first column by the letter of the second, which
it leaves blank. -/
def Workbook.sampleNames : Workbook where
  container := ⟨("<sheetData><row><c t=\"str\"><v>B</v></c><c/></row>" ++
    "<row><c t=\"b\"><v>1</v></c></row></sheetData>").toUTF8,
    [{ name := "s", isEncrypted := false, method := 0, compressedSize := 93, size := 93, header := 0 }]⟩
  sheets := [{ name := "S", index := 0, sheetId := 1, visibility := .visible, entry := "s" }]
  strings := {}
  styles := {}
  epoch := .since1900

/-- A name that is both that of a column and the letter of another means the first of them. -/
theorem SheetReader.records_viewsAgree_repeated : ∃ (r : SheetReader) (records : Records)
    (record : Record), r.records Workbook.sampleNames = .ok records ∧
      call Records.next 0 records = .ok (some record) ∧
      record.header.fields = [(0, "B"), (1, "B")] ∧ record.ViewsAgree none ∧
      record.get "B" = .ok (.boolean true) ∧ record.toJson.member? "B" = some (.bool true) := by
  obtain ⟨r, hr⟩ : ∃ r : SheetReader, r = ⟨{ headerRow := some 0 }, rfl⟩ := ⟨_, rfl⟩
  obtain ⟨record, hrecord⟩ : ∃ record : Record,
    record = ⟨⟨0, [(0, "B"), (1, "B")]⟩, ⟨1, #[.boolean true], none⟩⟩ := ⟨_, rfl⟩
  have hgiven : (r.records Workbook.sampleNames).map (fun records => records.next.1) =
      .ok (.ok (some record)) := by
    rw [hr, hrecord]
    decide +kernel
  obtain ⟨records, hopen, hnext⟩ := map_eq_ok.mp hgiven
  have hcall : call Records.next 0 records = .ok (some record) := hnext
  have hget : record.get "B" = .ok (.boolean true) := by
    rw [hrecord]
    rfl
  obtain ⟨columns, hcolumns, hviews⟩ := SheetReader.records_viewsAgree hopen hcall
  have hnone : columns = none := by
    rw [hr] at hcolumns
    exact (Except.ok.inj hcolumns).symm
  have hall : projectionOf columns r.options.range = none := by rw [hnone, hr]; rfl
  rw [hall] at hviews
  refine ⟨r, records, record, hopen, hcall, by rw [hrecord], hviews, hget, ?_⟩
  exact (hviews.get_ok "B" (.boolean true) hget).2

end Xlsx
