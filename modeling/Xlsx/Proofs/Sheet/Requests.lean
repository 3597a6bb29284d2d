import Xlsx.Proofs.Except
import Xlsx.Proofs.Reference.Notation
import Xlsx.Sheet.Record

/-! # Requests that make sense

A request is checked once, before any workbook is read, and used later: its letters are read again, its
range and its header row meet on a cursor, its names are looked up in a header. Whatever could go wrong
there with the request itself has been found by then. One kind of request is not refused although it
makes no sense: the check gives no answer where the row that it would name has no 32-bit number.

* **`ReadOptions.MakesSense`**: what is asked of a request.
* **`ReadOptions.Fault`**: why a request is refused.
* **`Range.Uncounted`**: the ranges to which the check has no answer.
* **`ReadOptions.check_finds`**, **`ReadOptions.check_eq_ok`**, **`ReadOptions.check_eq_none`**: the check
  tells one from the other.
* **`ReadOptions.FailsBy`**, **`SheetReader.failsBy_of_rows`**: what is left to go wrong with a workbook.
* **`ReadOptions.build_covers`**: all of it together. -/

namespace Xlsx

/-! ## What is asked of a request -/

/-- **A range inside the sheet**: it runs forward, and its last cell is a cell of the sheet. -/
structure Range.InSheet (r : Range) : Prop where
  rows : r.first.row ≤ r.last.row
  columns : r.first.column ≤ r.last.column
  lastRow : r.last.row < maxRows
  lastColumn : r.last.column < maxColumns

/-- **A range down to the last number**: it runs forward, and there is no 32-bit number behind its last
row. -/
structure Range.Uncounted (r : Range) : Prop where
  rows : r.first.row ≤ r.last.row
  columns : r.first.column ≤ r.last.column
  lastRow : Text.wordSize ≤ r.last.row + 1

/-- Such a range does not lie inside the sheet. -/
theorem Range.Uncounted.not_inSheet {r : Range} (hr : r.Uncounted) : ¬ r.InSheet := by
  intro hinside
  have hlast := Position.row_lt_wordSize hinside.lastRow
  exact Nat.not_lt.mpr hr.lastRow hlast

/-- A key that can mean a column: one of the sheet, or one that a header names if there is a header row. -/
def ColumnKey.MakesSense (headerRow : Option Nat) : ColumnKey → Prop
  | .index column => column < maxColumns
  | .letter letters => ∃ column, Column.index? letters = .ok column
  | .header _ => headerRow ≠ none

namespace ReadOptions

/-- **A request that makes sense**, whatever the workbook holds. -/
structure MakesSense (o : ReadOptions) : Prop where
  range : ∀ r ∈ o.range, r.InSheet
  headerRow : ∀ row ∈ o.headerRow, row < maxRows
  headerRowInRange : ∀ row ∈ o.headerRow, ∀ r ∈ o.range, row ≤ r.last.row
  someColumns : ∀ keys ∈ o.columns, keys ≠ []
  columns : ∀ keys ∈ o.columns, ∀ key ∈ keys, key.MakesSense o.headerRow

/-- **Why a request is refused**: what is reported is true of it. -/
inductive Fault (o : ReadOptions) : ConfigurationError → Prop
  | rowsReversed {r : Range} (hr : r ∈ o.range) (h : r.last.row < r.first.row) :
    Fault o (.rowsReversed r.first.row r.last.row)
  | columnsReversed {r : Range} (hr : r ∈ o.range) (h : r.last.column < r.first.column) :
    Fault o (.columnsReversed r.first.column r.last.column)
  | rangeOutside {r : Range} (hr : r ∈ o.range)
    (h : maxRows ≤ r.last.row ∨ maxColumns ≤ r.last.column) : Fault o (.rangeOutside r.last.label)
  | headerRowOutside {row : Nat} (hrow : row ∈ o.headerRow) (h : maxRows ≤ row) :
    Fault o (.headerRowOutside row)
  | headerRowAfterRange {row : Nat} {r : Range} (hrow : row ∈ o.headerRow) (hr : r ∈ o.range)
    (h : r.last.row < row) : Fault o (.headerRowAfterRange row r.last.row)
  | noColumns (h : o.columns = some []) : Fault o .noColumns
  | columnOutside {keys : List ColumnKey} {column : Nat} (hkeys : keys ∈ o.columns)
    (hkey : .index column ∈ keys) (h : maxColumns ≤ column) : Fault o (.columnOutside column)
  | badColumnLetter {keys : List ColumnKey} {letters : String} {cause : ReferenceError}
    (hkeys : keys ∈ o.columns) (hkey : .letter letters ∈ keys)
    (h : Column.index? letters = .error cause) : Fault o (.badColumnLetter letters cause)
  | columnWithoutHeader {keys : List ColumnKey} {name : String} (hkeys : keys ∈ o.columns)
    (hkey : .header name ∈ keys) (h : o.headerRow = none) : Fault o (.columnWithoutHeader name)

variable {o : ReadOptions} {cause : ConfigurationError}

/-- What has a fault makes no sense. -/
theorem Fault.not_makesSense (hfault : o.Fault cause) : ¬ o.MakesSense := by
  intro ho
  cases hfault with
  | rowsReversed hr h => exact Nat.not_lt.mpr (ho.range _ hr).rows h
  | columnsReversed hr h => exact Nat.not_lt.mpr (ho.range _ hr).columns h
  | rangeOutside hr h =>
    have hinside := ho.range _ hr
    exact h.elim (Nat.not_le.mpr hinside.lastRow) (Nat.not_le.mpr hinside.lastColumn)
  | headerRowOutside hrow h => exact Nat.not_le.mpr (ho.headerRow _ hrow) h
  | headerRowAfterRange hrow hr h => exact Nat.not_lt.mpr (ho.headerRowInRange _ hrow _ hr) h
  | noColumns h => exact ho.someColumns _ h rfl
  | columnOutside hkeys hkey h => exact Nat.not_le.mpr (ho.columns _ hkeys _ hkey) h
  | badColumnLetter hkeys hkey h =>
    obtain ⟨column, hcolumn⟩ := ho.columns _ hkeys _ hkey
    exact nomatch hcolumn.symm.trans h
  | columnWithoutHeader hkeys hkey h => exact ho.columns _ hkeys _ hkey h

/-! ## What the check finds -/

/-- A range is found to lie inside the sheet, and to run forward. -/
theorem checkRange_finds {r : Range} (hr : r ∈ o.range) {found : Except ConfigurationError Unit}
    (h : checkRange r = some found) : Finds found r.InSheet o.Fault := by
  unfold checkRange at h
  split at h
  · rename_i hrows
    obtain rfl := Option.some.inj h
    exact .error (.rowsReversed hr hrows)
  split at h
  · rename_i hcolumns
    obtain rfl := Option.some.inj h
    exact .error (.columnsReversed hr hcolumns)
  split at h
  · rename_i houtside
    obtain ⟨label, hlabel, rfl⟩ := Option.map_eq_some_iff.mp h
    rw [Position.eq_label_of_label? hlabel]
    exact .error (.rangeOutside hr houtside)
  · obtain rfl := Option.some.inj h
    exact .ok (by constructor <;> omega)

/-- There is no answer to a range down to the last number, and to no other one. -/
theorem checkRange_eq_none {r : Range} : checkRange r = none ↔ r.Uncounted := by
  constructor
  · intro h
    unfold checkRange at h
    split at h
    · exact nomatch h
    split at h
    · exact nomatch h
    split at h
    · rename_i hrows hcolumns houtside
      have hlast := Position.label?_eq_none.mp (Option.map_eq_none_iff.mp h)
      exact ⟨Nat.not_lt.mp hrows, Nat.not_lt.mp hcolumns, hlast⟩
    · exact nomatch h
  · intro hr
    have houtside : maxRows ≤ r.last.row := by
      by_contra hinside
      exact Nat.not_lt.mpr hr.lastRow (Position.row_lt_wordSize (Nat.not_le.mp hinside))
    rw [checkRange, if_neg (Nat.not_lt.mpr hr.rows), if_neg (Nat.not_lt.mpr hr.columns),
      if_pos (.inl houtside), Position.label?_eq_none.mpr hr.lastRow]
    rfl

/-- A header row is found to lie inside the sheet, and not behind the range if there is one. -/
theorem checkHeaderRow_finds {row : Nat} (hrow : row ∈ o.headerRow) :
    Finds (checkHeaderRow o.range row) (row < maxRows ∧ ∀ r ∈ o.range, row ≤ r.last.row) o.Fault := by
  refine .guarded (fun h => .headerRowOutside hrow h) fun hinside => ?_
  have hlt : row < maxRows := Nat.not_le.mp hinside
  cases hrange : o.range with
  | none => exact .ok ⟨hlt, fun r hr => absurd hr (Option.not_mem_none r)⟩
  | some r =>
    refine .guarded (fun h => .headerRowAfterRange hrow hrange h) fun hbefore => .ok ⟨hlt, ?_⟩
    intro same hsame
    rw [← Option.mem_some.mp hsame]
    exact Nat.not_lt.mp hbefore

/-- A key is found to mean a column, as far as that can be told. -/
theorem checkColumn_finds {keys : List ColumnKey} (hkeys : keys ∈ o.columns) {key : ColumnKey}
    (hkey : key ∈ keys) : Finds (checkColumn o.headerRow key) (key.MakesSense o.headerRow) o.Fault := by
  cases key with
  | index column =>
    exact .guarded (fun h => .columnOutside hkeys hkey h) fun hinside => .ok (Nat.not_le.mp hinside)
  | letter letters =>
    rw [checkColumn]
    cases hletters : Column.index? letters with
    | ok column => exact .ok ⟨column, hletters⟩
    | error cause => exact .error (.badColumnLetter hkeys hkey hletters)
  | header name =>
    refine .guarded (fun h => ?_) fun hsome => .ok fun hnone => ?_
    · exact .columnWithoutHeader hkeys hkey (Option.isNone_iff_eq_none.mp h)
    · exact hsome (Option.isNone_iff_eq_none.mpr hnone)

/-- Columns are found to be some, and each of them to make sense. -/
theorem checkColumns_finds {keys : List ColumnKey} (hkeys : keys ∈ o.columns) :
    Finds (checkColumns o.headerRow keys) (keys ≠ [] ∧ ∀ key ∈ keys, key.MakesSense o.headerRow)
      o.Fault := by
  refine .guarded (fun h => .noColumns ?_) fun hsome => ?_
  · rw [← List.isEmpty_iff.mp h]
    exact hkeys
  · have heach := Finds.forM fun key hkey => checkColumn_finds hkeys hkey
    exact heach.imp fun hkeys => ⟨fun hnil => hsome (List.isEmpty_iff.mpr hnil), hkeys⟩

/-- **What the check finds**, if it has an answer: the range first, then the header row, and the columns
last. -/
theorem check_finds {found : Except ConfigurationError Unit} (h : o.check = some found) :
    Finds found o.MakesSense o.Fault := by
  obtain ⟨range, hchecked, rfl⟩ := Option.map_eq_some_iff.mp h
  have hrange : Finds range (∀ r ∈ o.range, r.InSheet) o.Fault := by
    cases hr : o.range with
    | none =>
      rw [hr] at hchecked
      obtain rfl := Option.some.inj hchecked
      exact .ok fun r hmem => absurd hmem (Option.not_mem_none r)
    | some r =>
      rw [hr] at hchecked
      have hfinds := checkRange_finds hr hchecked
      exact hfinds.imp fun hinside same hsame => Option.mem_some.mp hsame ▸ hinside
  have hrow := Finds.option_forM fun row (hrow : row ∈ o.headerRow) => checkHeaderRow_finds hrow
  have hcolumns := Finds.option_forM fun keys (hkeys : keys ∈ o.columns) => checkColumns_finds hkeys
  refine (hrange.andThen (hrow.andThen hcolumns)).imp fun ⟨hrange, hrow, hcolumns⟩ => ?_
  constructor
  case range => exact hrange
  case headerRow => exact fun row hmem => (hrow row hmem).1
  case headerRowInRange => exact fun row hmem => (hrow row hmem).2
  case someColumns => exact fun keys hkeys => (hcolumns keys hkeys).1
  case columns => exact fun keys hkeys => (hcolumns keys hkeys).2

/-- **The check has no answer** to the requests for a range down to the last number. -/
theorem check_eq_none : o.check = none ↔ ∃ r ∈ o.range, r.Uncounted := by
  rw [check, Option.map_eq_none_iff]
  cases o.range with
  | none =>
    constructor
    · exact (nomatch ·)
    · rintro ⟨r, hr, -⟩
      exact absurd hr (Option.not_mem_none r)
  | some r =>
    refine checkRange_eq_none.trans ⟨fun hr => ⟨r, rfl, hr⟩, ?_⟩
    rintro ⟨same, hsame, hr⟩
    exact Option.mem_some.mp hsame ▸ hr

/-- **The check is passed by the requests that make sense.** -/
theorem check_eq_ok : o.check = some (.ok ()) ↔ o.MakesSense := by
  refine ⟨fun h => (check_finds h).passed rfl, fun ho => ?_⟩
  -- A request that is refused has a fault, so one that makes sense is not refused.
  cases hcheck : o.check with
  | none =>
    obtain ⟨r, hr, huncounted⟩ := check_eq_none.mp hcheck
    exact absurd (ho.range r hr) huncounted.not_inSheet
  | some found =>
    cases found with
    | ok _ => rfl
    | error cause => exact absurd ho ((check_finds hcheck).refused cause rfl).not_makesSense

/-- A request is built if it passes the check, and is kept as it is. -/
theorem build_eq_ok {reader : SheetReader} : o.build = some (.ok reader) ↔ reader.options = o := by
  unfold build
  split
  · rename_i hcheck
    constructor
    · intro h
      rw [← Except.ok.inj (Option.some.inj h)]
    · rintro rfl
      rfl
  · rename_i cause hcheck
    constructor
    · intro h
      exact nomatch Option.some.inj h
    · rintro rfl
      exact nomatch Option.some.inj (reader.check_options.symm.trans hcheck)
  · rename_i hcheck
    constructor
    · intro h
      exact nomatch h
    · rintro rfl
      exact nomatch reader.check_options.symm.trans hcheck

/-- A request that is refused is not built, for the reason for which it is refused. -/
theorem build_eq_error : o.build = some (.error cause) ↔ o.check = some (.error cause) := by
  unfold build
  split <;> rename_i hcheck <;> simp [hcheck]

/-- There is no answer to a request if there is none to the check. -/
theorem build_eq_none : o.build = none ↔ o.check = none := by
  unfold build
  split <;> rename_i hcheck <;> simp [hcheck]

/-! ## What is left to go wrong -/

/-- **What can go wrong with a request that makes sense**: the sheet is not there, a name is not in the
header, or the workbook cannot be read. -/
inductive FailsBy (o : ReadOptions) : Error → Prop
  | sheetNotFound : FailsBy o (.sheetNotFound o.sheet.label)
  | unknownColumn {keys : List ColumnKey} {name : String} (hkeys : keys ∈ o.columns)
    (hkey : .header name ∈ keys) : FailsBy o (.unknownColumn name)
  | format (cause : FormatError) : FailsBy o (.format cause)
  | stream (cause : StreamError) : FailsBy o (.stream cause)

end ReadOptions

variable {o : ReadOptions} {cause : Error}

/-- Opening a sheet has nothing to do with the request but for the sheet that it asks for. -/
theorem Workbook.failsBy_of_openSheet {w : Workbook} {options : CursorOptions}
    (h : w.openSheet o.sheet options = .error cause) : o.FailsBy cause := by
  rcases bind_eq_error.mp h with hresolve | ⟨sheet, -, h⟩
  · simp only [resolve] at hresolve
    split at hresolve
    · exact nomatch hresolve
    · exact Except.error.inj hresolve ▸ .sheetNotFound
  rcases bind_eq_error.mp h with hscan | ⟨s, -, hopen⟩
  · obtain ⟨other, -, rfl⟩ := mapError_eq_error.mp hscan
    exact .format other
  · obtain ⟨other, -, rfl⟩ := mapError_eq_error.mp hopen
    exact .stream other

/-- **A key that makes sense** is not resolved only if it is a name: its letters are read as they were
when they were checked. -/
theorem ColumnKey.unknown_of_resolve {headerRow : Option Nat} {header : Option Header} {key : ColumnKey}
    (hkey : key.MakesSense headerRow) (h : key.resolve header = .error cause) :
    ∃ name, key = .header name ∧ cause = .unknownColumn name := by
  cases key with
  | index column => exact nomatch h
  | letter letters =>
    obtain ⟨column, hcolumn⟩ := hkey
    rw [resolve, hcolumn] at h
    exact nomatch h
  | header name =>
    rw [resolve] at h
    split at h
    · exact nomatch h
    · exact ⟨name, rfl, (Except.error.inj h).symm⟩

/-- **Columns that make sense** are not resolved only if one of them has a name. -/
theorem ReadOptions.unknown_of_resolveColumns (ho : o.MakesSense) {header : Option Header}
    (h : resolveColumns header o.columns = .error cause) :
    ∃ keys ∈ o.columns, ∃ name, .header name ∈ keys ∧ cause = .unknownColumn name := by
  cases hkeys : o.columns with
  | none =>
    rw [hkeys] at h
    exact nomatch h
  | some keys =>
    rw [hkeys, resolveColumns, Option.mapM_some] at h
    -- The first key that is not resolved is one of those that are asked for.
    obtain ⟨before, key, after, hsplit, -, hresolve⟩ := mapM_eq_error.mp (map_eq_error.mp h)
    have hkey : key ∈ keys := by
      rw [hsplit]
      exact List.mem_append_right _ List.mem_cons_self
    obtain ⟨name, rfl, rfl⟩ := ColumnKey.unknown_of_resolve (ho.columns keys hkeys key hkey) hresolve
    exact ⟨keys, rfl, name, hkey, rfl⟩

/-- Columns that are not resolved name one that is unknown. -/
theorem ReadOptions.failsBy_of_resolveColumns (ho : o.MakesSense) {header : Option Header}
    (h : resolveColumns header o.columns = .error cause) : o.FailsBy cause := by
  obtain ⟨keys, hkeys, name, hkey, rfl⟩ := unknown_of_resolveColumns ho h
  exact .unknownColumn hkeys hkey

namespace Rows

variable {w : Workbook} (ho : o.MakesSense)

include ho

/-- Opening rows without a header fails by nothing that has been checked. -/
theorem failsBy_of_openPlain (h : openPlain w o = .error cause) : o.FailsBy cause := by
  rcases bind_eq_error.mp h with hcolumns | ⟨columns, -, h⟩
  · exact ReadOptions.failsBy_of_resolveColumns ho hcolumns
  rcases bind_eq_error.mp h with hopen | ⟨c, -, h⟩
  · exact Workbook.failsBy_of_openSheet hopen
  · exact nomatch h

/-- Nor does opening them with one. -/
theorem failsBy_of_openBelow {headerRow : Nat} (h : openBelow w o headerRow = .error cause) :
    o.FailsBy cause := by
  rcases bind_eq_error.mp h with hopen | ⟨c, -, h⟩
  · exact Workbook.failsBy_of_openSheet hopen
  -- Where the header starts is told to the cursor, and reading it fails only as reading any row does.
  rcases bind_eq_error.mp h with hnext | ⟨found, -, h⟩
  · obtain ⟨other, -, rfl⟩ := mapError_eq_error.mp hnext
    exact .stream other
  rcases bind_eq_error.mp h with hcolumns | ⟨columns, -, h⟩
  · exact ReadOptions.failsBy_of_resolveColumns ho hcolumns
  · exact nomatch h

end Rows

/-- Rows below a header have a header. -/
theorem Rows.header_of_openBelow {w : Workbook} {headerRow : Nat} {rows : Rows}
    (h : openBelow w o headerRow = .ok rows) : rows.header ≠ none := by
  obtain ⟨c, -, h⟩ := bind_eq_ok.mp h
  obtain ⟨found, -, h⟩ := bind_eq_ok.mp h
  obtain ⟨columns, -, h⟩ := bind_eq_ok.mp h
  rw [← Except.ok.inj h]
  exact Option.some_ne_none _

namespace SheetReader

variable {r : SheetReader} {w : Workbook}

/-- **A reader fails by nothing that has been checked.** -/
theorem failsBy_of_rows (h : r.rows w = .error cause) : r.options.FailsBy cause := by
  have ho := ReadOptions.check_eq_ok.mp r.check_options
  unfold rows at h
  cases hrow : r.options.headerRow with
  | none =>
    rw [hrow] at h
    exact Rows.failsBy_of_openPlain ho h
  | some headerRow =>
    rw [hrow] at h
    exact Rows.failsBy_of_openBelow ho h

/-- A reader with a header row gives rows that have a header. -/
theorem header_of_rows {rows : Rows} (hheader : r.options.headerRow ≠ none) (h : r.rows w = .ok rows) :
    rows.header ≠ none := by
  unfold SheetReader.rows at h
  cases hrow : r.options.headerRow with
  | none => exact absurd hrow hheader
  | some headerRow =>
    rw [hrow] at h
    exact Rows.header_of_openBelow h

/-- A reader with a header row fails by nothing else when it gives records. -/
theorem failsBy_of_records (hheader : r.options.headerRow ≠ none) (h : r.records w = .error cause) :
    r.options.FailsBy cause := by
  unfold records at h
  split at h
  · exact absurd (Option.isNone_iff_eq_none.mp ‹_›) hheader
  rcases bind_eq_error.mp h with hrows | ⟨rows, hrows, h⟩
  · exact failsBy_of_rows hrows
  -- The rows have a header, because a header row is asked for.
  obtain ⟨header, hsome⟩ := Option.ne_none_iff_exists'.mp (header_of_rows hheader hrows)
  rw [hsome] at h
  exact nomatch h

end SheetReader

/-- **Building a reader covers what reading relies on.** A request is built, and kept as it is, exactly if
it makes sense. Otherwise a fault that it has is reported, unless it asks for a range down to the last
number: there is no answer to such a request, and to no other one. And with whatever workbook, the rows
of a reader that has been built fail only because a sheet or a name is not there, or because the workbook
cannot be read, and so do its records if it has a header row. -/
theorem ReadOptions.build_covers (o : ReadOptions) :
    ((∃ r, o.build = some (.ok r)) ↔ o.MakesSense) ∧
      (¬ o.MakesSense → (¬ ∃ range ∈ o.range, range.Uncounted) →
        ∃ cause, o.build = some (.error cause) ∧ o.Fault cause) ∧
      (o.build = none ↔ ∃ range ∈ o.range, range.Uncounted) ∧
      ∀ r, o.build = some (.ok r) → r.options = o ∧ ∀ w cause,
        (r.rows w = .error cause → o.FailsBy cause) ∧
          (o.headerRow ≠ none → r.records w = .error cause → o.FailsBy cause) := by
  refine ⟨⟨?_, ?_⟩, ?_, build_eq_none.trans check_eq_none, ?_⟩
  · rintro ⟨r, hr⟩
    rw [← build_eq_ok.mp hr]
    exact check_eq_ok.mp r.check_options
  · intro ho
    exact ⟨⟨o, check_eq_ok.mpr ho⟩, build_eq_ok.mpr rfl⟩
  · intro hsenseless hcounted
    cases hcheck : o.check with
    | none => exact absurd (check_eq_none.mp hcheck) hcounted
    | some found =>
      cases found with
      | ok _ => exact absurd (check_eq_ok.mp hcheck) hsenseless
      | error cause => exact ⟨cause, build_eq_error.mpr hcheck, (check_finds hcheck).refused cause rfl⟩
  · intro r hr
    obtain rfl := build_eq_ok.mp hr
    exact ⟨rfl, fun w cause => ⟨SheetReader.failsBy_of_rows, SheetReader.failsBy_of_records⟩⟩

/-- A name and the letters of the last column below a header row in a range: without the header row the
name makes no sense, and with it nothing is wrong but that there is no sheet. -/
theorem ReadOptions.build_covers_named :
    let o : ReadOptions := {
      headerRow := some 3
      columns := some [.letter "xfd", .header "B"]
      range := some ⟨⟨1, 1⟩, ⟨9, 9⟩⟩ }
    let w : Workbook := {
      container := ⟨.empty, []⟩
      sheets := []
      strings := {}
      styles := {}
      epoch := .since1900 }
    (o.MakesSense ∧ ∃ r, o.build = some (.ok r) ∧ r.rows w = .error (.sheetNotFound "#0") ∧
        r.records w = .error (.sheetNotFound "#0") ∧ o.FailsBy (.sheetNotFound "#0")) ∧
      { o with headerRow := none }.build = some (.error (.columnWithoutHeader "B")) ∧
      { o with headerRow := none }.Fault (.columnWithoutHeader "B") := by
  intro o w
  have hcheck : o.check = some (.ok ()) := rfl
  have hrefused : { o with headerRow := none }.check = some (.error (.columnWithoutHeader "B")) := rfl
  have hnobuild : { o with headerRow := none }.build = some (.error (.columnWithoutHeader "B")) :=
    build_eq_error.mpr hrefused
  obtain ⟨hbuilt, -, -, hreads⟩ := build_covers o
  obtain ⟨hnone, hfault, -⟩ := build_covers { o with headerRow := none }
  have hbuild : o.build = some (.ok ⟨o, hcheck⟩) := build_eq_ok.mpr rfl
  have hrows : SheetReader.rows ⟨o, hcheck⟩ w = .error (.sheetNotFound "#0") := rfl
  have hrecords : SheetReader.records ⟨o, hcheck⟩ w = .error (.sheetNotFound "#0") := rfl
  obtain ⟨-, hfails⟩ := hreads _ hbuild
  have hsheet := (hfails w _).2 (by decide) hrecords
  refine ⟨⟨hbuilt.mp ⟨_, hbuild⟩, _, hbuild, hrows, hrecords, hsheet⟩, hnobuild, ?_⟩
  have hsenseless : ¬ { o with headerRow := none }.MakesSense := by
    intro ho
    obtain ⟨r, hr⟩ := hnone.mpr ho
    exact nomatch Option.some.inj (hr.symm.trans hnobuild)
  have hcounted : ¬ ∃ range ∈ o.range, range.Uncounted := by
    rintro ⟨range, hrange, huncounted⟩
    obtain rfl := Option.some.inj hrange
    exact absurd huncounted.lastRow (by decide)
  obtain ⟨cause, hcause, htrue⟩ := hfault hsenseless hcounted
  rwa [Except.error.inj (Option.some.inj (hcause.symm.trans hnobuild))] at htrue

/-- **A request that makes no sense and is not refused**: its range has all rows that 32-bit numbers
count, so there is no number for the last one, and no answer that names it. -/
theorem ReadOptions.build_uncounted :
    let o : ReadOptions := { range := some ⟨⟨0, 0⟩, ⟨4294967295, 0⟩⟩ }
    ¬ o.MakesSense ∧ o.build = none ∧ ¬ ∃ cause, o.build = some (.error cause) := by
  intro o
  have huncounted : Range.Uncounted ⟨⟨0, 0⟩, ⟨4294967295, 0⟩⟩ := by constructor <;> decide
  have hnone : o.build = none := build_eq_none.mpr (check_eq_none.mpr ⟨_, rfl, huncounted⟩)
  refine ⟨fun ho => huncounted.not_inSheet (ho.range _ rfl), hnone, ?_⟩
  rintro ⟨cause, hcause⟩
  exact nomatch hnone.symm.trans hcause

end Xlsx
