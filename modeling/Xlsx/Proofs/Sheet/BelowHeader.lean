import Xlsx.Proofs.Sheet.ReadingOn
import Xlsx.Proofs.Sheet.Requests

/-! # Rows below a header

With a header row a sheet is read in two parts: up to the first row that exists from the header row
on, in all columns, and from there with the columns that the header resolves.

* **`resolveColumns_ok`**, **`resolveColumns_error`**: which columns can be resolved below a header.
* **`ReadOptions.belowHeader`**: how a header row splits the rows of a sheet.
* **`SheetReader.rows_belowHeader`**: the header and the rows that a reader gives are these parts. -/

namespace Xlsx

/-! ## The columns below a header -/

/-- A header knows the column of a name if it has that name. -/
theorem Header.columnOf?_isSome {header : Header} {name : String} :
    (header.columnOf? name).isSome = true ↔ name ∈ header.names := by
  rw [columnOf?, Option.isSome_map, List.find?_isSome, names, List.mem_map]
  constructor
  · rintro ⟨field, hmem, hname⟩
    exact ⟨field, hmem, by simpa using hname⟩
  · rintro ⟨field, hmem, rfl⟩
    exact ⟨field, hmem, by simp⟩

/-- A key makes sense below a header, as far as that can be told without it. -/
def ColumnKey.Readable (key : ColumnKey) : Prop := ∀ letters, key = .letter letters →
  ∃ column, Column.index? letters = .ok column

/-- A key that does not name what the header lacks is resolved. -/
theorem ColumnKey.resolve_ok {header : Header} {key : ColumnKey} (hkey : key.Readable)
    (hnamed : ∀ name, key = .header name → name ∈ header.names) :
    ∃ column, key.resolve (some header) = .ok column := by
  cases key with
  | index column => exact ⟨column, rfl⟩
  | letter letters =>
    obtain ⟨column, hcolumn⟩ := hkey letters rfl
    refine ⟨column, ?_⟩
    rw [resolve, hcolumn]
    rfl
  | header name =>
    obtain ⟨column, hcolumn⟩ :=
      Option.isSome_iff_exists.mp (Header.columnOf?_isSome.mpr (hnamed name rfl))
    refine ⟨column, ?_⟩
    simp only [resolve, Option.bind_some, hcolumn]

/-- A key that names what the header lacks is reported. -/
theorem ColumnKey.resolve_unknown {header : Header} {name : String} (h : name ∉ header.names) :
    (ColumnKey.header name).resolve (some header) = .error (.unknownColumn name) := by
  have hnone : header.columnOf? name = none := by
    rw [← Option.not_isSome_iff_eq_none]
    exact fun hsome => h (Header.columnOf?_isSome.mp hsome)
  simp only [resolve, Option.bind_some, hnone]

/-- **Keys whose names the header has are resolved.** -/
theorem resolveColumns_ok {header : Header} {keys : Option (List ColumnKey)}
    (hkeys : ∀ key ∈ keys.getD [], key.Readable)
    (hnamed : ∀ name, ColumnKey.header name ∈ keys.getD [] → name ∈ header.names) :
    ∃ columns, resolveColumns (some header) keys = .ok columns := by
  cases keys with
  | none => exact ⟨none, rfl⟩
  | some keys =>
    have hall : ∃ columns, keys.mapM (ColumnKey.resolve (some header)) = .ok columns := by
      induction keys with
      | nil => exact ⟨[], rfl⟩
      | cons key keys ih =>
        obtain ⟨column, hcolumn⟩ := ColumnKey.resolve_ok (hkeys key List.mem_cons_self)
          fun name hname => hnamed name (hname ▸ List.mem_cons_self)
        obtain ⟨columns, hcolumns⟩ := ih (fun key hmem => hkeys key (List.mem_cons_of_mem _ hmem))
          fun name hmem => hnamed name (List.mem_cons_of_mem _ hmem)
        refine ⟨column :: columns, ?_⟩
        rw [List.mapM_cons, hcolumn, hcolumns]
        rfl
    obtain ⟨columns, hcolumns⟩ := hall
    refine ⟨some columns, ?_⟩
    simp only [resolveColumns, Option.mapM_some, hcolumns]
    rfl

/-- **A name that the header lacks is reported**, and it is one of those that are asked for. -/
theorem resolveColumns_error {header : Header} {keys : Option (List ColumnKey)}
    (hkeys : ∀ key ∈ keys.getD [], key.Readable) {name : String}
    (hmem : ColumnKey.header name ∈ keys.getD []) (hname : name ∉ header.names) :
    ∃ unknown, ColumnKey.header unknown ∈ keys.getD [] ∧ unknown ∉ header.names ∧
      resolveColumns (some header) keys = .error (.unknownColumn unknown) := by
  cases keys with
  | none => exact absurd hmem List.not_mem_nil
  | some keys =>
    have hfail : ∃ unknown, ColumnKey.header unknown ∈ keys ∧ unknown ∉ header.names ∧
        keys.mapM (ColumnKey.resolve (some header)) = .error (.unknownColumn unknown) := by
      induction keys with
      | nil => exact absurd hmem List.not_mem_nil
      | cons key keys ih =>
        by_cases hkey : ∀ name, key = .header name → name ∈ header.names
        · -- The first key is resolved, so the name is that of a later one.
          obtain ⟨column, hcolumn⟩ := ColumnKey.resolve_ok (hkeys key List.mem_cons_self) hkey
          have hlater : ColumnKey.header name ∈ keys := by
            rcases List.mem_cons.mp hmem with heq | hlater
            · exact absurd (hkey name heq.symm) hname
            · exact hlater
          obtain ⟨unknown, hasked, hlacks, hunknown⟩ :=
            ih (fun key hmem => hkeys key (List.mem_cons_of_mem _ hmem)) hlater
          refine ⟨unknown, List.mem_cons_of_mem _ hasked, hlacks, ?_⟩
          rw [List.mapM_cons, hcolumn, hunknown]
          rfl
        · simp only [not_forall] at hkey
          obtain ⟨unknown, rfl, hlacks⟩ := hkey
          refine ⟨unknown, List.mem_cons_self, hlacks, ?_⟩
          rw [List.mapM_cons, ColumnKey.resolve_unknown hlacks]
          rfl
    obtain ⟨unknown, hasked, hlacks, hunknown⟩ := hfail
    refine ⟨unknown, hasked, hlacks, ?_⟩
    simp only [resolveColumns, Option.mapM_some, hunknown]
    rfl

namespace ReadOptions

/-! ## Requests that make sense -/

variable {o : ReadOptions}

/-- The range of a request lies in the sheet. -/
theorem range_lt_of_check (h : o.check = some (.ok ())) :
    ∀ range ∈ o.range, range.last.row < maxRows ∧ range.last.column < maxColumns := by
  intro range hmem
  have hinside := (check_eq_ok.mp h).range range hmem
  exact ⟨hinside.lastRow, hinside.lastColumn⟩

/-- A range that passes its check ends in a row of the sheet. -/
theorem lastRow_lt_of_check (h : o.check = some (.ok ())) : ∀ range ∈ o.range, range.last.row < maxRows :=
  fun range hmem => (range_lt_of_check h range hmem).1

/-- The columns of a request make sense one by one. -/
theorem makesSense_of_check (h : o.check = some (.ok ())) :
    ∀ key ∈ o.columns.getD [], key.MakesSense o.headerRow := by
  intro key hmem
  cases hkeys : o.columns with
  | none => simp [hkeys] at hmem
  | some keys =>
    rw [hkeys] at hmem
    exact (check_eq_ok.mp h).columns keys hkeys key hmem

/-- The letters in a request name columns. -/
theorem readable_of_check (h : o.check = some (.ok ())) : ∀ key ∈ o.columns.getD [], key.Readable := by
  rintro key hmem letters rfl
  exact makesSense_of_check h _ hmem

/-! ## The two parts of a sheet -/

/-- **How a header row splits the rows of a sheet.** Of the rows up to the end of the range the
first one that does not lie before the header row is the header, in the columns of the range; the
data are the rows behind it that lie neither before the range nor before the row that follows the
header. Without such a row the header is empty and there are no data. -/
def belowHeader (o : ReadOptions) (headerRow : Nat) (rows : List Row) : Header × List Row :=
  match (Row.within o.range rows).dropWhile fun row => decide (row.index < headerRow) with
  | [] => ({ row := headerRow }, [])
  | row :: behind =>
    (Header.ofRow (row.reduce (o.range.map Range.columns)), behind.filter fun later =>
      decide (max ((o.range.map (·.first.row)).getD 0) (row.index + 1) ≤ later.index))

/-- The header of the rows of a sheet is one of them, or an empty one where it was looked for; so the
number behind it is counted without an overflow. -/
theorem successor_belowHeader {headerRow : Nat} {rows : List Row} (hheader : headerRow < maxRows)
    (hrows : ∀ row ∈ rows, row.index ≤ maxRows - 1) :
    Text.successor (o.belowHeader headerRow rows).1.row = (o.belowHeader headerRow rows).1.row + 1 := by
  have hlt : (o.belowHeader headerRow rows).1.row < maxRows := by
    unfold belowHeader
    cases hfound : (Row.within o.range rows).dropWhile fun row => decide (row.index < headerRow) with
    | nil => exact hheader
    | cons row behind =>
      have hmem : row ∈ Row.within o.range rows :=
        List.dropWhile_subset _ (hfound ▸ List.mem_cons_self)
      have hindex := hrows row (List.takeWhile_subset _ hmem)
      show (row.reduce (o.range.map Range.columns)).index < maxRows
      rw [Row.reduce_index]
      exact Nat.lt_of_le_of_lt hindex (by decide)
  exact Text.successor_of_lt (Nat.lt_of_le_of_lt hlt (by decide))

end ReadOptions

/-- A cursor that starts at another row stands where it did. -/
theorem Cursor.Narrows.startingAt {full c : Cursor} (h : full.Narrows c) (row : Nat) :
    full.Narrows (c.startingAt row) :=
  ⟨h.all, h.apart, h.reading, h.decoder, h.nodup, h.lastRow_le⟩

namespace Rows

/-- The header that is read: the first row, or an empty one where the header row is. -/
def headerOf (headerRow : Nat) (found : Option Row) : Header :=
  found.elim { row := headerRow } Header.ofRow

/-- The cursor that reads on behind a header. -/
def readingOn (o : ReadOptions) (header : Header) (columns : Option (List Nat)) (c : Cursor) : Cursor :=
  Cursor.startingAt { c.withColumns columns with dense := o.dense }
    (max ((o.range.map (·.first.row)).getD 0) (Text.successor header.row))

/-- No row is held back behind a header if none was before. -/
theorem readingOn_pending {o : ReadOptions} {header : Header} {columns : Option (List Nat)} {c : Cursor}
    (h : c.pending = none) : (readingOn o header columns c).pending = none := by
  show c.pending.filter _ = none
  rw [h]
  rfl

/-- **Reading below a header**: the header is read first, then its columns are resolved, and the
cursor that has read it reads on. -/
theorem openBelow_eq {w : Workbook} {o : ReadOptions} {headerRow : Nat} {c after : Cursor}
    {found : Option Row} (hopen : w.openSheet o.sheet { range := o.range } = .ok c)
    (hnext : (c.startingAt headerRow).next = (.ok found, after)) :
    openBelow w o headerRow =
      (resolveColumns (some (headerOf headerRow found)) o.columns).map fun columns =>
        { cursor := readingOn o (headerOf headerRow found) columns after
          header := some (headerOf headerRow found) } := by
  unfold openBelow
  rw [hopen]
  simp only [bind, Except.bind, hnext, Except.mapError, pure, Except.pure]
  cases found with
  | none =>
    simp only [headerOf, Option.elim]
    cases resolveColumns (some { row := headerRow }) o.columns <;> rfl
  | some row =>
    simp only [headerOf, Option.elim]
    cases resolveColumns (some (Header.ofRow row)) o.columns <;> rfl

/-- **Rows below a header that are opened**, step by step: the header is the first row that the cursor
gives which starts at the header row, and that cursor reads on in the columns that are resolved. -/
theorem steps_of_openBelow {w : Workbook} {o : ReadOptions} {headerRow : Nat} {rows : Rows}
    (h : openBelow w o headerRow = .ok rows) :
    ∃ c found after columns, w.openSheet o.sheet { range := o.range } = .ok c ∧
      (c.startingAt headerRow).next = (.ok found, after) ∧
      resolveColumns (some (headerOf headerRow found)) o.columns = .ok columns ∧
      rows = { cursor := readingOn o (headerOf headerRow found) columns after
               header := some (headerOf headerRow found) } := by
  obtain ⟨c, hopen, -⟩ := bind_eq_ok.mp h
  match hnext : (c.startingAt headerRow).next with
  | (.error cause, after) =>
    unfold openBelow at h
    simp [hopen, hnext, bind, Except.bind, Except.mapError] at h
  | (.ok found, after) =>
    rw [openBelow_eq hopen hnext] at h
    obtain ⟨columns, hcolumns, rfl⟩ := map_eq_ok.mp h
    exact ⟨c, found, after, columns, hopen, hnext, hcolumns, rfl⟩

/-- The data of a sheet are the rows behind the header that the cursor which reads on wants. -/
theorem between_belowHeader {o : ReadOptions} {headerRow last : Nat} {rows later : List Row}
    (columns : Option (List Nat))
    (hlater : (later.takeWhile fun row => decide (row.index ≤ last)) =
      ((Row.within o.range rows).dropWhile fun row => decide (row.index < headerRow)).tail) :
    Row.between (max ((o.range.map (·.first.row)).getD 0) ((o.belowHeader headerRow rows).1.row + 1))
        last columns later =
      (o.belowHeader headerRow rows).2.map (Row.reduce columns) := by
  rw [Row.between, hlater]
  unfold ReadOptions.belowHeader
  cases (Row.within o.range rows).dropWhile fun row => decide (row.index < headerRow) with
  | nil => rfl
  | cons row behind =>
    have hindex : (Header.ofRow (row.reduce (o.range.map Range.columns))).row = row.index := by
      show (row.reduce (o.range.map Range.columns)).index = row.index
      rw [Row.reduce_index]
    simp only [hindex, List.tail_cons]

/-- **The header and the data of a sheet.** The cursor that starts at the header row gives the
header, and the one that reads on behind it gives the data, if all rows of the sheet can be read. All
of them lie in the sheet. -/
theorem openedBelow {sheet : Sheet} {decoder : Decoder} {o : ReadOptions} {reading : Sheet.Reading}
    {dimension : Option Range} (hrange : ∀ range ∈ o.range, range.last.row < maxRows)
    (hapart : reading.CellsApart) {full : Cursor}
    (hfull : full = Cursor.opened sheet decoder {} reading dimension)
    (hok : full.run.error? = none) {headerRow : Nat} (hheaderRow : headerRow < maxRows) :
    ∃ found after,
      ((Cursor.opened sheet decoder { range := o.range } reading dimension).startingAt headerRow).next =
          (.ok found, after) ∧
        headerOf headerRow found = (o.belowHeader headerRow full.run.rows).1 ∧
        (∀ row ∈ full.run.rows, row.index ≤ maxRows - 1) ∧
        ∀ columns,
          let rest := readingOn o (headerOf headerRow found) columns after
          rest.run.error? = none ∧
            rest.run.rows = rest.shown ((o.belowHeader headerRow full.run.rows).2.map
              (Row.reduce (projectionOf columns o.range))) := by
  obtain ⟨start, hstart⟩ : ∃ start, start = Cursor.opened sheet decoder { range := o.range } reading
    dimension := ⟨_, rfl⟩
  have hopened : full.Narrows start := by
    rw [hfull, hstart]
    exact Cursor.narrows_opened sheet decoder { range := o.range } dimension hapart hrange
  have hpending : start.pending = none := by rw [hstart]; rfl
  have hdense : start.dense = false := by rw [hstart]; rfl
  have hstartRange : start.range = o.range := by rw [hstart]; rfl
  have hprojection : start.projection = o.range.map Range.columns := by
    rw [hstart]
    show projectionOf none o.range = o.range.map Range.columns
    cases o.range <;> rfl
  have hwithin : (full.run.rows.takeWhile fun row => decide (row.index ≤ start.lastRow)) =
      Row.within o.range full.run.rows := by
    rw [hstart]
    exact Row.takeWhile_lastRow fun _ hrow => hopened.all.index_le hrow
  obtain ⟨later, cells, hlater, hcells, hdecoder, hlaterOk, hbehind, hnext⟩ :=
    (hopened.startingAt headerRow).next_eq (by rw [Cursor.startingAt, hpending]; rfl) hdense hok rfl
  have hrestart : ((full.run.rows.takeWhile fun row =>
      decide (row.index ≤ (start.startingAt headerRow).lastRow)).dropWhile fun row =>
        decide (row.index < (start.startingAt headerRow).firstRow)) =
      (Row.within o.range full.run.rows).dropWhile fun row => decide (row.index < headerRow) :=
    congrArg (List.dropWhile _) hwithin
  rw [hrestart] at hbehind hnext
  have hheader : headerOf headerRow
      (((Row.within o.range full.run.rows).dropWhile fun row =>
        decide (row.index < headerRow)).head?.map (Row.reduce (start.startingAt headerRow).projection)) =
      (o.belowHeader headerRow full.run.rows).1 := by
    show headerOf headerRow (Option.map (Row.reduce start.projection) _) = _
    rw [hprojection]
    unfold headerOf ReadOptions.belowHeader
    cases (Row.within o.range full.run.rows).dropWhile fun row => decide (row.index < headerRow) <;> rfl
  rw [← hstart]
  have hinside : ∀ row ∈ full.run.rows, row.index ≤ maxRows - 1 :=
    fun _ hrow => hopened.all.index_le hrow
  refine ⟨_, (start.startingAt headerRow).advanced later.reading cells, hnext, hheader, hinside,
    fun columns => ?_⟩
  -- Behind the header the cursor stands where one without options would, with other options than
  -- before.
  rw [hheader]
  intro rest
  have hrest : later.Narrows rest :=
    ⟨hlater, hcells, rfl, hopened.decoder.trans hdecoder.symm, fun read h => projectionOf_nodup h,
      hopened.lastRow_le⟩
  obtain ⟨hrows, herror⟩ := hrest.run
    (by show (start.pending.filter _).filter _ = none; rw [hpending]; rfl) hlaterOk
  have hcolumns : rest.projection = projectionOf columns o.range :=
    congrArg (projectionOf columns) hstartRange
  rw [hcolumns] at hrows
  refine ⟨herror, ?_⟩
  have hfirst : rest.firstRow = max ((o.range.map (·.first.row)).getD 0)
      ((o.belowHeader headerRow full.run.rows).1.row + 1) := by
    rw [← ReadOptions.successor_belowHeader hheaderRow hinside]
    rfl
  rw [hrows, hfirst]
  exact congrArg _ (between_belowHeader _ hbehind)

end Rows

namespace Workbook

/-- A sheet whose events are there can be opened as its events can. -/
theorem openSheet_eq {w : Workbook} {selector : SheetSelector} {sheet : Sheet} {s : Markup.Stream}
    (hsheet : w.resolve selector = .ok sheet) (hscan : w.container.scan sheet.entry = .ok s)
    (o : CursorOptions) :
    w.openSheet selector o = (Cursor.ofStream? sheet w.decoder o s).mapError .stream := by
  unfold openSheet
  rw [hsheet]
  simp only [bind, Except.bind, hscan, Except.mapError]

end Workbook

/-- **A header splits the rows of a sheet without loss or repetition.** Let all rows of a sheet, no
cell of which stands inside another, be read without an error. A reader with a header row fails to
give rows, for a name that the header lacks, exactly when it is asked for the column of such a name.
Else the header and the data that it gives are the two parts that the header row splits the rows
into; the data are cut down to the columns that the header resolves within the range, with the
missing rows before each of them if the reader is dense, and end without an error. -/
theorem SheetReader.rows_belowHeader {r : SheetReader} {w : Workbook} {sheet : Sheet}
    {s : Markup.Stream} {full : Cursor} {headerRow : Nat}
    (hheader : r.options.headerRow = some headerRow) (hsheet : w.resolve r.options.sheet = .ok sheet)
    (hscan : w.container.scan sheet.entry = .ok s)
    (hopen : Cursor.ofStream? sheet w.decoder {} s = .ok full) (hok : full.run.error? = none)
    (hapart : Markup.Apart "c" false s.events) :
    let header := (r.options.belowHeader headerRow full.run.rows).1
    let data := (r.options.belowHeader headerRow full.run.rows).2
    ((∃ name, r.rows w = .error (.unknownColumn name)) ↔
        ∃ name, ColumnKey.header name ∈ r.options.columns.getD [] ∧ name ∉ header.names) ∧
      ((∀ name, ColumnKey.header name ∈ r.options.columns.getD [] → name ∈ header.names) →
        ∃ rows columns, r.rows w = .ok rows ∧ rows.header = some header ∧
          resolveColumns (some header) r.options.columns = .ok columns ∧
          rows.cursor.run.error? = none ∧
          let wanted := data.map (Row.reduce
            ((CursorOptions.columnSet { columns, range := r.options.range }).map Finset.sort))
          rows.cursor.run.rows =
            if r.options.dense then
              Row.fillGaps rows.cursor.emptyRow
                (max ((r.options.range.map (·.first.row)).getD 0) (header.row + 1)) wanted
            else wanted) := by
  intro header data
  obtain ⟨reading, dimension, hreading, hfull⟩ := Cursor.ofStream?_eq_ok hopen
  have hheaderRow : headerRow < maxRows :=
    (ReadOptions.check_eq_ok.mp r.check_options).headerRow headerRow hheader
  obtain ⟨found, after, hnext, hfound, hinside, hrest⟩ :=
    Rows.openedBelow (ReadOptions.lastRow_lt_of_check r.check_options)
      (Sheet.Reading.cellsApart_of_open hreading hapart) hfull hok hheaderRow
  have hsheetOpen : w.openSheet r.options.sheet { range := r.options.range } =
      .ok (Cursor.opened sheet w.decoder { range := r.options.range } reading dimension) := by
    rw [Workbook.openSheet_eq hsheet hscan, Cursor.ofStream?_eq, hreading]
    rfl
  have hrows : r.rows w = (resolveColumns (some header) r.options.columns).map fun columns =>
      { cursor := Rows.readingOn r.options header columns after, header := some header } := by
    rw [SheetReader.rows, hheader]
    show Rows.openBelow w r.options headerRow = _
    rw [Rows.openBelow_eq hsheetOpen hnext, hfound]
  rw [hfound] at hrest
  have hkeys := ReadOptions.readable_of_check r.check_options
  -- Opening can fail only where the columns are resolved, which looks at nothing but the header.
  refine ⟨⟨fun ⟨name, hname⟩ => ?_, fun ⟨name, hmem, hlacks⟩ => ?_⟩, fun hnamed => ?_⟩
  · -- If no name were unknown, the columns would be resolved and the rows given.
    by_contra hall
    obtain ⟨columns, hcolumns⟩ := resolveColumns_ok hkeys fun name hmem => by
      by_contra hlacks
      exact hall ⟨name, hmem, hlacks⟩
    rw [hrows, hcolumns] at hname
    simp [Except.map] at hname
  · obtain ⟨unknown, -, -, hunknown⟩ := resolveColumns_error hkeys hmem hlacks
    refine ⟨unknown, ?_⟩
    rw [hrows, hunknown]
    rfl
  · obtain ⟨columns, hcolumns⟩ := resolveColumns_ok hkeys hnamed
    obtain ⟨herror, hrun⟩ := hrest columns
    refine ⟨_, columns, by rw [hrows, hcolumns]; rfl, rfl, hcolumns, herror, ?_⟩
    have hdue : Text.successor header.row = header.row + 1 :=
      ReadOptions.successor_belowHeader hheaderRow hinside
    rw [hrun, ← projectionOf_eq_sort, ← hdue]
    rfl

/-- A workbook of one sheet, which has two empty cells in its first row and none in its second. -/
def Workbook.sample : Workbook where
  container := ⟨"<sheetData><row><c/><c/></row><row/></sheetData>".toUTF8,
    [{ name := "s", isEncrypted := false, method := 0, compressedSize := 48, size := 48, header := 0 }]⟩
  sheets := [{ name := "S", index := 0, sheetId := 1, visibility := .visible, entry := "s" }]
  strings := {}
  styles := {}
  epoch := .since1900

/-- The events of that sheet. -/
def Workbook.sampleStream : Markup.Stream where
  events := [.start ⟨"sheetData", []⟩, .start ⟨"row", []⟩, .empty ⟨"c", []⟩, .empty ⟨"c", []⟩,
    .finish "row", .empty ⟨"row", []⟩, .finish "sheetData"]

/-- A reader that asks for the column `B` below the first row. -/
def SheetReader.sample : SheetReader := ⟨{ headerRow := some 0, columns := some [.header "B"] }, rfl⟩

/-- Blank cells name their columns by letters. -/
theorem SheetReader.rows_belowHeader_sample : ∃ rows,
    SheetReader.sample.rows Workbook.sample = .ok rows ∧
      rows.header = some ⟨0, [(0, "A"), (1, "B")]⟩ ∧ rows.cursor.run.error? = none ∧
      rows.cursor.run.rows = [⟨1, #[.empty], some [1]⟩] := by
  obtain ⟨full, hfull⟩ : ∃ full, full = Cursor.opened ⟨"S", 0, 1, .visible, "s"⟩
    Workbook.sample.decoder {} (.streaming 0 ⟨Workbook.sampleStream.events.tail, none⟩) none := ⟨_, rfl⟩
  have hscan : Workbook.sample.container.scan "s" = .ok Workbook.sampleStream := by
    with_unfolding_all rfl
  have hopen : Cursor.ofStream? ⟨"S", 0, 1, .visible, "s"⟩ Workbook.sample.decoder {}
      Workbook.sampleStream = .ok full := by
    rw [hfull]
    rfl
  have hrows : full.run.rows = [⟨0, #[.empty, .empty], none⟩, ⟨1, #[], none⟩] := by
    rw [hfull, (Cursor.run_spec rfl).rows]
    decide +kernel
  have hok : full.run.error? = none := by
    rw [hfull, (Cursor.run_spec rfl).error?]
    decide +kernel
  have hbelow : SheetReader.sample.options.belowHeader 0
      [⟨0, #[.empty, .empty], none⟩, ⟨1, #[], none⟩] =
        (⟨0, [(0, "A"), (1, "B")]⟩, [⟨1, #[], none⟩]) := by decide +kernel
  obtain ⟨-, hgives⟩ := SheetReader.rows_belowHeader (r := SheetReader.sample) rfl rfl hscan hopen hok
    (by decide +kernel)
  rw [hrows, hbelow] at hgives
  obtain ⟨rows, columns, hopened, hheader, hcolumns, herror, hrun⟩ := hgives fun name hmem => by
    have hname : name = "B" := by simpa [SheetReader.sample] using hmem
    rw [hname]
    decide
  have hresolved : columns = some [1] := by
    have hone : resolveColumns (some ⟨0, [(0, "A"), (1, "B")]⟩) SheetReader.sample.options.columns =
        .ok (some [1]) := rfl
    rw [hone] at hcolumns
    exact (Except.ok.inj hcolumns).symm
  refine ⟨rows, hopened, hheader, herror, ?_⟩
  rw [hrun, if_neg (by decide), hresolved]
  decide +kernel

end Xlsx
