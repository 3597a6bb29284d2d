import Xlsx.Proofs.Except
import Xlsx.Proofs.Sheet.CursorRun
import Xlsx.Proofs.Sheet.Opening
import Xlsx.Proofs.Workbook.StringItems
import Xlsx.Sheet.Rows

/-! # Shared texts in sheets

A cell that holds a shared text gives its place in the table and the text that stands there. That it
does is a property of all cells that a decoder makes, and such a property holds of all cells of all
rows that any cursor gives.

* **`Workbook.Reads`**: the cursors that read a sheet of a workbook, wherever they stand.
* **`Cursor.CellsAre.next`**: a property of all cells, along one call.
* **`Workbook.Reads.cellsAre`**: it holds wherever a cursor has come.
* **`SharedStrings.slots`**: a part of shared strings and the cells that refer to it. -/

namespace Xlsx

open Markup (Content Event)

/-! ## Properties of all cells -/

/-- All cells of a row have a property. -/
def Row.AllCells (P : Cell → Prop) (row : Row) : Prop := ∀ cell ∈ row.cells, P cell

namespace Cursor

variable {P : Cell → Prop} {c : Cursor}

/-- A row of a gap has empty cells alone. -/
theorem emptyRow_allCells (hempty : P .empty) (c : Cursor) (index : Nat) :
    (c.emptyRow index).AllCells P := by
  intro cell hmem
  unfold emptyRow at hmem
  split at hmem
  · simp at hmem
  · rw [Array.mem_replicate] at hmem
    rw [hmem.2]
    exact hempty

/-- Cells that are put into a row one after the other are cells of the row. -/
theorem foldr_allCells {α : Type} {put : α → Array Cell → Array Cell}
    (hput : ∀ a cells, (∀ cell ∈ cells, P cell) → ∀ cell ∈ put a cells, P cell) (all : List α)
    {start : Array Cell} (hstart : ∀ cell ∈ start, P cell) : ∀ cell ∈ all.foldr put start, P cell := by
  induction all with
  | nil => exact hstart
  | cons a all ih => exact hput a _ ih

/-- Putting a cell into a row keeps what holds of all its cells. -/
theorem setIfInBounds_allCells {cells : Array Cell} {cell : Cell} (hcells : ∀ cell ∈ cells, P cell)
    (hcell : P cell) (i : Nat) : ∀ other ∈ cells.setIfInBounds i cell, P other := by
  intro other hmem
  rcases Array.mem_or_eq_of_mem_setIfInBounds hmem with hold | rfl
  · exact hcells other hold
  · exact hcell

/-- Decoded rows have decoded cells, and empty ones between them. -/
theorem decodeRow_allCells (hempty : P .empty) (hdecoded : ∀ raw, P (c.decoder.decodeLossy raw))
    (raw : Sheet.RawRow) : (c.decodeRow raw).AllCells P := by
  have hstart : ∀ (width : Nat) (cell : Cell), cell ∈ Array.replicate width Cell.empty → P cell := by
    intro width cell hmem
    rw [(Array.mem_replicate.mp hmem).2]
    exact hempty
  unfold decodeRow Row.AllCells
  split
  · refine foldr_allCells (fun cell cells hcells => ?_) raw.cells (hstart _)
    exact setIfInBounds_allCells hcells (hdecoded cell) _
  · refine foldr_allCells (fun cell cells hcells => ?_) raw.cells (hstart _)
    split
    · exact setIfInBounds_allCells hcells (hdecoded cell) _
    · exact hcells

/-- **A cursor whose cells have a property**: those that it decodes, empty ones, and those of a row
that it holds back. -/
structure CellsAre (P : Cell → Prop) (c : Cursor) : Prop where
  empty : P .empty
  decoded : ∀ raw, P (c.decoder.decodeLossy raw)
  pending : ∀ row, c.pending = some row → row.AllCells P

/-- What holds of the cells of a row holds of what a cursor yields and holds back for it. -/
theorem CellsAre.passTo (h : c.CellsAre P) {row : Row} (hrow : row.AllCells P) :
    (c.passTo row).1.AllCells P ∧ (c.passTo row).2.CellsAre P := by
  unfold Cursor.passTo
  split
  · refine ⟨emptyRow_allCells h.empty c _, h.empty, h.decoded, fun held hheld => ?_⟩
    rw [← Option.some.inj hheld]
    exact hrow
  · exact ⟨hrow, h.empty, h.decoded, fun held hheld => by simp at hheld⟩

/-- **One call** keeps the property, and the row that it gives has it. -/
theorem CellsAre.next (h : c.CellsAre P) {result : Except StreamError (Option Row)} {after : Cursor}
    (hnext : c.next = (result, after)) :
    after.CellsAre P ∧ ∀ row, result = .ok (some row) → row.AllCells P := by
  match result with
  | .error cause =>
    obtain ⟨reading, -, -, rfl⟩ := of_next_error hnext
    exact ⟨⟨h.empty, h.decoded, h.pending⟩, fun row hrow => by simp at hrow⟩
  | .ok none =>
    obtain ⟨reading, -, -, rfl⟩ := of_next_none hnext
    exact ⟨⟨h.empty, h.decoded, h.pending⟩, fun row hrow => by simp at hrow⟩
  | .ok (some row) =>
    obtain ⟨hrow, hafter⟩ := next_preserves (I := CellsAre P) (P := fun row => row.AllCells P)
      (fun h hheld => h.pending _ hheld)
      (fun h _ => ⟨decodeRow_allCells h.empty h.decoded _, h.empty, h.decoded, h.pending⟩)
      (fun h hrow => h.passTo hrow) h hnext
    exact ⟨hafter, fun other hother => Option.some.inj (Except.ok.inj hother) ▸ hrow⟩

end Cursor

/-! ## Cursors of a workbook -/

/-- **The cursors that read a sheet of a workbook**: one that is opened, and what becomes of it by
calls and by other columns, another first row or another way to treat missing rows. -/
inductive Workbook.Reads (w : Workbook) : Cursor → Prop
  | opened {selector : SheetSelector} {options : CursorOptions} {c : Cursor}
      (h : w.openSheet selector options = .ok c) : Reads w c
  | next {c after : Cursor} {result : Except StreamError (Option Row)} (h : Reads w c)
      (hnext : c.next = (result, after)) : Reads w after
  | withColumns {c : Cursor} (columns : Option (List Nat)) (h : Reads w c) :
      Reads w (c.withColumns columns)
  | startingAt {c : Cursor} (row : Nat) (h : Reads w c) : Reads w (c.startingAt row)
  | withDense {c : Cursor} (dense : Bool) (h : Reads w c) : Reads w { c with dense }

/-- **A property of all cells** that a workbook's cells are decoded to holds wherever a cursor has
come. -/
theorem Workbook.Reads.cellsAre {w : Workbook} {P : Cell → Prop} (hempty : P .empty)
    (hdecoded : ∀ raw, P (w.decoder.decodeLossy raw)) {c : Cursor} (h : w.Reads c) : c.CellsAre P := by
  induction h with
  | opened h =>
    obtain ⟨sheet, -, h⟩ := bind_eq_ok.mp h
    obtain ⟨stream, -, h⟩ := bind_eq_ok.mp h
    obtain ⟨reading, dimension, -, rfl⟩ := Cursor.ofStream?_eq_ok (mapError_eq_ok.mp h)
    exact ⟨hempty, hdecoded, fun row hrow => by simp [Cursor.opened] at hrow⟩
  | next h hnext ih => exact (ih.next hnext).1
  | withColumns columns h ih => exact ⟨ih.empty, ih.decoded, ih.pending⟩
  | startingAt row h ih =>
    refine ⟨ih.empty, ih.decoded, fun held hheld => ?_⟩
    exact ih.pending held (Option.filter_eq_some_iff.mp hheld).1
  | withDense dense h ih => exact ⟨ih.empty, ih.decoded, ih.pending⟩

/-! ## Shared texts -/

/-- **A cell that a table bears out**: if it holds a shared text, that stands at its place. -/
def SharedStrings.Bears (t : SharedStrings) (cell : Cell) : Prop :=
  ∀ i text, cell = .text (.shared i text) → t.items[i]? = some text

namespace Decoder

variable {d : Decoder} {cell : Cell}

/-- A number is no text of the table. -/
theorem bears_number {style : Nat} {text : String} (h : d.decodeNumber style text = .ok cell) :
    d.strings.Bears cell := by
  unfold decodeNumber at h
  rintro i shared rfl
  split at h
  · split at h <;> simp at h
  · simp at h

/-- A shared text is looked up in the table. -/
theorem bears_shared {text : String} (h : d.decodeShared text = .ok cell) : d.strings.Bears cell := by
  unfold decodeShared at h
  rintro i shared rfl
  split at h
  · rename_i j found hfound
    obtain ⟨k, -, hk⟩ := Option.bind_eq_some_iff.mp hfound
    obtain ⟨item, hitem, hpair⟩ := Option.map_eq_some_iff.mp hk
    simp only [Prod.mk.injEq] at hpair
    simp only [Except.ok.injEq, Cell.text.injEq, CellText.shared.injEq] at h
    rw [← h.1, ← h.2, ← hpair.1, ← hpair.2]
    exact hitem
  · simp at h

/-- Neither is a truth value. -/
theorem bears_boolean {text : String} (h : decodeBoolean text = .ok cell) : d.strings.Bears cell := by
  unfold decodeBoolean at h
  rintro i shared rfl
  split at h
  · simp at h
  · split at h <;> simp at h

/-- Nor is a date. -/
theorem bears_date {text : String} (h : d.decodeDate text = .ok cell) : d.strings.Bears cell := by
  unfold decodeDate at h
  rintro i shared rfl
  split at h <;> simp at h

/-- **Every cell that is decoded is borne out** by the table of its decoder. -/
theorem bears_decode {raw : RawCell} (h : d.decode raw = .ok cell) : d.strings.Bears cell := by
  -- Where a value is missing the cell is empty.
  have hempty : ∀ {cell : Cell}, (.ok .empty : Except DecodeError Cell) = .ok cell →
      d.strings.Bears cell := by
    rintro cell hcell i shared rfl
    simp at hcell
  simp only [decode] at h
  split at h
  · split at h
    · exact bears_number h
    · exact hempty h
  · split at h
    · exact bears_shared h
    · exact hempty h
  · rintro i shared rfl
    split at h <;> simp at h
  · rintro i shared rfl
    simp at h
  · split at h
    · exact bears_boolean h
    · exact hempty h
  · rintro i shared rfl
    split at h <;> simp at h
  · split at h
    · exact bears_date h
    · exact hempty h
  · simp at h

/-- **Every decoded cell** that is a text of the table has the text of its entry. -/
theorem bears_decodeLossy (d : Decoder) (raw : RawCell) : d.strings.Bears (d.decodeLossy raw) := by
  unfold decodeLossy
  split
  · exact bears_decode ‹_›
  · rintro i shared h
    simp at h

end Decoder

/-- **Shared strings keep their slots.** A part of shared strings gives a table with one entry for
each of its items, in order: the text of the item with its escaped characters decoded. And every cell
of every row that any cursor on a workbook with this table gives, if it is a shared text, holds the
entry at the place that it names. -/
theorem SharedStrings.slots {content : Content} (h : content.isStringPart = true) :
    ∃ table : SharedStrings, ofStream? ⟨content.events, none⟩ = .ok table ∧
      table.items = (content.items.map Text.unescape).toArray ∧
      table.items.size = content.events.countP (Event.isTag "si") ∧
      ∀ {w : Workbook} {c after : Cursor} {row : Row}, w.strings = table → w.Reads c →
        c.next = (.ok (some row), after) → ∀ cell ∈ row.cells, ∀ (i : Nat) (text : String),
          cell = .text (.shared i text) → ∃ hi : i < table.items.size, table.items[i] = text := by
  refine ⟨⟨(content.items.map Text.unescape).toArray⟩, ofStream?_items h, rfl, ?_, ?_⟩
  · rw [List.size_toArray, List.length_map, length_items h]
  · intro w c after row hw hreads hnext cell hmem i text hcell
    have hcells : c.CellsAre w.strings.Bears :=
      hreads.cellsAre (fun i text h => by simp at h) w.decoder.bears_decodeLossy
    have hbears := (hcells.next hnext).2 row rfl cell hmem i text hcell
    rw [hw] at hbears
    exact Array.getElem?_eq_some_iff.mp hbears

/-- A part of three items: a plain one, one without content, and one of two runs that share an escaped
character, with a pronunciation. -/
def SharedStrings.samplePart : Content :=
  .element ⟨"sst", []⟩
    (.element ⟨"si", []⟩ (.element ⟨"t", []⟩ (.text (.ok "a") .done) .done) <|
      .empty ⟨"si", []⟩ <|
      .element ⟨"si", []⟩
        (.element ⟨"r", []⟩ (.element ⟨"t", []⟩ (.text (.ok "_x00") .done) .done) <|
          .element ⟨"r", []⟩ (.element ⟨"t", []⟩ (.aside (.literal (.ok "41_") .done)) .done) <|
          .element ⟨"rPh", []⟩ (.element ⟨"t", []⟩ (.text (.ok "x") .done) .done) .done)
        .done)
    .done

/-- A workbook with these strings, and a cell that refers to the last of them. -/
def Workbook.sampleStrings : Workbook where
  container := ⟨"<sheetData><row><c t=\"s\"><v>2</v></c></row></sheetData>".toUTF8,
    [{ name := "s", isEncrypted := false, method := 0, compressedSize := 55, size := 55, header := 0 }]⟩
  sheets := [{ name := "S", index := 0, sheetId := 1, visibility := .visible, entry := "s" }]
  strings := ⟨#["a", "", "A"]⟩
  styles := {}
  epoch := .since1900

/-- The cell holds the third string. -/
theorem SharedStrings.slots_sample : ∃ table : SharedStrings,
    ofStream? ⟨samplePart.events, none⟩ = .ok table ∧ table.items.size = 3 ∧
      ∃ hi : 2 < table.items.size, table.items[2] = "A" := by
  obtain ⟨table, htable, hitems, hsize, hcells⟩ :=
    @SharedStrings.slots samplePart (by decide +kernel)
  have hstrings : Workbook.sampleStrings.strings = table := by
    cases table
    simp only at hitems
    rw [hitems]
    decide +kernel
  have hrow : (Workbook.sampleStrings.openSheet (.index 0)).map (fun c => c.next.1) =
      .ok (.ok (some ⟨0, #[.text (.shared 2 "A")], none⟩)) := by decide +kernel
  obtain ⟨c, hopen, hgiven⟩ := map_eq_ok.mp hrow
  refine ⟨table, htable, ?_, ?_⟩
  · rw [hsize]
    decide +kernel
  · have hnext : c.next = (.ok (some ⟨0, #[.text (.shared 2 "A")], none⟩), c.next.2) :=
      Prod.ext hgiven rfl
    exact hcells hstrings (.opened hopen) hnext (.text (.shared 2 "A")) (by simp) 2 "A" rfl

end Xlsx
